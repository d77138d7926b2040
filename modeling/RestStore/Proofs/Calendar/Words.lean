import RestStore.Calendar.Phrase
import RestStore.Proofs.Text.Lowercase

/-!
# The words of a phrase

A phrase is cut at spaces, and only its words count: two phrases with the same words in lower case
have the same meaning, whatever spaces stand between, before and behind them. The one exception is
`now`, which is compared as a whole text: with a space beside it, it has no meaning.
`resolve_of_same_words` says so.

* `Spaced` — what it is to consist of words; `spaced_iff` — it is to be cut into them.
* `Spaced.lowercase`, `words_lowercase` — the words of a text in lower case.
* `resolve_eq` — what the words of a phrase decide, and what they do not.
-/

set_option autoImplicit false

namespace RestStore.Phrase

/-- A word has characters, and none of them is a space. -/
structure IsWord (word : List Char) : Prop where
  ne_nil : word ≠ []
  unbroken : ' ' ∉ word

/-- A text that consists of words, with at least one space between two of them, and any spaces
around. -/
inductive Spaced : List (List Char) → List Char → Prop
  | nil : Spaced [] []
  | space {words : List (List Char)} {cs : List Char} : Spaced words cs → Spaced words (' ' :: cs)
  | last {word : List Char} : IsWord word → Spaced [word] word
  | word {word : List Char} {words : List (List Char)} {cs : List Char} : IsWord word →
    Spaced words cs → Spaced (word :: words) (word ++ ' ' :: cs)

/-! ## Cutting -/

theorem pieces_unbroken {cs : List Char} (h : ' ' ∉ cs) : pieces cs = [cs] := by
  induction cs with
  | nil => rfl
  | cons c cs ih =>
    rw [List.mem_cons, not_or] at h
    rw [pieces, if_neg (Ne.symm h.1), ih h.2]

theorem pieces_append_space {word : List Char} (h : ' ' ∉ word) (cs : List Char) :
    pieces (word ++ ' ' :: cs) = word :: pieces cs := by
  induction word with
  | nil => rfl
  | cons c word ih =>
    rw [List.mem_cons, not_or] at h
    rw [List.cons_append, pieces, if_neg (Ne.symm h.1), ih h.2]

theorem words_space (cs : List Char) : words (' ' :: cs) = words cs := rfl

theorem words_word {word : List Char} (h : IsWord word) : words word = [word] := by
  rw [words, pieces_unbroken h.unbroken, List.filter_cons_of_pos (by simpa using h.ne_nil)]
  rfl

theorem words_append_space {word : List Char} (h : IsWord word) (cs : List Char) :
    words (word ++ ' ' :: cs) = word :: words cs := by
  rw [words, pieces_append_space h.unbroken, List.filter_cons_of_pos (by simpa using h.ne_nil)]
  rfl

/-- A text is cut into the words that it consists of. -/
theorem Spaced.words_eq {tokens : List (List Char)} {cs : List Char} (h : Spaced tokens cs) :
    words cs = tokens := by
  induction h with
  | nil => rfl
  | space _ ih => rw [words_space, ih]
  | last hword => exact words_word hword
  | word hword _ ih => rw [words_append_space hword, ih]

/-- Every text consists of words. -/
theorem spaced_words (cs : List Char) : Spaced (words cs) cs := by
  by_cases hspace : ' ' ∈ cs
  · obtain ⟨before, after, hcs, hbefore⟩ := List.eq_append_cons_of_mem hspace
    have hafter : Spaced (words after) after := spaced_words after
    subst hcs
    by_cases hnil : before = []
    · subst hnil
      exact .space hafter
    · rw [words_append_space ⟨hnil, hbefore⟩]
      exact .word ⟨hnil, hbefore⟩ hafter
  · by_cases hnil : cs = []
    · subst hnil
      exact .nil
    · rw [words_word ⟨hnil, hspace⟩]
      exact .last ⟨hnil, hspace⟩
termination_by cs.length
decreasing_by
  rw [hcs, List.length_append, List.length_cons]
  omega

/-- **To consist of words is to be cut into them.** -/
theorem spaced_iff {tokens : List (List Char)} {cs : List Char} :
    Spaced tokens cs ↔ words cs = tokens :=
  ⟨Spaced.words_eq, fun h => h ▸ spaced_words cs⟩

/-! ## Lower case -/

theorem IsWord.lowercase {word : List Char} (h : IsWord word) : IsWord (lowercase word) :=
  ⟨fun hnil => h.ne_nil (lowercase_eq_nil_iff.1 hnil), fun hs => h.unbroken (space_mem_lowercase hs)⟩

/-- **In lower case a text consists of its words in lower case.** -/
theorem Spaced.lowercase {tokens : List (List Char)} {cs : List Char} (h : Spaced tokens cs) :
    Spaced (tokens.map RestStore.lowercase) (RestStore.lowercase cs) := by
  induction h with
  | nil => exact .nil
  | @space words cs _ ih =>
    rw [← List.nil_append (' ' :: cs), lowercase_append_space]
    exact .space ih
  | last hword => exact .last hword.lowercase
  | word hword _ ih =>
    rw [lowercase_append_space]
    exact .word hword.lowercase ih

theorem words_lowercase (cs : List Char) : words (lowercase cs) = (words cs).map lowercase :=
  (spaced_words cs).lowercase.words_eq

/-! ## Meaning -/

/-- The meaning of a phrase other than `now`, from its words in lower case. -/
def meaning (tokens : List (List Char)) (clock : Instant) : Except PhraseFault RelativeTime :=
  let future := tokens.head? == some "in".toList
  let past := tokens.getLast? == some "ago".toList
  if !future && !past then .error .missingDirection
  else if future && past then .error .conflictingDirection
  else
    match offset (if future then tokens.drop 1 else tokens.dropLast) with
    | .error fault => .error fault
    | .ok seconds => shift clock (if future then .future else .past) seconds

/-- The text is `now`, with nothing around it. -/
def IsNow (text : String) : Prop := lowercase text.toList = "now".toList

instance (text : String) : Decidable (IsNow text) :=
  inferInstanceAs (Decidable (lowercase text.toList = "now".toList))

theorem resolve_of_now {text : String} (h : IsNow text) (clock : Instant) :
    resolve text clock = .ok ⟨.present, clock⟩ := by
  unfold resolve
  exact if_pos h

/-- **What the words of a phrase decide**: everything, unless it is `now`. -/
theorem resolve_eq {text : String} (h : ¬IsNow text) (clock : Instant) :
    resolve text clock = meaning (words (lowercase text.toList)) clock := by
  unfold resolve
  exact if_neg h

/-- The word `now` alone has no meaning by its words. -/
theorem meaning_now (clock : Instant) : meaning ["now".toList] clock = .error .missingDirection :=
  rfl

/-- Of two phrases with the same words, `now` alone is the clock's time, and the other has no
meaning: the only words that `now` shares with another text are its own. -/
theorem resolve_beside_now {tokens : List (List Char)} {now other : String}
    (hnow : Spaced tokens (lowercase now.toList)) (hother : Spaced tokens (lowercase other.toList))
    (hin : IsNow now) (hout : ¬IsNow other) (clock : Instant) :
    resolve now clock = .ok ⟨.present, clock⟩ ∧
      resolve other clock = .error .missingDirection := by
  refine ⟨resolve_of_now hin clock, ?_⟩
  have htokens : tokens = ["now".toList] := by
    rw [← hnow.words_eq, hin]
    rfl
  rw [resolve_eq hout, hother.words_eq, htokens, meaning_now]

/-- **Phrases with the same words** in lower case have the same meaning, unless one is `now` and the
other has spaces around it: then the first is the clock's time, and the second has no meaning. -/
theorem resolve_of_same_words {tokens : List (List Char)} {first second : String}
    (hfirst : Spaced tokens (lowercase first.toList))
    (hsecond : Spaced tokens (lowercase second.toList)) (clock : Instant) :
    (resolve first clock = resolve second clock ↔ (IsNow first ↔ IsNow second)) ∧
      (IsNow first → ¬IsNow second → resolve first clock = .ok ⟨.present, clock⟩ ∧
        resolve second clock = .error .missingDirection) := by
  refine ⟨?_, fun hf hs => resolve_beside_now hfirst hsecond hf hs clock⟩
  by_cases hf : IsNow first <;> by_cases hs : IsNow second
  · rw [resolve_of_now hf, resolve_of_now hs]
    exact iff_of_true rfl (iff_of_true hf hs)
  · obtain ⟨hpresent, hmissing⟩ := resolve_beside_now hfirst hsecond hf hs clock
    rw [hpresent, hmissing]
    exact iff_of_false nofun fun h => hs (h.1 hf)
  · obtain ⟨hpresent, hmissing⟩ := resolve_beside_now hsecond hfirst hs hf clock
    rw [hpresent, hmissing]
    exact iff_of_false nofun fun h => hf (h.2 hs)
  · rw [resolve_eq hf, resolve_eq hs, hfirst.words_eq, hsecond.words_eq]
    exact iff_of_true rfl (iff_of_false hf hs)

/-- A clock at noon of 10 March 2024. -/
def marchNoon : Instant := ⟨1710072000, 0⟩

theorem resolve_of_same_words_twelve :
    Spaced ["in".toList, "12".toList, "d".toList] (lowercase "  IN 12   D ".toList) ∧
      Spaced ["in".toList, "12".toList, "d".toList] (lowercase "in 12 d".toList) ∧
      resolve "  IN 12   D " marchNoon = resolve "in 12 d" marchNoon := by
  have hfirst : Spaced ["in".toList, "12".toList, "d".toList] (lowercase "  IN 12   D ".toList) :=
    spaced_iff.2 (by decide)
  have hsecond : Spaced ["in".toList, "12".toList, "d".toList] (lowercase "in 12 d".toList) :=
    spaced_iff.2 (by decide)
  obtain ⟨hsame, -⟩ := resolve_of_same_words hfirst hsecond marchNoon
  exact ⟨hfirst, hsecond, hsame.2 (iff_of_false (by decide) (by decide))⟩

/-- Spaces around `now` are not ignored: they leave the phrase without a meaning. -/
theorem now_among_spaces :
    Spaced ["now".toList] (lowercase "now".toList) ∧
      Spaced ["now".toList] (lowercase " now ".toList) ∧
      resolve "now" marchNoon = .ok ⟨.present, marchNoon⟩ ∧
      resolve " now " marchNoon = .error .missingDirection :=
  ⟨spaced_iff.2 (by decide), spaced_iff.2 (by decide), rfl, rfl⟩

end RestStore.Phrase
