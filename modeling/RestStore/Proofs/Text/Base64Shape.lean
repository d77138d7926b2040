import Mathlib.Data.List.TakeWhile
import RestStore.Proofs.Text.Base64

/-!
# The shape of base64

The shape test compares a length, trims padding marks and looks at the letters that remain. What it
accepts are the texts in groups of four letters, the last one perhaps padded: `Shaped`,
`looksLike_iff_shaped`. Decoding asks for one thing more, that the bits which the padded group
leaves unused are zero: `decode?_isSome_iff`.

* `shaped_iff_padded` — a text of the shape is letters and at most two padding marks, with a length
  that four divides.
* `eq_unpadded_append`, `unpadded_append` — what trimming takes away and what it leaves.
* `shaped_encode`, `exists_decode?` — the texts of byte strings are those of the shape whose unused
  bits are zero.
-/

set_option autoImplicit false

namespace RestStore.Base64

/-- Whether a character is a letter of the alphabet. -/
def isLetter (c : Char) : Bool := (sextet? c).isSome

/-- Groups of four letters, the last one perhaps padded. -/
inductive Shaped : List Char → Prop
  | nil : Shaped []
  | oneByte {a b : Char} (ha : isLetter a = true) (hb : isLetter b = true) :
    Shaped [a, b, '=', '=']
  | twoBytes {a b c : Char} (ha : isLetter a = true) (hb : isLetter b = true)
    (hc : isLetter c = true) : Shaped [a, b, c, '=']
  | threeBytes {a b c d : Char} {rest : List Char} (ha : isLetter a = true)
    (hb : isLetter b = true) (hc : isLetter c = true) (hd : isLetter d = true)
    (hrest : Shaped rest) : Shaped (a :: b :: c :: d :: rest)

/-- The bits that a padded last group leaves unused, as a number. -/
def unusedBits : List Char → Nat
  | [_, b, '=', '='] => (sextet? b).getD 0 % 16
  | [_, _, c, '='] => (sextet? c).getD 0 % 4
  | _ :: _ :: _ :: _ :: rest => unusedBits rest
  | _ => 0

/-! ## Letters -/

theorem isLetter_iff {c : Char} : isLetter c = true ↔ ∃ n, sextet? c = some n :=
  Option.isSome_iff_exists

theorem not_isLetter_padding : isLetter '=' = false := rfl

theorem ne_padding_of_isLetter {c : Char} (h : isLetter c = true) : c ≠ '=' := by
  intro he
  rw [he, not_isLetter_padding] at h
  cases h

theorem utf8Size_letter_all : ∀ n < 64, (letter n).utf8Size = 1 := by decide

/-- A letter takes one byte. -/
theorem utf8Size_of_isLetter {c : Char} (h : isLetter c = true) : c.utf8Size = 1 := by
  obtain ⟨n, hn⟩ := isLetter_iff.1 h
  have ⟨hlt, hletter⟩ := letter_of_sextet? hn
  rw [← hletter]
  exact utf8Size_letter_all n hlt

/-- A text of characters of one byte each has as many bytes as characters. -/
theorem utf8ByteSize_ofList {cs : List Char} (h : ∀ c ∈ cs, c.utf8Size = 1) :
    (String.ofList cs).utf8ByteSize = cs.length := by
  induction cs with
  | nil => rfl
  | cons c cs ih =>
    have hc : c.utf8Size = 1 := h c List.mem_cons_self
    have later := ih fun d hd => h d (List.mem_cons_of_mem _ hd)
    rw [String.ofList_cons, String.utf8ByteSize_append, String.utf8ByteSize_singleton, hc, later,
      List.length_cons]
    omega

/-! ## Letters and padding -/

/-- Letters with at most two padding marks, in a length that four divides, have the shape. -/
theorem shaped_padded : ∀ {body : List Char} {padding : Nat}, (∀ c ∈ body, isLetter c = true) →
    padding ≤ 2 → (body.length + padding) % 4 = 0 →
      Shaped (body ++ List.replicate padding '=')
  | [], padding, _, hp, hl => by
    obtain rfl : padding = 0 := by
      simp only [List.length_nil] at hl
      omega
    exact .nil
  | [_], padding, _, hp, hl => by
    simp only [List.length_cons, List.length_nil] at hl
    omega
  | [a, b], padding, h, hp, hl => by
    obtain rfl : padding = 2 := by
      simp only [List.length_cons, List.length_nil] at hl
      omega
    exact .oneByte (h a (by simp)) (h b (by simp))
  | [a, b, c], padding, h, hp, hl => by
    obtain rfl : padding = 1 := by
      simp only [List.length_cons, List.length_nil] at hl
      omega
    exact .twoBytes (h a (by simp)) (h b (by simp)) (h c (by simp))
  | a :: b :: c :: d :: rest, padding, h, hp, hl => by
    have hrest : (rest.length + padding) % 4 = 0 := by
      simp only [List.length_cons] at hl
      omega
    exact .threeBytes (h a (by simp)) (h b (by simp)) (h c (by simp)) (h d (by simp))
      (shaped_padded (fun e he => h e (by simp [he])) hp hrest)

/-- **A text of the shape** is letters and at most two padding marks. -/
theorem shaped_iff_padded {cs : List Char} :
    Shaped cs ↔ ∃ body padding, cs = body ++ List.replicate padding '=' ∧ padding ≤ 2 ∧
      (∀ c ∈ body, isLetter c = true) ∧ (body.length + padding) % 4 = 0 := by
  constructor
  · intro h
    induction h with
    | nil => exact ⟨[], 0, rfl, by omega, by simp, rfl⟩
    | @oneByte a b ha hb => exact ⟨[a, b], 2, rfl, by omega, by simp [ha, hb], by simp⟩
    | @twoBytes a b c ha hb hc => exact ⟨[a, b, c], 1, rfl, by omega, by simp [ha, hb, hc], by simp⟩
    | @threeBytes a b c d rest ha hb hc hd _ ih =>
      obtain ⟨body, padding, rfl, hp, hbody, hl⟩ := ih
      refine ⟨a :: b :: c :: d :: body, padding, rfl, hp, ?_, ?_⟩
      · simp only [List.forall_mem_cons]
        exact ⟨ha, hb, hc, hd, hbody⟩
      · simp only [List.length_cons]
        omega
  · rintro ⟨body, padding, rfl, hp, hbody, hl⟩
    exact shaped_padded hbody hp hl

/-! ## The shape test -/

/-- A text without the padding marks at its end. -/
def unpadded (cs : List Char) : List Char := (cs.reverse.dropWhile (· = '=')).reverse

theorem unpadded_append {body : List Char} (h : ∀ c ∈ body, isLetter c = true) (padding : Nat) :
    unpadded (body ++ List.replicate padding '=') = body := by
  have hbody : body.reverse.dropWhile (· = '=') = body.reverse := by
    cases hr : body.reverse with
    | nil => rfl
    | cons last _ =>
      have hlast : last ∈ body := List.mem_reverse.1 (hr ▸ List.mem_cons_self)
      exact List.dropWhile_cons_of_neg (by simpa using ne_padding_of_isLetter (h last hlast))
  have hpadding : ∀ c ∈ List.replicate padding '=', decide (c = '=') = true := fun c hc =>
    decide_eq_true (List.eq_of_mem_replicate hc)
  unfold unpadded
  rw [List.reverse_append, List.reverse_replicate, List.dropWhile_append_of_pos hpadding, hbody,
    List.reverse_reverse]

/-- What is trimmed are padding marks. -/
theorem eq_unpadded_append (cs : List Char) :
    cs = unpadded cs ++ List.replicate (cs.length - (unpadded cs).length) '=' := by
  have hsplit : cs.reverse.takeWhile (· = '=') ++ cs.reverse.dropWhile (· = '=') = cs.reverse :=
    List.takeWhile_append_dropWhile
  have hmarks : cs.reverse.takeWhile (· = '=') =
      List.replicate (cs.reverse.takeWhile (· = '=')).length '=' := by
    refine List.eq_replicate_of_mem fun c hc => ?_
    have hc' := List.mem_takeWhile_imp (p := fun c : Char => decide (c = '=')) hc
    simpa using hc'
  have hlength : (cs.reverse.takeWhile (· = '=')).length = cs.length - (unpadded cs).length := by
    have hsum := congrArg List.length hsplit
    rw [List.length_append, List.length_reverse] at hsum
    unfold unpadded
    rw [List.length_reverse]
    omega
  calc cs
    _ = cs.reverse.reverse := cs.reverse_reverse.symm
    _ = (cs.reverse.takeWhile (· = '=') ++ cs.reverse.dropWhile (· = '=')).reverse := by rw [hsplit]
    _ = unpadded cs ++ (cs.reverse.takeWhile (· = '=')).reverse := List.reverse_append
    _ = unpadded cs ++ List.replicate (cs.length - (unpadded cs).length) '=' := by
      rw [hmarks, List.reverse_replicate, hlength]

/-- **The shape test accepts the shape**, and nothing else. -/
theorem looksLike_iff_shaped {text : String} : looksLike text = true ↔ Shaped text.toList := by
  have hsize : ∀ body padding, text.toList = body ++ List.replicate padding '=' →
      (∀ c ∈ body, isLetter c = true) → text.utf8ByteSize = body.length + padding := by
    intro body padding htext hbody
    have hone : ∀ c ∈ text.toList, c.utf8Size = 1 := by
      intro c hc
      rw [htext, List.mem_append] at hc
      rcases hc with hc | hc
      · exact utf8Size_of_isLetter (hbody c hc)
      · rw [List.eq_of_mem_replicate hc]
        rfl
    have hbytes := utf8ByteSize_ofList hone
    rw [String.ofList_toList, htext, List.length_append, List.length_replicate] at hbytes
    exact hbytes
  have htest : looksLike text = true ↔ text.utf8ByteSize % 4 = 0 ∧
      text.toList.length - (unpadded text.toList).length ≤ 2 ∧
        ∀ c ∈ unpadded text.toList, isLetter c = true := by
    simp only [looksLike, unpadded, isLetter, Bool.and_eq_true, decide_eq_true_eq, List.all_eq_true,
      and_assoc]
  rw [htest, shaped_iff_padded]
  constructor
  · rintro ⟨hl, hp, hbody⟩
    have htext := eq_unpadded_append text.toList
    rw [hsize _ _ htext hbody] at hl
    exact ⟨_, _, htext, hp, hbody, hl⟩
  · rintro ⟨body, padding, htext, hp, hbody, hl⟩
    have hunpadded : unpadded text.toList = body := by
      rw [htext, unpadded_append hbody]
    rw [hunpadded, hsize _ _ htext hbody, htext, List.length_append, List.length_replicate]
    exact ⟨hl, by omega, hbody⟩

/-! ## Decoding -/

theorem isLetter_letter {n : Nat} (h : n < 64) : isLetter (letter n) = true :=
  isLetter_iff.2 ⟨n, sextet?_letter h⟩

/-- A letter is the letter of six bits. -/
theorem exists_letter {c : Char} (h : isLetter c = true) : ∃ n < 64, c = letter n := by
  obtain ⟨n, hn⟩ := isLetter_iff.1 h
  have ⟨hlt, hletter⟩ := letter_of_sextet? hn
  exact ⟨n, hlt, hletter.symm⟩

/-- A group of four letters leaves no bits unused. -/
theorem unusedBits_threeBytes {a b c d : Char} (hd : isLetter d = true) (rest : List Char) :
    unusedBits (a :: b :: c :: d :: rest) = unusedBits rest := by
  have hne := ne_padding_of_isLetter hd
  rw [unusedBits]
  · intro _ he
    exact absurd he hne
  · intro he
    exact absurd he hne

/-- The text of a byte string has the shape, and its unused bits are zero. -/
theorem shaped_encode (bytes : List UInt8) :
    Shaped (encode bytes) ∧ unusedBits (encode bytes) = 0 := by
  fun_induction encode bytes with
  | case1 => exact ⟨.nil, rfl⟩
  | case2 a =>
    have ha := a.toNat_lt
    refine ⟨.oneByte (isLetter_letter (by omega)) (isLetter_letter (by omega)), ?_⟩
    rw [unusedBits, sextet?_letter (by omega), Option.getD_some]
    omega
  | case3 a b =>
    have ha := a.toNat_lt
    have hb := b.toNat_lt
    refine ⟨.twoBytes (isLetter_letter (by omega)) (isLetter_letter (by omega))
      (isLetter_letter (by omega)), ?_⟩
    rw [unusedBits, sextet?_letter (by omega), Option.getD_some]
    · omega
    · exact letter_ne_padding (by omega)
  | case4 a b c rest ih =>
    have ha := a.toNat_lt
    have hb := b.toNat_lt
    have hc := c.toNat_lt
    have hlast : isLetter (letter (c.toNat % 64)) = true := isLetter_letter (by omega)
    refine ⟨.threeBytes (isLetter_letter (by omega)) (isLetter_letter (by omega))
      (isLetter_letter (by omega)) hlast ih.1, ?_⟩
    rw [unusedBits_threeBytes hlast]
    exact ih.2

/-- A text of the shape decodes when its unused bits are zero. -/
theorem exists_decode? {cs : List Char} (h : Shaped cs) (hunused : unusedBits cs = 0) :
    ∃ bytes, decode? cs = some bytes := by
  induction h with
  | nil => exact ⟨[], rfl⟩
  | oneByte ha hb =>
    obtain ⟨w, hw, rfl⟩ := exists_letter ha
    obtain ⟨x, hx, rfl⟩ := exists_letter hb
    rw [unusedBits, sextet?_letter hx, Option.getD_some] at hunused
    exact ⟨_, by rw [decode?_oneByte hw hx, oneByte?, if_pos hunused]⟩
  | twoBytes ha hb hc =>
    obtain ⟨w, hw, rfl⟩ := exists_letter ha
    obtain ⟨x, hx, rfl⟩ := exists_letter hb
    obtain ⟨y, hy, rfl⟩ := exists_letter hc
    rw [unusedBits, sextet?_letter hy, Option.getD_some] at hunused
    · exact ⟨_, by rw [decode?_twoBytes hw hx hy, twoBytes?, if_pos hunused]⟩
    · exact letter_ne_padding hy
  | threeBytes ha hb hc hd _ ih =>
    rw [unusedBits_threeBytes hd] at hunused
    obtain ⟨bytes, hbytes⟩ := ih hunused
    obtain ⟨w, hw, rfl⟩ := exists_letter ha
    obtain ⟨x, hx, rfl⟩ := exists_letter hb
    obtain ⟨y, hy, rfl⟩ := exists_letter hc
    obtain ⟨z, hz, rfl⟩ := exists_letter hd
    exact ⟨_, by rw [decode?_threeBytes hw hx hy hz, hbytes, Option.map_some]⟩

/-- **A text decodes** just when it has the shape and its unused bits are zero. -/
theorem decode?_isSome_iff {cs : List Char} :
    (∃ bytes, decode? cs = some bytes) ↔ Shaped cs ∧ unusedBits cs = 0 := by
  constructor
  · rintro ⟨bytes, h⟩
    rw [← encode_of_decode? h]
    exact shaped_encode bytes
  · rintro ⟨h, hunused⟩
    exact exists_decode? h hunused

end RestStore.Base64
