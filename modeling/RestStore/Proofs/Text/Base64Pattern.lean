import Mathlib.Computability.RegularExpressions
import RestStore.Proofs.Text.Base64Shape

/-!
# The pattern of base64

The shape test is meant to decide a regular expression: groups of four letters, then at the end two
letters with two padding marks, or three letters with one, or nothing. `pattern` is that expression,
and `looksLike_iff_matches` says that the test accepts the texts it matches and no others, whatever
characters they hold and wherever their padding marks stand.

* `mem_range`, `mem_letterClass`, `mem_letters` — what a class of characters matches, and a class
  repeated.
* `mem_pattern_of_shaped`, `shaped_of_mem_pattern` — the pattern takes its groups from the front, as
  the shape does.
-/

set_option autoImplicit false

namespace RestStore.Base64

open RegularExpression

/-- Any one of the characters. -/
def oneOf (chars : List Char) : RegularExpression Char :=
  chars.foldr (fun c later => char c + later) 0

/-- Any one character from `low` to `high`. -/
def range (low high : Char) : RegularExpression Char :=
  oneOf ((List.range (high.toNat + 1 - low.toNat)).map fun i => Char.ofNat (low.toNat + i))

/-- A letter of the alphabet: `[A-Za-z0-9+/]`. -/
def letterClass : RegularExpression Char :=
  range 'A' 'Z' + range 'a' 'z' + range '0' '9' + char '+' + char '/'

/-- The groups of four letters: `(?:[A-Za-z0-9+/]{4})*`. -/
def groups : RegularExpression Char := star (letterClass ^ 4)

/-- The padded last group, or nothing: `(?:[A-Za-z0-9+/]{2}==|[A-Za-z0-9+/]{3}=)?`. -/
def lastGroup : RegularExpression Char :=
  letterClass ^ 2 * (char '=' * char '=') + letterClass ^ 3 * char '=' + 1

/-- The pattern of a base64 text. -/
def pattern : RegularExpression Char := groups * lastGroup

/-! ## Classes of characters -/

theorem mem_oneOf {chars cs : List Char} :
    cs ∈ (oneOf chars).matches' ↔ ∃ c ∈ chars, cs = [c] := by
  induction chars with
  | nil => exact iff_of_false (Set.notMem_empty cs) (by simp)
  | cons d chars ih =>
    show cs ∈ (char d).matches' + (oneOf chars).matches' ↔ _
    rw [Language.mem_add, ih, matches'_char, List.exists_mem_cons_iff]
    rfl

/-- The character of a code below the surrogates has that code. -/
theorem toNat_ofNat {n : Nat} (h : n < 55296) : (Char.ofNat n).toNat = n := by
  unfold Char.ofNat
  rw [dif_pos (.inl h)]
  rfl

/-- **A range of characters** below the surrogates matches the characters between its ends. -/
theorem mem_range {low high : Char} (hhigh : high.toNat < 55296) {cs : List Char} :
    cs ∈ (range low high).matches' ↔ ∃ c, (low ≤ c ∧ c ≤ high) ∧ cs = [c] := by
  have hle : ∀ c d : Char, c ≤ d ↔ c.toNat ≤ d.toNat := fun c d => by
    rw [Char.le_def, UInt32.le_iff_toNat_le]
    rfl
  have hclass : ∀ c, (c ∈ (List.range (high.toNat + 1 - low.toNat)).map fun i =>
      Char.ofNat (low.toNat + i)) ↔ low ≤ c ∧ c ≤ high := by
    intro c
    rw [List.mem_map, hle, hle]
    constructor
    · rintro ⟨i, hi, rfl⟩
      rw [List.mem_range] at hi
      rw [toNat_ofNat (by omega)]
      omega
    · rintro ⟨hlow, hhigh⟩
      refine ⟨c.toNat - low.toNat, List.mem_range.2 (by omega), ?_⟩
      rw [Nat.add_sub_cancel' hlow, Char.ofNat_toNat]
  rw [range, mem_oneOf]
  simp only [hclass]

/-- The letters are those of the class. -/
theorem isLetter_iff_ranges {c : Char} : isLetter c = true ↔
    ('A' ≤ c ∧ c ≤ 'Z') ∨ ('a' ≤ c ∧ c ≤ 'z') ∨ ('0' ≤ c ∧ c ≤ '9') ∨ c = '+' ∨ c = '/' := by
  unfold isLetter sextet?
  split_ifs <;> simp_all

theorem mem_letterClass {cs : List Char} :
    cs ∈ letterClass.matches' ↔ ∃ c, isLetter c = true ∧ cs = [c] := by
  have hupper : 'Z'.toNat < 55296 := by decide
  have hlower : 'z'.toNat < 55296 := by decide
  have hdigit : '9'.toNat < 55296 := by decide
  simp only [letterClass, matches'_add, matches'_char, Language.mem_add, mem_range hupper,
    mem_range hlower, mem_range hdigit, isLetter_iff_ranges, or_and_right, exists_or, or_assoc,
    exists_eq_left]
  rfl

/-- **The class repeated** matches as many letters. -/
theorem mem_letters {count : Nat} {cs : List Char} : cs ∈ (letterClass ^ count).matches' ↔
    cs.length = count ∧ ∀ c ∈ cs, isLetter c = true := by
  rw [matches'_pow]
  induction count generalizing cs with
  | zero =>
    rw [pow_zero, Language.mem_one, List.length_eq_zero_iff]
    exact ⟨fun h => ⟨h, by simp [h]⟩, And.left⟩
  | succ count ih =>
    rw [pow_succ', Language.mem_mul]
    constructor
    · rintro ⟨_, hfirst, rest, hrest, rfl⟩
      obtain ⟨c, hc, rfl⟩ := mem_letterClass.1 hfirst
      obtain ⟨hlength, hletters⟩ := ih.1 hrest
      exact ⟨by rw [List.singleton_append, List.length_cons, hlength],
        List.forall_mem_cons.2 ⟨hc, hletters⟩⟩
    · rintro ⟨hlength, hletters⟩
      cases cs with
      | nil => cases hlength
      | cons c rest =>
        obtain ⟨hc, hrest⟩ := List.forall_mem_cons.1 hletters
        exact ⟨[c], mem_letterClass.2 ⟨c, hc, rfl⟩, rest, ih.2 ⟨by simpa using hlength, hrest⟩, rfl⟩

/-! ## Groups -/

/-- The last group alone is a text of the pattern. -/
theorem mem_pattern_of_lastGroup {cs : List Char} (h : cs ∈ lastGroup.matches') :
    cs ∈ pattern.matches' :=
  Language.mem_mul.2 ⟨[], Language.nil_mem_kstar _, cs, h, rfl⟩

/-- The pattern takes one more group in front. -/
theorem append_mem_pattern {group rest : List Char} (hgroup : group ∈ (letterClass ^ 4).matches')
    (hrest : rest ∈ pattern.matches') : group ++ rest ∈ pattern.matches' := by
  obtain ⟨_, hgroups, tail, htail, rfl⟩ := Language.mem_mul.1 hrest
  obtain ⟨texts, rfl, htexts⟩ := Language.mem_kstar.1 hgroups
  refine Language.mem_mul.2 ⟨(group :: texts).flatten, ?_, tail, htail, ?_⟩
  · exact Language.mem_kstar.2 ⟨group :: texts, rfl, List.forall_mem_cons.2 ⟨hgroup, htexts⟩⟩
  · rw [List.flatten_cons, List.append_assoc]

/-- A text of the shape is one of the pattern: its first groups are taken one by one. -/
theorem mem_pattern_of_shaped {cs : List Char} (h : Shaped cs) : cs ∈ pattern.matches' := by
  induction h with
  | nil => exact mem_pattern_of_lastGroup (.inr rfl)
  | @oneByte a b ha hb =>
    have hletters : [a, b] ∈ (letterClass ^ 2).matches' := mem_letters.2 ⟨rfl, by simp [ha, hb]⟩
    exact mem_pattern_of_lastGroup (.inl (.inl ⟨_, hletters, _, ⟨_, rfl, _, rfl, rfl⟩, rfl⟩))
  | @twoBytes a b c ha hb hc =>
    have hletters : [a, b, c] ∈ (letterClass ^ 3).matches' :=
      mem_letters.2 ⟨rfl, by simp [ha, hb, hc]⟩
    exact mem_pattern_of_lastGroup (.inl (.inr ⟨_, hletters, _, rfl, rfl⟩))
  | @threeBytes a b c d rest ha hb hc hd _ ih =>
    have hletters : [a, b, c, d] ∈ (letterClass ^ 4).matches' :=
      mem_letters.2 ⟨rfl, by simp [ha, hb, hc, hd]⟩
    exact append_mem_pattern hletters ih

/-- The last group is two letters and two padding marks, three letters and one, or nothing. -/
theorem shaped_of_mem_lastGroup {cs : List Char} (h : cs ∈ lastGroup.matches') : Shaped cs := by
  obtain (⟨letters, hletters, _, ⟨_, rfl, _, rfl, rfl⟩, rfl⟩ | ⟨letters, hletters, _, rfl, rfl⟩) |
    rfl := h
  · obtain ⟨hlength, hall⟩ := mem_letters.1 hletters
    have hshaped : Shaped (letters ++ List.replicate 2 '=') :=
      shaped_padded hall (by omega) (by omega)
    exact hshaped
  · obtain ⟨hlength, hall⟩ := mem_letters.1 hletters
    have hshaped : Shaped (letters ++ List.replicate 1 '=') :=
      shaped_padded hall (by omega) (by omega)
    exact hshaped
  · exact .nil

/-- A group before a text of the shape leaves it one. -/
theorem shaped_append {group rest : List Char} (hgroup : group ∈ (letterClass ^ 4).matches')
    (hrest : Shaped rest) : Shaped (group ++ rest) := by
  obtain ⟨hlength, hall⟩ := mem_letters.1 hgroup
  obtain ⟨a, b, c, d, rfl⟩ := List.length_eq_four.1 hlength
  simp only [List.forall_mem_cons] at hall
  obtain ⟨ha, hb, hc, hd, -⟩ := hall
  exact .threeBytes ha hb hc hd hrest

/-- A text of the pattern has the shape, by induction on its groups. -/
theorem shaped_of_mem_pattern {cs : List Char} (h : cs ∈ pattern.matches') : Shaped cs := by
  obtain ⟨_, hgroups, tail, htail, rfl⟩ := Language.mem_mul.1 h
  obtain ⟨texts, rfl, htexts⟩ := Language.mem_kstar.1 hgroups
  clear h hgroups
  induction texts with
  | nil => exact shaped_of_mem_lastGroup htail
  | cons group texts ih =>
    obtain ⟨hgroup, hothers⟩ := List.forall_mem_cons.1 htexts
    rw [List.flatten_cons, List.append_assoc]
    exact shaped_append hgroup (ih hothers)

/-- **The shape test decides the pattern**: it accepts a text exactly when the whole of it matches
the regular expression. -/
theorem looksLike_iff_matches (text : String) :
    looksLike text = true ↔ text.toList ∈ pattern.matches' :=
  looksLike_iff_shaped.trans ⟨mem_pattern_of_shaped, shaped_of_mem_pattern⟩

end RestStore.Base64
