import RestStore.Text.Base64

/-!
# Base64 both ways

A text that decodes is the text of its bytes: `encode_of_decode?`. So a byte string has no second
spelling, and binary data comes back as it was sent. And every byte string is read back from its
text: `decode?_encode`.
-/

set_option autoImplicit false

namespace RestStore.Base64

/-- A letter stands for six bits, and is the letter of them. -/
theorem letter_of_sextet? {c : Char} {n : Nat} (h : sextet? c = some n) :
    n < 64 ∧ letter n = c := by
  have bounds : ∀ {low high : Char}, low ≤ c ∧ c ≤ high →
      low.toNat ≤ c.toNat ∧ c.toNat ≤ high.toNat := fun hc =>
    ⟨by simpa [Char.le_def, UInt32.le_iff_toNat_le] using hc.1,
      by simpa [Char.le_def, UInt32.le_iff_toNat_le] using hc.2⟩
  unfold sextet? at h
  unfold letter
  split at h
  · rename_i hc
    have ⟨hlow, hhigh⟩ := bounds hc
    have hA : 'A'.toNat = 65 := rfl
    have hZ : 'Z'.toNat = 90 := rfl
    cases h
    refine ⟨by omega, ?_⟩
    rw [if_pos (by omega), show 'A'.toNat + (c.toNat - 'A'.toNat) = c.toNat by omega]
    exact Char.ofNat_toNat c
  split at h
  · rename_i hc
    have ⟨hlow, hhigh⟩ := bounds hc
    have ha : 'a'.toNat = 97 := rfl
    have hz : 'z'.toNat = 122 := rfl
    cases h
    refine ⟨by omega, ?_⟩
    rw [if_neg (by omega), if_pos (by omega),
      show 'a'.toNat + (c.toNat - 'a'.toNat + 26 - 26) = c.toNat by omega]
    exact Char.ofNat_toNat c
  split at h
  · rename_i hc
    have ⟨hlow, hhigh⟩ := bounds hc
    have h0 : '0'.toNat = 48 := rfl
    have h9 : '9'.toNat = 57 := rfl
    cases h
    refine ⟨by omega, ?_⟩
    rw [if_neg (by omega), if_neg (by omega), if_pos (by omega),
      show '0'.toNat + (c.toNat - '0'.toNat + 52 - 52) = c.toNat by omega]
    exact Char.ofNat_toNat c
  split at h
  · rename_i hc
    cases h
    exact ⟨by decide, hc.symm⟩
  split at h
  · rename_i hc
    cases h
    exact ⟨by decide, hc.symm⟩
  · cases h

/-! ## Groups -/

theorem encode_of_oneByte? {w x : Nat} {bytes : List UInt8} (hw : w < 64) (hx : x < 64)
    (h : oneByte? w x = some bytes) : encode bytes = [letter w, letter x, '=', '='] := by
  unfold oneByte? at h
  split at h
  · cases h
    have ha : (UInt8.ofNat (w * 4 + x / 16)).toNat = w * 4 + x / 16 := by
      rw [UInt8.toNat_ofNat']
      omega
    simp only [encode, ha]
    rw [show (w * 4 + x / 16) / 4 = w by omega, show (w * 4 + x / 16) % 4 * 16 = x by omega]
  · cases h

theorem encode_of_twoBytes? {w x y : Nat} {bytes : List UInt8} (hw : w < 64) (hx : x < 64)
    (hy : y < 64) (h : twoBytes? w x y = some bytes) :
    encode bytes = [letter w, letter x, letter y, '='] := by
  unfold twoBytes? at h
  split at h
  · cases h
    have ha : (UInt8.ofNat (w * 4 + x / 16)).toNat = w * 4 + x / 16 := by
      rw [UInt8.toNat_ofNat']
      omega
    have hb : (UInt8.ofNat (x % 16 * 16 + y / 4)).toNat = x % 16 * 16 + y / 4 := by
      rw [UInt8.toNat_ofNat']
      omega
    simp only [encode, ha, hb]
    rw [show (w * 4 + x / 16) / 4 = w by omega,
      show (w * 4 + x / 16) % 4 * 16 + (x % 16 * 16 + y / 4) / 16 = x by omega,
      show (x % 16 * 16 + y / 4) % 16 * 4 = y by omega]
  · cases h

theorem encode_threeBytes {w x y z : Nat} (bytes : List UInt8) (hw : w < 64) (hx : x < 64)
    (hy : y < 64) (hz : z < 64) :
    encode (UInt8.ofNat (w * 4 + x / 16) :: UInt8.ofNat (x % 16 * 16 + y / 4) ::
        UInt8.ofNat (y % 4 * 64 + z) :: bytes) =
      letter w :: letter x :: letter y :: letter z :: encode bytes := by
  have ha : (UInt8.ofNat (w * 4 + x / 16)).toNat = w * 4 + x / 16 := by
    rw [UInt8.toNat_ofNat']
    omega
  have hb : (UInt8.ofNat (x % 16 * 16 + y / 4)).toNat = x % 16 * 16 + y / 4 := by
    rw [UInt8.toNat_ofNat']
    omega
  have hc : (UInt8.ofNat (y % 4 * 64 + z)).toNat = y % 4 * 64 + z := by
    rw [UInt8.toNat_ofNat']
    omega
  simp only [encode, ha, hb, hc]
  rw [show (w * 4 + x / 16) / 4 = w by omega,
    show (w * 4 + x / 16) % 4 * 16 + (x % 16 * 16 + y / 4) / 16 = x by omega,
    show (x % 16 * 16 + y / 4) % 16 * 4 + (y % 4 * 64 + z) / 64 = y by omega,
    show (y % 4 * 64 + z) % 64 = z by omega]

/-- **A text that decodes is the text of its bytes.** -/
theorem encode_of_decode? {cs : List Char} {bytes : List UInt8} (h : decode? cs = some bytes) :
    encode bytes = cs := by
  fun_induction decode? cs generalizing bytes with
  | case1 =>
    cases h
    rfl
  | case2 a b =>
    obtain ⟨w, ha, h⟩ := Option.bind_eq_some_iff.1 h
    obtain ⟨x, hb, h⟩ := Option.bind_eq_some_iff.1 h
    have ⟨hw, hwa⟩ := letter_of_sextet? ha
    have ⟨hx, hxb⟩ := letter_of_sextet? hb
    rw [encode_of_oneByte? hw hx h, hwa, hxb]
  | case3 a b c =>
    obtain ⟨w, ha, h⟩ := Option.bind_eq_some_iff.1 h
    obtain ⟨x, hb, h⟩ := Option.bind_eq_some_iff.1 h
    obtain ⟨y, hc, h⟩ := Option.bind_eq_some_iff.1 h
    have ⟨hw, hwa⟩ := letter_of_sextet? ha
    have ⟨hx, hxb⟩ := letter_of_sextet? hb
    have ⟨hy, hyc⟩ := letter_of_sextet? hc
    rw [encode_of_twoBytes? hw hx hy h, hwa, hxb, hyc]
  | case4 a b c d rest _ _ ih =>
    obtain ⟨w, ha, h⟩ := Option.bind_eq_some_iff.1 h
    obtain ⟨x, hb, h⟩ := Option.bind_eq_some_iff.1 h
    obtain ⟨y, hc, h⟩ := Option.bind_eq_some_iff.1 h
    obtain ⟨z, hd, h⟩ := Option.bind_eq_some_iff.1 h
    obtain ⟨more, hrest, h⟩ := Option.bind_eq_some_iff.1 h
    have ⟨hw, hwa⟩ := letter_of_sextet? ha
    have ⟨hx, hxb⟩ := letter_of_sextet? hb
    have ⟨hy, hyc⟩ := letter_of_sextet? hc
    have ⟨hz, hzd⟩ := letter_of_sextet? hd
    cases h
    rw [encode_threeBytes more hw hx hy hz, ih hrest, hwa, hxb, hyc, hzd]
  | case5 => cases h

/-! ## Decoding what was encoded -/

theorem sextet?_letter_all : ∀ n < 64, sextet? (letter n) = some n := by decide

/-- A six-bit number has a letter that stands for it. -/
theorem sextet?_letter {n : Nat} (h : n < 64) : sextet? (letter n) = some n :=
  sextet?_letter_all n h

/-- No letter is a padding mark. -/
theorem letter_ne_padding {n : Nat} (h : n < 64) : letter n ≠ '=' := by
  intro he
  have hsextet := sextet?_letter h
  rw [he] at hsextet
  cases hsextet

theorem decode?_oneByte {w x : Nat} (hw : w < 64) (hx : x < 64) :
    decode? [letter w, letter x, '=', '='] = oneByte? w x := by
  rw [decode?, sextet?_letter hw, sextet?_letter hx]
  rfl

theorem decode?_twoBytes {w x y : Nat} (hw : w < 64) (hx : x < 64) (hy : y < 64) :
    decode? [letter w, letter x, letter y, '='] = twoBytes? w x y := by
  rw [decode?, sextet?_letter hw, sextet?_letter hx, sextet?_letter hy]
  · rfl
  · exact letter_ne_padding hy

theorem decode?_threeBytes {w x y z : Nat} (hw : w < 64) (hx : x < 64) (hy : y < 64)
    (hz : z < 64) (rest : List Char) :
    decode? (letter w :: letter x :: letter y :: letter z :: rest) =
      (decode? rest).map fun bytes => UInt8.ofNat (w * 4 + x / 16) ::
        UInt8.ofNat (x % 16 * 16 + y / 4) :: UInt8.ofNat (y % 4 * 64 + z) :: bytes := by
  rw [decode?, sextet?_letter hw, sextet?_letter hx, sextet?_letter hy, sextet?_letter hz]
  · cases decode? rest <;> rfl
  · intro _ he
    exact absurd he (letter_ne_padding hz)
  · intro he
    exact absurd he (letter_ne_padding hz)

/-- **A byte string is read back from its text.** -/
theorem decode?_encode (bytes : List UInt8) : decode? (encode bytes) = some bytes := by
  fun_induction encode bytes with
  | case1 => rfl
  | case2 a =>
    have ha := a.toNat_lt
    rw [decode?_oneByte (by omega) (by omega), oneByte?, if_pos (by omega),
      show a.toNat / 4 * 4 + a.toNat % 4 * 16 / 16 = a.toNat by omega, UInt8.ofNat_toNat]
  | case3 a b =>
    have ha := a.toNat_lt
    have hb := b.toNat_lt
    rw [decode?_twoBytes (by omega) (by omega) (by omega), twoBytes?, if_pos (by omega),
      show a.toNat / 4 * 4 + (a.toNat % 4 * 16 + b.toNat / 16) / 16 = a.toNat by omega,
      show (a.toNat % 4 * 16 + b.toNat / 16) % 16 * 16 + b.toNat % 16 * 4 / 4 = b.toNat by omega,
      UInt8.ofNat_toNat, UInt8.ofNat_toNat]
  | case4 a b c rest ih =>
    have ha := a.toNat_lt
    have hb := b.toNat_lt
    have hc := c.toNat_lt
    rw [decode?_threeBytes (by omega) (by omega) (by omega) (by omega), ih, Option.map_some,
      show a.toNat / 4 * 4 + (a.toNat % 4 * 16 + b.toNat / 16) / 16 = a.toNat by omega,
      show (a.toNat % 4 * 16 + b.toNat / 16) % 16 * 16 + (b.toNat % 16 * 4 + c.toNat / 64) / 4 =
        b.toNat by omega,
      show (b.toNat % 16 * 4 + c.toNat / 64) % 4 * 64 + c.toNat % 64 = c.toNat by omega,
      UInt8.ofNat_toNat, UInt8.ofNat_toNat, UInt8.ofNat_toNat]

end RestStore.Base64
