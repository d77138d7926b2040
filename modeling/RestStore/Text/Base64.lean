/-!
# Base64

The standard alphabet with required padding and nothing else: no white space, no line breaks, and
the bits that a padded last group leaves unused must be zero, so every byte string has one text.

* `Base64.encode`, `Base64.decode?`: groups of three bytes and of four letters.
* `Base64.looksLike` is a shape test only: a length divisible by four, letters, and at most two
  padding marks at the end. It does not look at the unused bits.
-/

set_option autoImplicit false

namespace RestStore.Base64

/-- The six bits that a letter stands for. -/
def sextet? (c : Char) : Option Nat :=
  if 'A' ≤ c ∧ c ≤ 'Z' then some (c.toNat - 'A'.toNat)
  else if 'a' ≤ c ∧ c ≤ 'z' then some (c.toNat - 'a'.toNat + 26)
  else if '0' ≤ c ∧ c ≤ '9' then some (c.toNat - '0'.toNat + 52)
  else if c = '+' then some 62
  else if c = '/' then some 63
  else none

/-- The letter of a six-bit number. -/
def letter (n : Nat) : Char :=
  if n < 26 then Char.ofNat ('A'.toNat + n)
  else if n < 52 then Char.ofNat ('a'.toNat + (n - 26))
  else if n < 62 then Char.ofNat ('0'.toNat + (n - 52))
  else if n = 62 then '+'
  else '/'

/-- The text of a byte string. -/
def encode : List UInt8 → List Char
  | [] => []
  | [a] =>
    [letter (a.toNat / 4), letter (a.toNat % 4 * 16), '=', '=']
  | [a, b] =>
    [letter (a.toNat / 4), letter (a.toNat % 4 * 16 + b.toNat / 16),
      letter (b.toNat % 16 * 4), '=']
  | a :: b :: c :: rest =>
    letter (a.toNat / 4) :: letter (a.toNat % 4 * 16 + b.toNat / 16) ::
      letter (b.toNat % 16 * 4 + c.toNat / 64) :: letter (c.toNat % 64) :: encode rest

/-- A last group with two padding marks: one byte, and four unused bits. -/
def oneByte? (w x : Nat) : Option (List UInt8) :=
  if x % 16 = 0 then some [UInt8.ofNat (w * 4 + x / 16)] else none

/-- A last group with one padding mark: two bytes, and two unused bits. -/
def twoBytes? (w x y : Nat) : Option (List UInt8) :=
  if y % 4 = 0 then some [UInt8.ofNat (w * 4 + x / 16), UInt8.ofNat (x % 16 * 16 + y / 4)]
  else none

/-- The byte string that a text denotes. -/
def decode? : List Char → Option (List UInt8)
  | [] => some []
  | [a, b, '=', '='] => do oneByte? (← sextet? a) (← sextet? b)
  | [a, b, c, '='] => do twoBytes? (← sextet? a) (← sextet? b) (← sextet? c)
  | a :: b :: c :: d :: rest => do
    let w ← sextet? a
    let x ← sextet? b
    let y ← sextet? c
    let z ← sextet? d
    let bytes ← decode? rest
    pure (UInt8.ofNat (w * 4 + x / 16) :: UInt8.ofNat (x % 16 * 16 + y / 4) ::
      UInt8.ofNat (y % 4 * 64 + z) :: bytes)
  | _ => none

/-- Whether a text has the shape of base64. The length counts UTF-8 bytes. -/
def looksLike (text : String) : Bool :=
  let body := (text.toList.reverse.dropWhile (· = '=')).reverse
  let padding := text.toList.length - body.length
  text.utf8ByteSize % 4 = 0 && padding ≤ 2 && body.all fun c => (sextet? c).isSome

example : encode [77, 97] = "TWE=".toList := by decide
example : decode? "TWE=".toList = some [77, 97] := by decide
example : decode? "TWF=".toList = none := by decide

end RestStore.Base64
