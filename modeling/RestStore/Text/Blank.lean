/-!
# White space

The characters with the Unicode property White_Space, and trimming by it.
-/

set_option autoImplicit false

namespace RestStore

/-- The ranges of White_Space characters. -/
def blankRanges : List (Nat × Nat) :=
  [(0x9, 0xD), (0x20, 0x20), (0x85, 0x85), (0xA0, 0xA0), (0x1680, 0x1680), (0x2000, 0x200A),
    (0x2028, 0x2029), (0x202F, 0x202F), (0x205F, 0x205F), (0x3000, 0x3000)]

/-- Whether a character is white space. -/
def isBlank (c : Char) : Bool :=
  blankRanges.any fun range => decide (range.1 ≤ c.toNat ∧ c.toNat ≤ range.2)

/-- A text without its leading white space. -/
def trimStart (cs : List Char) : List Char := cs.dropWhile isBlank

/-- A text without its leading and trailing white space. -/
def trim (cs : List Char) : List Char :=
  ((trimStart cs).reverse.dropWhile isBlank).reverse

/-- There are twenty-five of them. -/
example : (blankRanges.map fun range => range.2 + 1 - range.1).sum = 25 := by decide

end RestStore
