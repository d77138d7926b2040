/-!
# Searching texts

The first occurrence of one text in another.
-/

set_option autoImplicit false

namespace RestStore

/-- The rest of a text from the first occurrence of another on. -/
def fromFirst? (needle : List Char) : List Char → Option (List Char)
  | [] => if needle.isEmpty then some [] else none
  | c :: rest =>
    if needle.isPrefixOf (c :: rest) then some (c :: rest) else fromFirst? needle rest

/-- Whether a text occurs in another. -/
def occursIn (needle text : List Char) : Bool := (fromFirst? needle text).isSome

end RestStore
