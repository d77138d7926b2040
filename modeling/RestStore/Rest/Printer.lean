import RestStore.Double.Layout
import RestStore.Rest.Basic

/-!
# Compact JSON

The text of a REST value inside messages: no white space, members in their order. Strings escape
the quote, the backslash and the control characters, and nothing else.
-/

set_option autoImplicit false

namespace RestStore

/-- The text of a number. -/
def Number.compact : Number → String
  | integer value => toString value
  | double value => value.compact

namespace Rest

/-- A character inside a quoted string. -/
def escapeChar (c : Char) : List Char :=
  if c = '"' then ['\\', '"']
  else if c = '\\' then ['\\', '\\']
  else if c = '\n' then ['\\', 'n']
  else if c = '\r' then ['\\', 'r']
  else if c = '\t' then ['\\', 't']
  else if c = '\x08' then ['\\', 'b']
  else if c = '\x0c' then ['\\', 'f']
  else if c.toNat < 0x20 then
    ['\\', 'u', '0', '0', Nat.digitChar (c.toNat / 16), Nat.digitChar (c.toNat % 16)]
  else [c]

/-- A quoted string. -/
def quote (text : String) : String :=
  "\"" ++ String.ofList (text.toList.flatMap escapeChar) ++ "\""

/-- The texts with commas between them. -/
def commaJoin (texts : List String) : String := String.intercalate "," texts

mutual

/-- The compact JSON text of a value. -/
def compact : Rest → String
  | null => "null"
  | bool flag => if flag then "true" else "false"
  | number value => value.compact
  | string text => quote text
  | array items => "[" ++ commaJoin (compactItems items) ++ "]"
  | object members => "\x7b" ++ commaJoin (compactMembers members) ++ "\x7d"
termination_by structural value => value

/-- The texts of the items of an array. -/
def compactItems : List Rest → List String
  | [] => []
  | item :: rest => compact item :: compactItems rest
termination_by structural items => items

/-- The texts of the members of an object. -/
def compactMembers : List (String × Rest) → List String
  | [] => []
  | (key, value) :: rest => (quote key ++ ":" ++ compact value) :: compactMembers rest
termination_by structural members => members

end

end Rest

end RestStore
