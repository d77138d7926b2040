import RestStore.Native.Basic
import RestStore.Failure

/-!
# Text searches

The operand of `$text`: a search with a term, and optionally a language and two flags. Options that
count as not given are left out.
-/

set_option autoImplicit false

namespace RestStore.Constraint

/-- The term of a search. -/
def term (search : Fields Rest) : Except Failure String :=
  match Fields.get? search "$term" with
  | some (.string term) =>
    if term.isEmpty then .error (.constraint (.text .term)) else .ok term
  | _ => .error (.constraint (.text .term))

/-- An option of a search that is given. -/
def given? (search : Fields Rest) (key : String) : Option Rest :=
  (Fields.get? search key).filter Rest.isTruthy

/-- The language of a search. -/
def language (search : Fields Rest) : Except Failure Document :=
  match given? search "$language" with
  | none => .ok []
  | some (.string language) => .ok [("$language", .string language)]
  | some _ => .error (.constraint (.text .language))

/-- A flag of a search. -/
def searchFlag (search : Fields Rest) (key : String) : Except Failure Document :=
  match given? search key with
  | none => .ok []
  | some (.bool flag) => .ok [(key, .bool flag)]
  | some _ => .error (.constraint (.text (.flag key)))

/-- The operand of `$text`. -/
def textSearch (operand : Rest) : Except Failure Document :=
  match operand.get? "$search" with
  | some (.object search) => do
    let term ← term search
    let language ← language search
    let caseFlag ← searchFlag search "$caseSensitive"
    let diacriticFlag ← searchFlag search "$diacriticSensitive"
    pure (("$search", .string term) :: (language ++ caseFlag ++ diacriticFlag))
  | _ => .error (.constraint (.text .search))

end RestStore.Constraint
