/-!
# Beginnings and ends of texts

What is left of a text after a given beginning or before a given end.
-/

set_option autoImplicit false

namespace RestStore

/-- What follows a beginning. -/
def dropStart? (start text : String) : Option String :=
  (start.toList.isPrefixOf? text.toList).map String.ofList

/-- What precedes an end. -/
def dropEnd? (finish text : String) : Option String :=
  (finish.toList.isSuffixOf? text.toList).map String.ofList

/-- Whether a text has a beginning. -/
def hasStart (start text : String) : Bool := (dropStart? start text).isSome

example : dropStart? "_p_" "_p_author" = some "author" := by decide
example : dropEnd? ".id" "github.id" = some "github" := by decide
example : dropStart? "_p_" "author" = none := by decide

end RestStore
