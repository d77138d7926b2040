import RestStore.Atom.Fields
import RestStore.Native.Basic

/-!
# Pointers and relations

A pointer names an object of a class. Under a key of its own it is stored as its class and id with
a dollar sign between them; inside an array or object it keeps its envelope. A text is cut at its
first dollar sign, so a class whose name has none is read back exactly: `Pointer.ofText_text`.

A relation names a class only and is never stored.
-/

set_option autoImplicit false

namespace RestStore

/-- A reference to an object. -/
structure Pointer where
  className : String
  objectId : String
deriving DecidableEq, Repr

/-- Cuts a text at the first occurrence of a character. -/
def splitAtFirst (mark : Char) : List Char → Option (List Char × List Char)
  | [] => none
  | c :: rest =>
    if c = mark then some ([], rest)
    else (splitAtFirst mark rest).map fun (before, after) => (c :: before, after)

theorem splitAtFirst_append {mark : Char} {before : List Char} (after : List Char)
    (h : mark ∉ before) : splitAtFirst mark (before ++ mark :: after) = some (before, after) := by
  induction before with
  | nil => simp [splitAtFirst]
  | cons c rest ih =>
    simp only [List.mem_cons, not_or] at h
    have hc : c ≠ mark := fun e => h.1 e.symm
    simp [splitAtFirst, hc, ih h.2]

namespace Pointer

/-- The kind of the envelope. -/
def kind : String := "Pointer"

/-- The stored text of a pointer. -/
def text (pointer : Pointer) : String := pointer.className ++ "$" ++ pointer.objectId

/-- The pointer that a stored text names. -/
def ofText (text : String) : Except Failure Pointer :=
  match splitAtFirst '$' text.toList with
  | some (className, objectId) => .ok ⟨String.ofList className, String.ofList objectId⟩
  | none => .error (.decode (.badPointerText text))

theorem ofText_text (pointer : Pointer) (h : '$' ∉ pointer.className.toList) :
    ofText pointer.text = .ok pointer := by
  have cut : pointer.text.toList =
      pointer.className.toList ++ '$' :: pointer.objectId.toList := by
    simp [text]
  simp [ofText, cut, splitAtFirst_append _ h]

def ofEnvelope (members : Fields Rest) : Except Failure Pointer :=
  match Envelope.text kind members "className" with
  | .error failure => .error failure
  | .ok className =>
    match Envelope.text kind members "objectId" with
    | .error failure => .error failure
    | .ok objectId => .ok ⟨className, objectId⟩

def toEnvelope (pointer : Pointer) : Rest :=
  .tagged kind [("className", .string pointer.className), ("objectId", .string pointer.objectId)]

def toNative (pointer : Pointer) : Native := .string pointer.text

/-- A stored text is read as a pointer; other values are none. -/
def ofNative? : Native → Except Failure (Option Pointer)
  | .string text => (ofText text).map some
  | _ => .ok none

/-- The form kept inside arrays and objects. -/
def nested (pointer : Pointer) : Native :=
  .document [(typeKey, .string kind), ("className", .string pointer.className),
    ("objectId", .string pointer.objectId)]

end Pointer

/-- The set of objects of a class that an object is related to. -/
structure Relation where
  className : String
deriving DecidableEq, Repr

namespace Relation

/-- The kind of the envelope. -/
def kind : String := "Relation"

def ofEnvelope (members : Fields Rest) : Except Failure Relation :=
  (Envelope.text kind members "className").map Relation.mk

def toEnvelope (relation : Relation) : Rest :=
  .tagged kind [("className", .string relation.className)]

end Relation

end RestStore
