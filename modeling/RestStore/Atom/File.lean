import RestStore.Atom.Fields
import RestStore.Native.Basic

/-!
# Files

A file as a tagged object with its name and perhaps a url, and as its stored name. The url is not
stored.
-/

set_option autoImplicit false

namespace RestStore

/-- A reference to an uploaded file. -/
structure File where
  name : String
  url : Option String
deriving DecidableEq, Repr

namespace File

/-- The kind of the envelope. -/
def kind : String := "File"

/-- The url of an envelope, which may be left out or null. -/
def urlOfRest : Option Rest → Except Failure (Option String)
  | none | some .null => .ok none
  | some (.string url) => .ok (some url)
  | some _ => .error (.atom .badFileUrl)

def ofEnvelope (members : Fields Rest) : Except Failure File :=
  match Envelope.text kind members "name" with
  | .error failure => .error failure
  | .ok name => (urlOfRest (Fields.get? members "url")).map fun url => ⟨name, url⟩

def toEnvelope (file : File) : Rest :=
  .tagged kind (("name", .string file.name) ::
    match file.url with
    | none => []
    | some url => [("url", .string url)])

def toNative (file : File) : Native := .string file.name

def ofNative? : Native → Option File
  | .string name => some ⟨name, none⟩
  | _ => none

end File

end RestStore
