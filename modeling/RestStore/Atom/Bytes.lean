import RestStore.Atom.Fields
import RestStore.Native.Basic
import RestStore.Text.Base64

/-!
# Binary data

Bytes as a tagged object with their base64 text, and as a stored binary value. Some documents hold
the base64 text itself; such a text is read as it stands and never written.
-/

set_option autoImplicit false

namespace RestStore

/-- Binary data by its base64 text. -/
structure Bytes where
  base64 : String
deriving DecidableEq, Repr

/-- The two stored forms of binary data. -/
inductive StoredBytes where
  | wrapped (bytes : List UInt8)
  | literal (text : String)
deriving DecidableEq, Repr

namespace StoredBytes

/-- The binary data that a stored value holds. -/
def ofNative? : Native → Option StoredBytes
  | .binary bytes _ => some (wrapped bytes)
  | .string text => if Base64.looksLike text then some (literal text) else none
  | _ => none

/-- The base64 text of stored data. -/
def base64 : StoredBytes → String
  | wrapped bytes => String.ofList (Base64.encode bytes)
  | literal text => text

end StoredBytes

namespace Bytes

/-- The kind of the envelope. -/
def kind : String := "Bytes"

/-- The data itself. -/
def payload (bytes : Bytes) : Except Failure (List UInt8) :=
  match Base64.decode? bytes.base64.toList with
  | some payload => .ok payload
  | none => .error (.atom .unreadableBase64)

def ofEnvelope (members : Fields Rest) : Except Failure Bytes :=
  match Envelope.text kind members "base64" with
  | .error failure => .error failure
  | .ok text => (payload ⟨text⟩).map fun _ => ⟨text⟩

def toEnvelope (bytes : Bytes) : Rest := .tagged kind [("base64", .string bytes.base64)]

/-- A stored binary value of the generic subtype. -/
def toNative (bytes : Bytes) : Except Failure Native :=
  (payload bytes).map fun payload => .binary payload 0

def ofNative? (native : Native) : Option Bytes :=
  (StoredBytes.ofNative? native).map fun stored => ⟨stored.base64⟩

end Bytes

end RestStore
