import RestStore.Atom.Fields
import RestStore.Calendar.Iso
import RestStore.Native.Basic

/-!
# Dates

An instant as a tagged object with its ISO text, and as a stored count of milliseconds.
-/

set_option autoImplicit false

namespace RestStore.Instant

/-- The kind of the envelope. -/
def kind : String := "Date"

/-- The instant that a text spells. -/
def ofText (text : String) : Except Failure Instant :=
  match Iso.parse? text with
  | some instant => .ok instant
  | none => .error (.atom (.unreadableDate text))

def ofEnvelope (members : Fields Rest) : Except Failure Instant :=
  match Envelope.text kind members "iso" with
  | .error failure => .error failure
  | .ok text => ofText text

def toEnvelope (instant : Instant) : Rest := .tagged kind [("iso", .string (Iso.render instant))]

def toNative (instant : Instant) : Native := .date (Int64.ofInt instant.millis)

/-- The instant of a stored count of milliseconds. -/
def ofStored (millis : Int64) : Instant := ofMillis millis.toInt

def ofNative? : Native → Option Instant
  | .date millis => some (ofStored millis)
  | _ => none

end RestStore.Instant
