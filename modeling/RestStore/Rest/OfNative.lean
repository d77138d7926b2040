import RestStore.Atom.Bytes
import RestStore.Atom.Date
import RestStore.Nesting
import RestStore.Rest.Shape
import RestStore.Text.Hex

/-!
# Reading nested values

The REST form of a stored value below the top level of a document. Dates and binary data become
their envelopes, a regular expression an object with its pattern and options, and the instant in a
stored envelope of kind `Date` its text. Each value counts as one level of nesting.
-/

set_option autoImplicit false

namespace RestStore.Rest

/-- A stored number; one without a REST form reads as null. -/
def ofNumber? (number : Option Number) : Rest :=
  match number with
  | some number => .number number
  | none => .null

/-- Whether a stored document is an envelope of kind `Date`. -/
def isStoredDate (columns : Document) : Bool :=
  (Fields.get? columns typeKey).bind Native.text? == some Instant.kind

/-- The text of the instant of a stored date. -/
def storedIso? (storedDate : Bool) (key : String) (native : Native) : Option String :=
  if storedDate && key == "iso" then (Instant.ofNative? native).map Iso.render else none

mutual

/-- A stored value below the top level. -/
def ofNative (guard : Nesting) (native : Native) : Except Failure Rest :=
  match guard.enter with
  | .error failure => .error failure
  | .ok inner =>
    match native with
    | .null => .ok .null
    | .bool flag => .ok (.bool flag)
    | .string text => .ok (.string text)
    | .int32 value => .ok (ofNumber? (Native.number? (.int32 value)))
    | .int64 value => .ok (ofNumber? (Native.number? (.int64 value)))
    | .double value => .ok (ofNumber? (Native.number? (.double value)))
    | .array items => (ofItems inner items).map .array
    | .date millis => .ok (Instant.ofStored millis).toEnvelope
    | .binary bytes _ => .ok (Bytes.toEnvelope ⟨(StoredBytes.wrapped bytes).base64⟩)
    | .document columns => (ofColumns inner (isStoredDate columns) columns).map .object
    | .regex pattern options =>
      .ok (.object [(regexKey, .string pattern), ("$options", .string options)])
    | .objectId bytes => .ok (.string (hexText bytes))
    | .opaqueValue kind => .error (.decode (.badNested kind.name))
termination_by structural native

/-- The items of a stored array. -/
def ofItems (guard : Nesting) (items : List Native) : Except Failure (List Rest) :=
  match items with
  | [] => .ok []
  | item :: rest =>
    match ofNative guard item with
    | .error failure => .error failure
    | .ok value => (ofItems guard rest).map (value :: ·)
termination_by structural items

/-- The columns of a stored document; the instant of a stored date becomes its text. -/
def ofColumns (guard : Nesting) (storedDate : Bool) (columns : List (String × Native)) :
    Except Failure (List (String × Rest)) :=
  match columns with
  | [] => .ok []
  | (key, native) :: rest =>
    let read : Except Failure Rest :=
      match storedIso? storedDate key native with
      | some text => .ok (.string text)
      | none => ofNative guard native
    match read with
    | .error failure => .error failure
    | .ok value => (ofColumns guard storedDate rest).map ((key, value) :: ·)
termination_by structural columns

end

end RestStore.Rest
