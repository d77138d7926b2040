import RestStore.Decode
import RestStore.Proofs.Outcome
import RestStore.Proofs.Text.Base64Shape
import RestStore.Write.Create

/-!
# Binary data both ways

An envelope of binary data is accepted when its text is the text of a byte string: `payload_iff`,
`ofEnvelope_iff`. Then the stored value has the same text, and so does the text itself where a
document holds it: `base64_reads_back`.

In the other direction a document may hold a text that only looks like base64. It is read as binary
data, but its envelope is accepted just when the bits that its last group leaves unused are zero:
`read_bytes_written_back_iff`.
-/

set_option autoImplicit false

namespace RestStore.Bytes

open Base64 (Shaped unusedBits)

/-- The members of the envelope with a text. -/
def membersOf (text : String) : Fields Rest :=
  [(typeKey, .string kind), ("base64", .string text)]

/-- What was read from the store is written back: its envelope is accepted, and stored again it is a
binary value with the same envelope. -/
def WrittenBack (bytes : Bytes) : Prop :=
  ofEnvelope (membersOf bytes.base64) = .ok bytes ∧
    ∃ payload again, bytes.toNative = .ok (.binary payload 0) ∧
      ofNative? (.binary payload 0) = some again ∧ again.toEnvelope = bytes.toEnvelope

/-! ## Texts and byte strings -/

section

variable {bytes : Bytes} {payload : List UInt8}

/-- **Binary data with a byte string** has the text of it. -/
theorem payload_iff : bytes.payload = .ok payload ↔
    bytes = ⟨(StoredBytes.wrapped payload).base64⟩ := by
  unfold Bytes.payload
  constructor
  · intro h
    split at h
    · rename_i decoded hd
      cases h
      have htext := Base64.encode_of_decode? hd
      rw [StoredBytes.base64, htext, String.ofList_toList]
    · cases h
  · rintro rfl
    rw [StoredBytes.base64, String.toList_ofList, Base64.decode?_encode]

theorem exists_payload_iff : (∃ payload, bytes.payload = .ok payload) ↔
    Shaped bytes.base64.toList ∧ unusedBits bytes.base64.toList = 0 := by
  rw [← Base64.decode?_isSome_iff]
  unfold Bytes.payload
  cases Base64.decode? bytes.base64.toList <;> simp

/-- Without a byte string the text is refused. -/
theorem payload_eq_error (h : ¬∃ payload, bytes.payload = .ok payload) :
    bytes.payload = .error (.atom .unreadableBase64) := by
  unfold Bytes.payload at h ⊢
  cases hd : Base64.decode? bytes.base64.toList with
  | none => rfl
  | some decoded =>
    rw [hd] at h
    exact absurd ⟨decoded, rfl⟩ h

theorem toNative_of_payload (h : bytes.payload = .ok payload) :
    bytes.toNative = .ok (.binary payload 0) := by
  rw [toNative, h, Except.map]

/-! ## Envelopes and stored values -/

/-- **An envelope is accepted** for its text, when this is the text of a byte string. -/
theorem ofEnvelope_iff {members : Fields Rest} : ofEnvelope members = .ok bytes ↔
    Fields.get? members "base64" = some (.string bytes.base64) ∧
      ∃ payload, bytes.payload = .ok payload := by
  unfold ofEnvelope Envelope.text
  constructor
  · intro h
    split at h
    · cases h
    · rename_i text htext
      obtain ⟨payload, hp, rfl⟩ := Outcome.map_eq_ok.1 h
      split at htext
      · rename_i hget
        cases htext
        exact ⟨hget, payload, hp⟩
      · cases htext
  · rintro ⟨hget, payload, hp⟩
    rw [hget]
    exact Outcome.map_eq_ok.2 ⟨payload, hp, rfl⟩

theorem ofEnvelope_membersOf (bytes : Bytes) :
    ofEnvelope (membersOf bytes.base64) = bytes.payload.map fun _ => bytes := rfl

theorem ofNative?_binary (payload : List UInt8) (subtype : UInt8) :
    ofNative? (.binary payload subtype) = some ⟨(StoredBytes.wrapped payload).base64⟩ := rfl

theorem ofNative?_string (text : String) :
    ofNative? (.string text) = if Base64.looksLike text then some ⟨text⟩ else none := by
  simp only [ofNative?, StoredBytes.ofNative?]
  split <;> rfl

theorem ofNative?_string_iff {text : String} :
    ofNative? (.string text) = some bytes ↔ bytes = ⟨text⟩ ∧ Shaped text.toList := by
  rw [← Base64.looksLike_iff_shaped, ofNative?_string]
  split
  · rename_i hlooks
    simp [hlooks, eq_comm]
  · rename_i hlooks
    simp [hlooks]

/-- What is read from the store has the shape of base64. -/
theorem shaped_of_ofNative? {native : Native} (h : ofNative? native = some bytes) :
    Shaped bytes.base64.toList := by
  cases native with
  | binary payload subtype =>
    cases h
    exact (exists_payload_iff.1 ⟨payload, payload_iff.2 rfl⟩).1
  | string text =>
    obtain ⟨rfl, hshaped⟩ := ofNative?_string_iff.1 h
    exact hshaped
  | _ => cases h

/-- Binary data with a byte string is written back. -/
theorem writtenBack_of_payload (h : bytes.payload = .ok payload) : bytes.WrittenBack := by
  have hread : ofNative? (.binary payload 0) = some bytes := by
    rw [ofNative?_binary, ← payload_iff.1 h]
  refine ⟨?_, payload, bytes, toNative_of_payload h, hread, rfl⟩
  rw [ofEnvelope_membersOf, h, Except.map]

end

/-! ## Round trips -/

/-- **What is read from the store is written back just when its unused bits are zero.** Of every
stored value that is read as binary data, a binary one has a text that is accepted, and the same
bytes are stored. A text that only looks like base64 has an envelope that is accepted when the bits
which its last group leaves unused are zero, and is refused as unreadable otherwise. -/
theorem read_bytes_written_back_iff {native : Native} {bytes : Bytes}
    (h : ofNative? native = some bytes) :
    bytes.toEnvelope = .object (membersOf bytes.base64) ∧
      (∀ payload subtype, native = .binary payload subtype →
        bytes.WrittenBack ∧ bytes.toNative = .ok (.binary payload 0)) ∧
      (bytes.WrittenBack ↔ unusedBits bytes.base64.toList = 0) ∧
      (¬bytes.WrittenBack →
        ofEnvelope (membersOf bytes.base64) = .error (.atom .unreadableBase64)) := by
  have hshaped := shaped_of_ofNative? h
  refine ⟨rfl, ?_, ?_, ?_⟩
  · rintro payload subtype rfl
    cases h
    have hpayload : Bytes.payload ⟨(StoredBytes.wrapped payload).base64⟩ = .ok payload :=
      payload_iff.2 rfl
    exact ⟨writtenBack_of_payload hpayload, toNative_of_payload hpayload⟩
  · constructor
    · rintro ⟨haccepted, -⟩
      exact (exists_payload_iff.1 (ofEnvelope_iff.1 haccepted).2).2
    · intro hunused
      obtain ⟨payload, hpayload⟩ := exists_payload_iff.2 ⟨hshaped, hunused⟩
      exact writtenBack_of_payload hpayload
  · intro hno
    have hnone : ¬∃ payload, bytes.payload = .ok payload := by
      rintro ⟨payload, hpayload⟩
      exact hno (writtenBack_of_payload hpayload)
    rw [ofEnvelope_membersOf, payload_eq_error hnone, Except.map]

/-- A stored text with one padding mark, as some documents hold it. -/
theorem read_bytes_written_back_iff_greeting :
    ofNative? (.string "aGVsbG8=") = some ⟨"aGVsbG8="⟩ ∧
      unusedBits "aGVsbG8=".toList = 0 ∧ WrittenBack ⟨"aGVsbG8="⟩ := by
  have hread : ofNative? (.string "aGVsbG8=") = some ⟨"aGVsbG8="⟩ := by decide +kernel
  have hunused : unusedBits "aGVsbG8=".toList = 0 := by decide
  exact ⟨hread, hunused, (read_bytes_written_back_iff hread).2.2.1.2 hunused⟩

/-- A class whose objects have binary data. -/
def vault : Target := ⟨"Vault", .ofFields [("data", ⟨.bytes, none⟩)], .standard⟩

/-- **A text with other unused bits** is stored and read as binary data, and the envelope that was
read is refused. -/
theorem spare_bits_refused :
    ofNative? (.string "TWF=") = some ⟨"TWF="⟩ ∧
      ofEnvelope (membersOf "TWF=") = .error (.atom .unreadableBase64) ∧
      Create.document vault [("data", .string "TWF=")] = .ok [("data", .string "TWF=")] ∧
      Decode.object vault [("data", .string "TWF=")] =
        .ok [("data", .object (membersOf "TWF="))] ∧
      Create.document vault [("data", .object (membersOf "TWF="))] =
        .error (.atom .unreadableBase64) := by
  exact ⟨by decide +kernel, rfl, rfl, rfl, rfl⟩

/-- **Accepted texts read back in both stored forms, and byte strings in their text.** An envelope
is accepted when its text is made of groups of four letters, the last one perhaps padded, and its
unused bits are zero. Then it is stored as a binary value of the generic subtype, and this value and
the text itself are both read as the same data. Every byte string, of any subtype, has a text that
is accepted and stands for it. -/
theorem base64_reads_back :
    (∀ members bytes, ofEnvelope members = .ok bytes ↔
      Fields.get? members "base64" = some (.string bytes.base64) ∧
        Shaped bytes.base64.toList ∧ unusedBits bytes.base64.toList = 0) ∧
    (∀ members bytes, ofEnvelope members = .ok bytes → ∃ payload,
      bytes.toNative = .ok (.binary payload 0) ∧ ofNative? (.binary payload 0) = some bytes ∧
        ofNative? (.string bytes.base64) = some bytes) ∧
    ∀ payload subtype, ∃ bytes, ofNative? (.binary payload subtype) = some bytes ∧
      (∀ members, Fields.get? members "base64" = some (.string bytes.base64) →
        ofEnvelope members = .ok bytes) ∧ bytes.payload = .ok payload := by
  refine ⟨fun members bytes => ?_, fun members bytes h => ?_, fun payload subtype => ?_⟩
  · rw [ofEnvelope_iff, exists_payload_iff]
  · obtain ⟨-, payload, hpayload⟩ := ofEnvelope_iff.1 h
    have hshaped := (exists_payload_iff.1 ⟨payload, hpayload⟩).1
    refine ⟨payload, toNative_of_payload hpayload, ?_, ofNative?_string_iff.2 ⟨rfl, hshaped⟩⟩
    rw [ofNative?_binary, ← payload_iff.1 hpayload]
  · have hpayload : Bytes.payload ⟨(StoredBytes.wrapped payload).base64⟩ = .ok payload :=
      payload_iff.2 rfl
    exact ⟨_, rfl, fun members hget => ofEnvelope_iff.2 ⟨hget, payload, hpayload⟩, hpayload⟩

/-- A greeting of five bytes. -/
theorem base64_reads_back_greeting :
    ofEnvelope (membersOf "aGVsbG8=") = .ok ⟨"aGVsbG8="⟩ ∧
      (∃ payload, toNative ⟨"aGVsbG8="⟩ = .ok (.binary payload 0) ∧
        ofNative? (.binary payload 0) = some ⟨"aGVsbG8="⟩ ∧
        ofNative? (.string "aGVsbG8=") = some ⟨"aGVsbG8="⟩) ∧
      ∃ bytes, ofNative? (.binary [104, 101, 108, 108, 111] 128) = some bytes ∧
        (∀ members, Fields.get? members "base64" = some (.string bytes.base64) →
          ofEnvelope members = .ok bytes) ∧ bytes.payload = .ok [104, 101, 108, 108, 111] :=
  ⟨rfl, base64_reads_back.2.1 (membersOf "aGVsbG8=") _ rfl,
    base64_reads_back.2.2 [104, 101, 108, 108, 111] 128⟩

end RestStore.Bytes
