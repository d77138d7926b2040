import RestStore.Atom.Date
import RestStore.Proofs.Calendar.Spelled
import RestStore.Proofs.Calendar.Unread

/-!
# Rendered dates, read again

A date that is read from a text is written with its milliseconds in UTC. The text is read again just
where the year in UTC has four digits. A year outside of these is written with a sign, and the one
form that takes an offset has no place for it. Such years are reached by the forms that do take a
sign, and by an offset across the limit.

* `Instant.Clocked` — the instants that a text can spell: `clocked_of_parse?`.
* `Instant.ofCivil_inMillis` — such an instant is that of its own date and time.
* `Iso.parse?_render` — what the text of one is read as.
* `rendered_date_read` — the same for envelopes.
-/

set_option autoImplicit false

namespace RestStore

namespace Instant

/-- The nanoseconds stay within the second, or are those of a leap second that ends a minute. -/
def Clocked (instant : Instant) : Prop :=
  instant.nanos < 1000000000 ∨ instant.seconds % 60 = 59 ∧ instant.nanos < 2000000000

/-- The instant without what is below a millisecond. -/
def inMillis (instant : Instant) : Instant :=
  { instant with nanos := instant.nanos / 1000000 * 1000000 }

/-! ## Instants of texts -/

section

variable {date : CivilDate} {time : ClockTime} {instant : Instant}

theorem clocked_ofCivil (h : time.isValid = true) : (ofCivil date time).Clocked := by
  simp only [ClockTime.isValid, Bool.and_eq_true, decide_eq_true_eq] at h
  obtain ⟨_, hnanos⟩ := h
  unfold ofCivil Clocked
  dsimp only
  by_cases hleap : time.second = 60
  · rw [if_pos hleap, if_pos hleap]
    omega
  · rw [if_neg hleap, if_neg hleap]
    omega

theorem clocked_of_instant? (h : Iso.instant? date time = some instant) : instant.Clocked := by
  unfold Iso.instant? at h
  split at h
  · rename_i hvalid
    cases h
    exact clocked_ofCivil (Bool.and_eq_true_iff.1 hvalid).2
  · cases h

/-- An offset is a number of whole minutes, and so keeps a leap second where a minute ends. -/
theorem clocked_move (h : instant.Clocked) (minutes : Int) :
    Clocked ⟨instant.seconds - minutes * 60, instant.nanos⟩ := by
  unfold Clocked at h ⊢
  dsimp only
  omega

/-- A reader gives such instants only, if what it passes on to does. -/
theorem clocked_bind {α : Type} {read : Option α} {next : α → Option Instant}
    (h : ∀ found, read = some found → ∀ instant, next found = some instant → instant.Clocked) :
    ∀ instant, (read >>= next) = some instant → instant.Clocked := by
  intro instant hbind
  obtain ⟨found, hread, hnext⟩ := Option.bind_eq_some_iff.1 hbind
  exact h found hread instant hnext

theorem clocked_of_timestamp? {cs : List Char} :
    ∀ instant, Iso.timestamp? cs = some instant → instant.Clocked := by
  unfold Iso.timestamp?
  refine clocked_bind fun year _ => ?_
  refine clocked_bind fun _ _ => ?_
  refine clocked_bind fun month _ => ?_
  refine clocked_bind fun _ _ => ?_
  refine clocked_bind fun day _ => ?_
  obtain ⟨day, cs⟩ := day
  -- what follows the date has to start with a separator
  cases cs with
  | nil => exact fun _ h => nomatch h
  | cons separator rest =>
    dsimp only
    split
    · refine clocked_bind fun _ _ => ?_
      refine clocked_bind fun hour _ => ?_
      refine clocked_bind fun _ _ => ?_
      refine clocked_bind fun minute _ => ?_
      refine clocked_bind fun _ _ => ?_
      refine clocked_bind fun second _ => ?_
      refine clocked_bind fun nanos _ => ?_
      refine clocked_bind fun minutes _ => ?_
      refine clocked_bind fun atOffset hinstant => ?_
      intro instant h
      cases h
      exact clocked_move (clocked_of_instant? hinstant) minutes
    · exact fun _ h => nomatch h

theorem clocked_of_dateTime? {cs : List Char} :
    ∀ instant, Iso.dateTime? cs = some instant → instant.Clocked := by
  unfold Iso.dateTime?
  refine clocked_bind fun date _ => ?_
  refine clocked_bind fun _ _ => ?_
  refine clocked_bind fun hour _ => ?_
  refine clocked_bind fun _ _ => ?_
  refine clocked_bind fun minute _ => ?_
  refine clocked_bind fun _ _ => ?_
  refine clocked_bind fun second _ => ?_
  refine clocked_bind fun found _ => ?_
  obtain ⟨nanos, rest⟩ := found
  intro instant h
  dsimp only at h
  split at h
  · exact clocked_of_instant? h
  · cases h

theorem clocked_of_date? {cs : List Char} :
    ∀ instant, Iso.date? cs = some instant → instant.Clocked := by
  unfold Iso.date?
  refine clocked_bind fun found _ => ?_
  obtain ⟨date, rest⟩ := found
  intro instant h
  dsimp only at h
  split at h
  · exact clocked_of_instant? h
  · cases h

end

theorem clocked_of_parse? {text : String} {instant : Instant} (h : Iso.parse? text = some instant) :
    instant.Clocked := by
  unfold Iso.parse? at h
  dsimp only at h
  cases ht : Iso.timestamp? text.toList with
  | some found =>
    rw [ht] at h
    cases h
    exact clocked_of_timestamp? _ ht
  | none =>
    rw [ht] at h
    cases hd : Iso.dateTime? text.toList with
    | some found =>
      rw [hd] at h
      cases h
      exact clocked_of_dateTime? _ hd
    | none =>
      rw [hd] at h
      exact clocked_of_date? _ h

/-! ## The date and the time of an instant -/

section

variable {instant : Instant}

theorem time_isValid (h : instant.Clocked) : instant.time.isValid = true := by
  unfold Clocked at h
  unfold time ClockTime.isValid
  simp only [Bool.and_eq_true, decide_eq_true_eq]
  omega

/-- **An instant is that of its date and its time**, to the millisecond. The second of a time is 60
just in a leap second. -/
theorem ofCivil_inMillis (h : instant.Clocked) :
    ofCivil instant.date instant.time.inMillis = instant.inMillis := by
  have hnumber : instant.date.dayNumber = instant.seconds / 86400 :=
    CivilDate.dayNumber_ofDayNumber _
  unfold Clocked at h
  unfold ofCivil
  rw [hnumber]
  unfold time ClockTime.inMillis inMillis
  dsimp only
  by_cases hleap : (instant.seconds % 86400).toNat % 60 + instant.nanos / 1000000000 = 60
  · rw [if_pos hleap, if_pos hleap]
    simp only [Instant.mk.injEq]
    omega
  · rw [if_neg hleap, if_neg hleap]
    simp only [Instant.mk.injEq]
    omega

theorem millis_inMillis : instant.inMillis.millis = instant.millis := by
  have hwhole : instant.nanos / 1000000 * 1000000 / 1000000 = instant.nanos / 1000000 :=
    Nat.mul_div_cancel _ (by decide)
  unfold millis inMillis
  rw [hwhole]

theorem time_inMillis : instant.inMillis.time = instant.time.inMillis := by
  have hseconds : instant.nanos / 1000000 * 1000000 / 1000000000 = instant.nanos / 1000000000 := by
    omega
  have hnanos : instant.nanos / 1000000 * 1000000 % 1000000000 =
      instant.nanos % 1000000000 / 1000000 * 1000000 := by omega
  unfold time inMillis ClockTime.inMillis
  dsimp only
  rw [hseconds, hnanos]

theorem render_inMillis : Iso.render instant.inMillis = Iso.render instant := by
  have hwhole : instant.time.nanos / 1000000 * 1000000 / 1000000 = instant.time.nanos / 1000000 :=
    Nat.mul_div_cancel _ (by decide)
  have hdate : instant.inMillis.date = instant.date := rfl
  unfold Iso.render
  rw [time_inMillis, hdate]
  unfold ClockTime.inMillis
  dsimp only
  rw [hwhole]

end

end Instant

/-! ## Texts read again -/

/-- **The text of an instant is read as the instant to the millisecond**, or not at all where the
year does not have four digits. -/
theorem Iso.parse?_render {instant : Instant} (h : instant.Clocked) :
    Iso.parse? (Iso.render instant) =
      if 0 ≤ instant.date.year ∧ instant.date.year ≤ 9999 then some instant.inMillis else none := by
  rw [Iso.parse?_of_zulu (Iso.zulu_mem_render instant)]
  by_cases hyear : 0 ≤ instant.date.year ∧ instant.date.year ≤ 9999
  · have hdate : instant.date.isValid = true := (CivilDate.ofDayNumber_spec _).1
    rw [if_pos hyear, Iso.render_of_year hyear.1 hyear.2, String.toList_ofList,
      Iso.timestamp?_spelled hdate (Instant.time_isValid h) hyear.1 hyear.2,
      Instant.ofCivil_inMillis h]
  · obtain ⟨sign, rest, htext, hsign⟩ := Iso.render_signed hyear
    rw [if_neg hyear, htext, Iso.timestamp?_cons hsign]

theorem Instant.clocked_of_ofEnvelope {members : Fields Rest} {instant : Instant}
    (h : Instant.ofEnvelope members = .ok instant) : instant.Clocked := by
  unfold Instant.ofEnvelope at h
  split at h
  · cases h
  · unfold Instant.ofText at h
    split at h
    · rename_i hparse
      cases h
      exact Instant.clocked_of_parse? hparse
    · cases h

/-- The members of the envelope of a date with its text. -/
def datedMembers (text : String) : Fields Rest :=
  [(typeKey, .string Instant.kind), ("iso", .string text)]

theorem ofEnvelope_dated (text : String) :
    Instant.ofEnvelope (datedMembers text) = Instant.ofText text := rfl

/-- **A rendered date is read again just where its year has four digits.** Of every envelope of a
date that is accepted, the envelope that is rendered is accepted exactly where the year of the
instant in UTC lies from 0 to 9999, and what is read from it is stored and rendered as the instant
is. Elsewhere the rendered text is refused as no date. -/
theorem rendered_date_read {members : Fields Rest} {instant : Instant}
    (h : Instant.ofEnvelope members = .ok instant) :
    ∃ rendered, instant.toEnvelope = .object rendered ∧
      ((∃ again, Instant.ofEnvelope rendered = .ok again) ↔
        0 ≤ instant.date.year ∧ instant.date.year ≤ 9999) ∧
      (∀ again, Instant.ofEnvelope rendered = .ok again →
        again.toNative = instant.toNative ∧ again.toEnvelope = instant.toEnvelope) ∧
      ∀ failure, Instant.ofEnvelope rendered = .error failure →
        failure = .atom (.unreadableDate (Iso.render instant)) := by
  have hclocked : instant.Clocked := Instant.clocked_of_ofEnvelope h
  refine ⟨datedMembers (Iso.render instant), rfl, ?_⟩
  rw [ofEnvelope_dated]
  unfold Instant.ofText
  rw [Iso.parse?_render hclocked]
  by_cases hyear : 0 ≤ instant.date.year ∧ instant.date.year ≤ 9999
  · rw [if_pos hyear]
    refine ⟨⟨fun _ => hyear, fun _ => ⟨_, rfl⟩⟩, ?_, fun _ hf => nomatch hf⟩
    intro again ha
    cases ha
    constructor
    · rw [Instant.toNative, Instant.millis_inMillis, Instant.toNative]
    · rw [Instant.toEnvelope, Instant.render_inMillis, Instant.toEnvelope]
  · rw [if_neg hyear]
    refine ⟨⟨?_, fun h => absurd h hyear⟩, (fun _ ha => nomatch ha), ?_⟩
    · rintro ⟨_, ha⟩
      cases ha
    · intro failure hf
      cases hf
      rfl

/-- A leap second, east of Greenwich, with digits below a millisecond. -/
theorem rendered_date_read_leap :
    Instant.ofEnvelope (datedMembers "2017-01-01T05:29:60.9999+05:30") =
        .ok ⟨1483228799, 1999900000⟩ ∧
      Instant.toEnvelope ⟨1483228799, 1999900000⟩ =
        .object (datedMembers "2016-12-31T23:59:60.999Z") ∧
      ∃ rendered again, Instant.toEnvelope ⟨1483228799, 1999900000⟩ = .object rendered ∧
        Instant.ofEnvelope rendered = .ok again ∧
        again.toNative = Instant.toNative ⟨1483228799, 1999900000⟩ ∧
        again.toEnvelope = Instant.toEnvelope ⟨1483228799, 1999900000⟩ := by
  have hparse : Iso.parse? "2017-01-01T05:29:60.9999+05:30" = some ⟨1483228799, 1999900000⟩ := by
    decide +kernel
  have hread : Instant.ofEnvelope (datedMembers "2017-01-01T05:29:60.9999+05:30") =
      .ok ⟨1483228799, 1999900000⟩ := by
    rw [ofEnvelope_dated, Instant.ofText, hparse]
  obtain ⟨rendered, hrendered, hagain, hsame, _⟩ := rendered_date_read hread
  obtain ⟨again, ha⟩ := hagain.2 (by decide)
  obtain ⟨hnative, henvelope⟩ := hsame again ha
  exact ⟨hread, by rfl, rendered, again, hrendered, ha, hnative, henvelope⟩

/-- The first day after the years with four digits is accepted without a time, rendered with a sign
and an offset, and not accepted again. -/
theorem far_date_unread :
    Instant.ofEnvelope (datedMembers "+10000-01-01") = .ok ⟨253402300800, 0⟩ ∧
      Instant.toEnvelope ⟨253402300800, 0⟩ =
        .object (datedMembers "+10000-01-01T00:00:00.000Z") ∧
      Instant.ofEnvelope (datedMembers "+10000-01-01T00:00:00.000Z") =
        .error (.atom (.unreadableDate "+10000-01-01T00:00:00.000Z")) := by
  exact ⟨rfl, rfl, rfl⟩

end RestStore
