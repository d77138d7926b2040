import RestStore.Proofs.Calendar.Words
import RestStore.Proofs.Text.Integers

/-!
# Phrases of quantities

A phrase is `in` before or `ago` after a list of counts with units. It moves the clock by the sum of
the counts times the lengths of their units, computed exactly: `resolve_quantities`. The phrase is
out of range just when a product or a sum along the list is no signed 64-bit integer, the sum has
too many milliseconds for one, or the moved clock shows no date.

* `TimeUnit`, `Quantity`, `Quantity.Words` — the units with their names, and how a list of
  quantities is written.
* `totalSeconds_step` — one quantity; `totalSeconds_words` — a list of them.
* `sumsFit_iff` — the checks along the list, as a condition on products and sums.
* `Instant.nanosTo_later` — a clock is moved by exactly the seconds asked for.
* `Direction`, `meaning_words`, `shift_eq` — the two directions.
-/

set_option autoImplicit false

namespace RestStore

/-! ## Units -/

/-- The units of time. -/
inductive TimeUnit where
  | year
  | week
  | day
  | hour
  | minute
  | second
deriving DecidableEq, Repr

namespace TimeUnit

/-- The words for a unit. -/
def names : TimeUnit → List String
  | year => ["yr", "yrs", "year", "years"]
  | week => ["wk", "wks", "week", "weeks"]
  | day => ["d", "day", "days"]
  | hour => ["hr", "hrs", "hour", "hours"]
  | minute => ["min", "mins", "minute", "minutes"]
  | second => ["sec", "secs", "second", "seconds"]

/-- The length of a unit in seconds; every year has 365 days. -/
def seconds : TimeUnit → Int
  | year => 365 * 24 * 60 * 60
  | week => 7 * 24 * 60 * 60
  | day => 24 * 60 * 60
  | hour => 60 * 60
  | minute => 60
  | second => 1

theorem unitSeconds?_name (unit : TimeUnit) :
    ∀ name ∈ unit.names, Phrase.unitSeconds? name = some unit.seconds := by
  cases unit <;> decide

/-- No word for a unit gives a direction. -/
theorem name_ne (unit : TimeUnit) :
    ∀ name ∈ unit.names, name.toList ≠ "in".toList ∧ name.toList ≠ "ago".toList := by
  cases unit <;> decide

end TimeUnit

/-- A count of a unit. -/
structure Quantity where
  count : Int
  unit : TimeUnit
  fits : fitsInt64 count = true

namespace Quantity

/-- The seconds of a quantity. -/
def seconds (quantity : Quantity) : Int := quantity.count * quantity.unit.seconds

/-- The seconds of several quantities. -/
def total : List Quantity → Int
  | [] => 0
  | quantity :: rest => quantity.seconds + total rest

/-- The words of a list of quantities: the count in any spelling, and a word for its unit. -/
inductive Words : List Quantity → List (List Char) → Prop
  | nil : Words [] []
  | cons {quantity : Quantity} {number : List Char} {name : String} {rest : List Quantity}
    {words : List (List Char)} : SpellsInteger number quantity.count →
      name ∈ quantity.unit.names → Words rest words →
        Words (quantity :: rest) (number :: name.toList :: words)

/-! ## Sums -/

/-- Whether the products fit, and the sums along the list. -/
def sumsFit : Int → List Quantity → Bool
  | _, [] => true
  | start, quantity :: rest =>
    fitsInt64 quantity.seconds && (fitsInt64 (start + quantity.seconds) &&
      sumsFit (start + quantity.seconds) rest)

/-- **The checks along a list** are that every product fits and every sum of a first part. -/
theorem sumsFit_iff {quantities : List Quantity} {start : Int} (hstart : fitsInt64 start = true) :
    sumsFit start quantities = true ↔
      (∀ quantity ∈ quantities, fitsInt64 quantity.seconds = true) ∧
        ∀ length, fitsInt64 (start + total (quantities.take length)) = true := by
  induction quantities generalizing start with
  | nil => simp [sumsFit, total, hstart]
  | cons quantity rest ih =>
    have htake : ∀ length, start + total ((quantity :: rest).take (length + 1)) =
        start + quantity.seconds + total (rest.take length) := fun length => by
      rw [List.take_succ_cons, total, Int.add_assoc]
    rw [sumsFit, Bool.and_eq_true, Bool.and_eq_true]
    constructor
    · rintro ⟨hproduct, hsum, hrest⟩
      obtain ⟨hproducts, hsums⟩ := (ih hsum).1 hrest
      refine ⟨List.forall_mem_cons.2 ⟨hproduct, hproducts⟩, fun length => ?_⟩
      cases length with
      | zero => simpa [total] using hstart
      | succ length =>
        rw [htake]
        exact hsums length
    · rintro ⟨hproducts, hsums⟩
      obtain ⟨hproduct, hproducts⟩ := List.forall_mem_cons.1 hproducts
      have hsums' : ∀ length, fitsInt64 (start + quantity.seconds + total (rest.take length)) =
          true := fun length => htake length ▸ hsums (length + 1)
      have hsum : fitsInt64 (start + quantity.seconds) = true := by simpa [total] using hsums' 0
      exact ⟨hproduct, hsum, (ih hsum).2 ⟨hproducts, hsums'⟩⟩

theorem count?_of_spells {number : List Char} {quantity : Quantity}
    (h : SpellsInteger number quantity.count) : Phrase.count? number = some quantity.count := by
  have hread : int64OfChars? number = some quantity.count := by
    rw [int64OfChars?, h.integerOfChars?]
    exact Option.filter_some_pos quantity.fits
  rw [Phrase.count?, hread]
  rfl

/-- **One quantity** is added when its product and the sum fit. -/
theorem totalSeconds_step {number : List Char} {name : String} {quantity : Quantity}
    (hnumber : SpellsInteger number quantity.count) (hname : name ∈ quantity.unit.names)
    (words : List (List Char)) (start : Int) :
    Phrase.totalSeconds (number :: name.toList :: words) start =
      if fitsInt64 quantity.seconds && fitsInt64 (start + quantity.seconds) then
        Phrase.totalSeconds words (start + quantity.seconds)
      else .error .outOfRange := by
  rw [Phrase.totalSeconds, count?_of_spells hnumber, String.ofList_toList,
    quantity.unit.unitSeconds?_name name hname]
  dsimp only
  rw [← seconds]
  cases fitsInt64 quantity.seconds <;> cases fitsInt64 (start + quantity.seconds) <;> rfl

/-- **A list of quantities** is added up exactly, or is out of range. -/
theorem totalSeconds_words {quantities : List Quantity} {words : List (List Char)}
    (h : Words quantities words) (start : Int) :
    Phrase.totalSeconds words start =
      if sumsFit start quantities then .ok (start + total quantities) else .error .outOfRange := by
  induction h generalizing start with
  | nil =>
    rw [total, Int.add_zero]
    rfl
  | @cons quantity _ _ rest _ hnumber hname _ ih =>
    rw [totalSeconds_step hnumber hname, ih, sumsFit, total, ← Int.add_assoc]
    cases fitsInt64 quantity.seconds <;> cases fitsInt64 (start + quantity.seconds) <;> rfl

theorem length_words {quantities : List Quantity} {words : List (List Char)}
    (h : Words quantities words) : words.length = 2 * quantities.length := by
  induction h with
  | nil => rfl
  | cons _ _ _ ih =>
    rw [List.length_cons, List.length_cons, List.length_cons, ih]
    omega

theorem offset_words {quantities : List Quantity} {words : List (List Char)}
    (h : Words quantities words) : Phrase.offset words =
      if sumsFit 0 quantities then .ok (total quantities) else .error .outOfRange := by
  rw [Phrase.offset, if_pos (by rw [length_words h]; omega), totalSeconds_words h, Int.zero_add]

/-- Counts and units are no directions. -/
theorem not_direction {quantities : List Quantity} {words : List (List Char)}
    (h : Words quantities words) : "in".toList ∉ words ∧ "ago".toList ∉ words := by
  induction h with
  | nil => exact ⟨List.not_mem_nil, List.not_mem_nil⟩
  | @cons quantity number name _ _ hnumber hname _ ih =>
    obtain ⟨hin, hago⟩ := quantity.unit.name_ne name hname
    obtain ⟨c, rest, rfl, hc⟩ := hnumber.head
    have hletter : c ≠ 'i' ∧ c ≠ 'a' := by
      constructor <;>
      · rintro rfl
        revert hc
        decide
    simp only [List.mem_cons, not_or]
    refine ⟨⟨fun he => hletter.1 ?_, hin.symm, ih.1⟩, fun he => hletter.2 ?_, hago.symm, ih.2⟩
    · exact (List.cons.inj he).1.symm
    · exact (List.cons.inj he).1.symm

end Quantity

/-! ## Moving a clock -/

namespace Instant

/-- The nanoseconds from a clock to an instant. Where the clock stands in a leap second, that second
lies between it and all later ones. -/
def nanosTo (clock instant : Instant) : Int :=
  (instant.seconds - clock.seconds) * 1000000000 + ((instant.nanos : Int) - clock.nanos) +
    if 1000000000 ≤ clock.nanos ∧ clock.seconds < instant.seconds then 1000000000 else 0

/-- **A clock is moved by exactly the seconds asked for.** -/
theorem nanosTo_later (clock : Instant) (seconds : Int) :
    clock.nanosTo (clock.later seconds) = seconds * 1000000000 := by
  unfold later nanosTo
  split
  · rename_i hplain
    dsimp only
    rw [if_neg (by omega)]
    omega
  · split
    · rename_i hzero
      rw [if_neg (by omega), hzero]
      omega
    · split
      · rename_i hahead
        dsimp only
        rw [if_pos (by omega)]
        omega
      · dsimp only
        rw [if_neg (by omega)]
        omega

end Instant

/-- The direction in which a phrase of quantities points. -/
inductive Direction where
  | ahead
  | back
deriving DecidableEq, Repr

namespace Direction

/-- The tense of the phrase. -/
def tense : Direction → Tense
  | ahead => .future
  | back => .past

/-- The words of the phrase. -/
def words (body : List (List Char)) : Direction → List (List Char)
  | ahead => "in".toList :: body
  | back => body ++ ["ago".toList]

/-- The seconds by which the phrase moves the clock. -/
def signed (seconds : Int) : Direction → Int
  | ahead => seconds
  | back => -seconds

end Direction

/-- When a list of quantities moves a clock to an instant: every product and every sum of a first
part is a signed 64-bit integer, so are the milliseconds of the whole sum and of its opposite, and
the instant is in range. -/
structure Representable (quantities : List Quantity) (moved : Instant) : Prop where
  products : ∀ quantity ∈ quantities, fitsInt64 quantity.seconds = true
  sums : ∀ length, fitsInt64 (Quantity.total (quantities.take length)) = true
  millis : (Quantity.total quantities * 1000).natAbs ≤ 9223372036854775807
  date : moved.inRange = true

namespace Phrase

/-- A clock is moved when the milliseconds fit, and so does the date. -/
theorem shift_eq (direction : Direction) (clock : Instant) (seconds : Int) :
    shift clock direction.tense seconds =
      if decide ((seconds * 1000).natAbs ≤ 9223372036854775807) &&
          (clock.later (direction.signed seconds)).inRange then
        .ok ⟨direction.tense, clock.later (direction.signed seconds)⟩
      else .error .outOfRange := by
  have hlongest : longestOffset < seconds.natAbs ↔
      ¬(seconds * 1000).natAbs ≤ 9223372036854775807 := by
    unfold longestOffset
    omega
  unfold shift
  by_cases hfits : (seconds * 1000).natAbs ≤ 9223372036854775807
  · rw [if_neg (by rw [hlongest]; exact not_not_intro hfits), decide_eq_true hfits, Bool.true_and]
    by_cases hdate : (clock.later (direction.signed seconds)).inRange = true
    · have hmoved : clock.addSeconds? (direction.signed seconds) =
          some (clock.later (direction.signed seconds)) := if_pos hdate
      rw [if_pos hdate]
      cases direction <;>
      · rw [Direction.signed] at hmoved
        rw [Direction.tense, hmoved]
        rfl
    · have hlost : clock.addSeconds? (direction.signed seconds) = none := if_neg hdate
      rw [if_neg hdate]
      cases direction <;>
      · rw [Direction.signed] at hlost
        rw [Direction.tense, hlost]
  · rw [if_pos (hlongest.2 hfits), decide_eq_false hfits, Bool.false_and]
    rfl

section

variable {direction : Direction} {quantities : List Quantity} {body : List (List Char)}

/-- A text holds these words in any letter case, with any spaces between and around them. -/
def Reads (tokens : List (List Char)) (text : String) : Prop :=
  ∃ written, Spaced written text.toList ∧ written.map lowercase = tokens

theorem words_of_reads {tokens : List (List Char)} {text : String} (h : Reads tokens text) :
    words (lowercase text.toList) = tokens := by
  obtain ⟨written, hspaced, hcase⟩ := h
  rw [words_lowercase, hspaced.words_eq, hcase]

theorem words_ne_now (direction : Direction) (body : List (List Char)) :
    direction.words body ≠ ["now".toList] := by
  cases direction with
  | ahead => exact fun h => absurd (List.cons.inj h).1 (by decide)
  | back =>
    intro h
    have hlast := congrArg List.getLast? h
    rw [Direction.words, List.getLast?_concat] at hlast
    exact absurd hlast (by decide)

/-- **A phrase of quantities** has the direction of its first or last word, and the sum of the
others. -/
theorem meaning_words (direction : Direction) (h : Quantity.Words quantities body)
    (clock : Instant) : meaning (direction.words body) clock =
      match offset body with
      | .error fault => .error fault
      | .ok seconds => shift clock direction.tense seconds := by
  obtain ⟨hin, hago⟩ := Quantity.not_direction h
  cases direction with
  | ahead =>
    have hlast : ("in".toList :: body).getLast? ≠ some "ago".toList := by
      intro he
      rcases List.mem_cons.1 (List.mem_of_getLast? he) with he | hm
      · exact absurd he (by decide)
      · exact hago hm
    have hpast : (("in".toList :: body).getLast? == some "ago".toList) = false :=
      beq_eq_false_iff_ne.2 hlast
    unfold meaning Direction.words
    dsimp only
    rw [hpast]
    rfl
  | back =>
    have hfirst : (body ++ ["ago".toList]).head? ≠ some "in".toList := by
      intro he
      rcases List.mem_append.1 (List.mem_of_head? he) with hm | hm
      · exact hin hm
      · exact absurd (List.mem_singleton.1 hm) (by decide)
    have hfuture : ((body ++ ["ago".toList]).head? == some "in".toList) = false :=
      beq_eq_false_iff_ne.2 hfirst
    unfold meaning Direction.words
    dsimp only
    rw [hfuture, List.getLast?_concat, List.dropLast_concat]
    rfl

theorem representable_iff {moved : Instant} : Representable quantities moved ↔
    (Quantity.sumsFit 0 quantities &&
      (decide ((Quantity.total quantities * 1000).natAbs ≤ 9223372036854775807) &&
        moved.inRange)) = true := by
  rw [Bool.and_eq_true, Bool.and_eq_true, Quantity.sumsFit_iff rfl, decide_eq_true_iff]
  simp only [Int.zero_add]
  constructor
  · exact fun h => ⟨⟨h.products, h.sums⟩, h.millis, h.date⟩
  · exact fun ⟨⟨hproducts, hsums⟩, hmillis, hdate⟩ => ⟨hproducts, hsums, hmillis, hdate⟩

/-- A phrase of quantities, with all its checks. -/
theorem resolve_words {text : String} (hbody : Quantity.Words quantities body)
    (htext : Reads (direction.words body) text) (clock : Instant) :
    resolve text clock =
      if Quantity.sumsFit 0 quantities &&
          (decide ((Quantity.total quantities * 1000).natAbs ≤ 9223372036854775807) &&
            (clock.later (direction.signed (Quantity.total quantities))).inRange) then
        .ok ⟨direction.tense, clock.later (direction.signed (Quantity.total quantities))⟩
      else .error .outOfRange := by
  have hnow : ¬IsNow text := by
    intro hnow
    have hwords := words_of_reads htext
    rw [hnow] at hwords
    exact words_ne_now direction body hwords.symm
  rw [resolve_eq hnow, words_of_reads htext, meaning_words direction hbody,
    Quantity.offset_words hbody]
  cases Quantity.sumsFit 0 quantities with
  | false => rfl
  | true =>
    rw [Bool.true_and, ← shift_eq]
    rfl

/-- **Phrases of quantities are exact.** For counts in any spelling of a signed 64-bit integer, with
any words for their units, in any letter case and with any spaces: the clock is moved by exactly the
sum of the counts times the lengths of the units, ahead after `in` and back before `ago`. The phrase
is out of range just when a product, a sum along the list, the milliseconds or the date is. -/
theorem resolve_quantities {text : String} (hbody : Quantity.Words quantities body)
    (htext : Reads (direction.words body) text) (clock : Instant) :
    clock.nanosTo (clock.later (direction.signed (Quantity.total quantities))) =
        direction.signed (Quantity.total quantities) * 1000000000 ∧
      (Representable quantities (clock.later (direction.signed (Quantity.total quantities))) →
        resolve text clock =
          .ok ⟨direction.tense, clock.later (direction.signed (Quantity.total quantities))⟩) ∧
      (resolve text clock = .error .outOfRange ↔
        ¬Representable quantities
          (clock.later (direction.signed (Quantity.total quantities)))) := by
  refine ⟨clock.nanosTo_later _, ?_⟩
  rw [resolve_words hbody htext, representable_iff]
  split
  · rename_i hfits
    exact ⟨fun _ => rfl, iff_of_false nofun (not_not_intro hfits)⟩
  · rename_i hfits
    exact ⟨fun h => absurd h hfits, iff_of_true rfl hfits⟩

end

/-- Two days less three hours. -/
def mostOfTwoDays : List Quantity := [⟨2, .day, rfl⟩, ⟨-3, .hour, rfl⟩]

theorem resolve_quantities_twoDays :
    Quantity.Words mostOfTwoDays ["+02".toList, "days".toList, "-3".toList, "hrs".toList] ∧
      Reads (Direction.ahead.words ["+02".toList, "days".toList, "-3".toList, "hrs".toList])
        "  IN +02   Days -3 HRS " ∧
      Representable mostOfTwoDays ⟨1710234000, 0⟩ ∧
      resolve "  IN +02   Days -3 HRS " ⟨1710072000, 0⟩ = .ok ⟨.future, ⟨1710234000, 0⟩⟩ := by
  have htwo : SpellsInteger "+02".toList 2 :=
    .plus (List.cons_ne_nil '0' ['2']) (List.all_eq_true.1 rfl)
  have hthree : SpellsInteger "-3".toList (-3) :=
    .minus (List.cons_ne_nil '3' []) (List.all_eq_true.1 rfl)
  have hdays : "days" ∈ TimeUnit.day.names := by decide
  have hhours : "hrs" ∈ TimeUnit.hour.names := by decide
  have hwords : Quantity.Words mostOfTwoDays
      ["+02".toList, "days".toList, "-3".toList, "hrs".toList] :=
    .cons htwo hdays (.cons hthree hhours .nil)
  have hreads : Reads (Direction.ahead.words
      ["+02".toList, "days".toList, "-3".toList, "hrs".toList]) "  IN +02   Days -3 HRS " :=
    ⟨_, spaced_words _, by decide⟩
  have hfits : Representable mostOfTwoDays ⟨1710234000, 0⟩ := representable_iff.2 (by decide)
  exact ⟨hwords, hreads, hfits, (resolve_quantities hwords hreads ⟨1710072000, 0⟩).2.1 hfits⟩

end Phrase

end RestStore
