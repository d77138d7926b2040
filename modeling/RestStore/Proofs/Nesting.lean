import RestStore.Nesting

/-!
# Room below a guard

A guard that has room for some levels lets a value enter that is nested no deeper.

* `HasRoom` — there are at least so many levels; `room` is how many there are.
* `enter_cases` — what entering a value does to the room.
* `ifRoom` — a result that is refused where it takes more levels than there are. Steps of such
  results are such results again: `map_ifRoom`, `ifRoom_enter`, `ifRoom_max_of_le`.
-/

set_option autoImplicit false

namespace RestStore.Nesting

/-- There are at least so many levels below a guard. -/
def HasRoom (guard : Nesting) (levels : Nat) : Prop := guard.level + levels ≤ guard.bound

theorem HasRoom.mono {guard : Nesting} {levels fewer : Nat} (h : guard.HasRoom levels)
    (hle : fewer ≤ levels) : guard.HasRoom fewer := by
  unfold HasRoom at h ⊢
  omega

theorem HasRoom.enter {guard : Nesting} {levels : Nat} (h : guard.HasRoom (levels + 1)) :
    ∃ inner, guard.enter = .ok inner ∧ inner.HasRoom levels := by
  unfold HasRoom at h
  refine ⟨{ guard with level := guard.level + 1 }, ?_, ?_⟩
  · unfold Nesting.enter
    rw [if_neg (by omega)]
  · show guard.level + 1 + levels ≤ guard.bound
    omega

theorem hasRoom_top {bound levels : Nat} {origin : Origin} (h : levels ≤ bound) :
    (top bound origin).HasRoom levels := by
  show 0 + levels ≤ bound
  omega

/-! ## Results that take levels -/

/-- The number of levels below a guard. -/
def room (guard : Nesting) : Nat := guard.bound - guard.level

theorem hasRoom_room {guard : Nesting} (h : 0 < guard.room) : guard.HasRoom guard.room := by
  unfold room at h ⊢
  unfold HasRoom
  omega

theorem le_room_iff {guard : Nesting} {levels : Nat} (h : 0 < levels) :
    levels ≤ guard.room ↔ guard.level + levels ≤ guard.bound := by
  unfold room
  omega

/-- **A value is refused where there is no room**, and takes one level where there is. -/
theorem enter_cases (guard : Nesting) :
    guard.room = 0 ∧ guard.enter = .error (.tooDeep guard.origin guard.bound) ∨
      ∃ inner, guard.enter = .ok inner ∧ guard.room = inner.room + 1 ∧
        inner.origin = guard.origin ∧ inner.bound = guard.bound := by
  unfold enter room
  by_cases hfull : guard.bound ≤ guard.level
  · rw [if_pos hfull]
    exact .inl ⟨by omega, rfl⟩
  · rw [if_neg hfull]
    exact .inr ⟨_, rfl, by dsimp only; omega, rfl, rfl⟩

/-- A result that takes so many levels below a guard. -/
def ifRoom {α : Type} (guard : Nesting) (levels : Nat) (result : α) : Except Failure α :=
  if levels ≤ guard.room then .ok result else .error (.tooDeep guard.origin guard.bound)

section

variable {α β : Type} {guard inner : Nesting}

theorem ifRoom_zero (result : α) : guard.ifRoom 0 result = .ok result := if_pos (Nat.zero_le _)

theorem ifRoom_eq_ok {levels : Nat} {result found : α} :
    guard.ifRoom levels result = .ok found ↔ levels ≤ guard.room ∧ result = found := by
  unfold ifRoom
  split <;> simp [*]

theorem ifRoom_full (h : guard.room = 0) (levels : Nat) (result : α) :
    guard.ifRoom (levels + 1) result = .error (.tooDeep guard.origin guard.bound) :=
  if_neg (by omega)

theorem map_ifRoom (levels : Nat) (result : α) (f : α → β) :
    (guard.ifRoom levels result).map f = guard.ifRoom levels (f result) := by
  unfold ifRoom
  split <;> rfl

/-- What is entered takes one level more. -/
theorem ifRoom_enter (hroom : guard.room = inner.room + 1) (horigin : inner.origin = guard.origin)
    (hbound : inner.bound = guard.bound) (levels : Nat) (result : α) :
    inner.ifRoom levels result = guard.ifRoom (levels + 1) result := by
  unfold ifRoom
  rw [hroom, horigin, hbound]
  simp only [Nat.add_le_add_iff_right]

/-- A result is given where there is room for its levels, and refused where there is not. -/
theorem ifRoom_cases (guard : Nesting) (levels : Nat) (result : α) :
    levels ≤ guard.room ∧ guard.ifRoom levels result = .ok result ∨
      guard.room < levels ∧
        guard.ifRoom levels result = .error (.tooDeep guard.origin guard.bound) := by
  by_cases hle : levels ≤ guard.room
  · exact .inl ⟨hle, if_pos hle⟩
  · exact .inr ⟨by omega, if_neg hle⟩

/-- Two results in a row take as many levels as the one that takes more: the second decides where
there is room for the first. -/
theorem ifRoom_max_of_le {first second : Nat} (h : first ≤ guard.room) (result : α) :
    guard.ifRoom (max first second) result = guard.ifRoom second result := by
  have hmax : max first second ≤ guard.room ↔ second ≤ guard.room := by omega
  simp only [ifRoom, hmax]

theorem ifRoom_max_of_lt {first : Nat} (h : guard.room < first) (second : Nat) (result : α) :
    guard.ifRoom (max first second) result = .error (.tooDeep guard.origin guard.bound) :=
  if_neg (by omega)

end

end RestStore.Nesting
