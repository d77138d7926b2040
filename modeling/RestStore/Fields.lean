/-!
# Ordered fields

The members of a REST object and the columns of a stored document: a list of named values whose
order is part of the data.

* `Fields.insert` replaces a value in place and appends a new name, so positions are kept:
  `keys_insert_of_mem`, `keys_insert_of_not_mem`.
* `Fields.get?` sees exactly the last insertion under a name: `get?_insert_self`,
  `get?_insert_of_ne`.
* `Fields.swapErase` removes a name and moves the last member into the hole.
-/

set_option autoImplicit false

namespace RestStore

/-- Named values in order. -/
abbrev Fields (α : Type) := List (String × α)

namespace Fields

variable {α : Type}

/-- The value under a name. -/
def get? : Fields α → String → Option α
  | [], _ => none
  | (name, value) :: rest, key => if name = key then some value else get? rest key

/-- Whether a name occurs. -/
def contains (fields : Fields α) (key : String) : Bool := (get? fields key).isSome

/-- The names in order. -/
def keys (fields : Fields α) : List String := fields.map Prod.fst

/-- Writes a value: an existing name keeps its position, a new one goes to the end. -/
def insert : Fields α → String → α → Fields α
  | [], key, value => [(key, value)]
  | (name, old) :: rest, key, value =>
    if name = key then (name, value) :: rest else (name, old) :: insert rest key value

/-- Writes the entries one after the other. -/
def insertAll (fields entries : Fields α) : Fields α :=
  entries.foldl (fun acc entry => insert acc entry.1 entry.2) fields

/-- The fields that a list of entries writes, in order of first appearance. -/
def ofList (entries : Fields α) : Fields α := insertAll [] entries

/-- Removes a name; the last member takes the place of the removed one. -/
def swapErase : Fields α → String → Fields α
  | [], _ => []
  | (name, value) :: rest, key =>
    if name = key then
      match rest.getLast? with
      | none => []
      | some last => last :: rest.dropLast
    else (name, value) :: swapErase rest key

/-! ## Reading after writing -/

@[simp] theorem get?_nil (key : String) : get? ([] : Fields α) key = none := rfl

theorem get?_cons (name : String) (value : α) (rest : Fields α) (key : String) :
    get? ((name, value) :: rest) key = if name = key then some value else get? rest key := rfl

@[simp] theorem get?_insert_self (fields : Fields α) (key : String) (value : α) :
    get? (insert fields key value) key = some value := by
  induction fields with
  | nil => simp [insert, get?]
  | cons entry rest ih =>
    obtain ⟨name, old⟩ := entry
    by_cases h : name = key <;> simp [insert, get?, h, ih]

theorem get?_insert_of_ne (fields : Fields α) {key other : String} (value : α)
    (h : key ≠ other) : get? (insert fields key value) other = get? fields other := by
  induction fields with
  | nil => simp [insert, get?, h]
  | cons entry rest ih =>
    obtain ⟨name, old⟩ := entry
    by_cases hn : name = key
    · simp [insert, get?, hn, h]
    · simp [insert, get?, hn, ih]

/-! ## Names after writing -/

@[simp] theorem keys_nil : keys ([] : Fields α) = [] := rfl

@[simp] theorem keys_cons (name : String) (value : α) (rest : Fields α) :
    keys ((name, value) :: rest) = name :: keys rest := rfl

theorem keys_insert_of_mem (fields : Fields α) {key : String} (value : α)
    (h : key ∈ keys fields) : keys (insert fields key value) = keys fields := by
  induction fields with
  | nil => simp at h
  | cons entry rest ih =>
    obtain ⟨name, old⟩ := entry
    by_cases hn : name = key
    · simp [insert, hn]
    · have hr : key ∈ keys rest := by
        simp only [keys_cons, List.mem_cons] at h
        exact h.resolve_left fun e => hn e.symm
      simp [insert, hn, ih hr]

theorem insert_of_not_mem (fields : Fields α) {key : String} (value : α)
    (h : key ∉ keys fields) : insert fields key value = fields ++ [(key, value)] := by
  induction fields with
  | nil => rfl
  | cons entry rest ih =>
    obtain ⟨name, old⟩ := entry
    simp only [keys_cons, List.mem_cons, not_or] at h
    have hn : name ≠ key := fun e => h.1 e.symm
    simp [insert, hn, ih h.2]

theorem keys_insert_of_not_mem (fields : Fields α) {key : String} (value : α)
    (h : key ∉ keys fields) : keys (insert fields key value) = keys fields ++ [key] := by
  rw [insert_of_not_mem fields value h]
  simp [keys]

theorem get?_eq_none_iff (fields : Fields α) (key : String) :
    get? fields key = none ↔ key ∉ keys fields := by
  induction fields with
  | nil => simp
  | cons entry rest ih =>
    obtain ⟨name, old⟩ := entry
    by_cases hn : name = key
    · simp [get?, hn]
    · have hn' : ¬key = name := fun e => hn e.symm
      simp [get?, hn, hn', ih]

end Fields

end RestStore
