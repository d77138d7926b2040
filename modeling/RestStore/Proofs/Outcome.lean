import RestStore.Failure

/-!
# Outcomes

What a computation that may fail gives.

* `Outcome.map_eq_ok`, `Outcome.bind_eq_ok` — a result comes from a result of each step.
* `Outcome.map_eq_error` — a failure comes from the step that fails.
* `SameOutcome` — two computations both succeed, with related results, or both fail and tell the
  client the same: `SameOutcome.cases`, `SameOutcome.map`.
-/

set_option autoImplicit false

namespace RestStore

variable {ε α β γ δ : Type}

theorem Outcome.map_eq_ok {f : α → β} {x : Except ε α} {b : β} :
    x.map f = .ok b ↔ ∃ a, x = .ok a ∧ f a = b := by
  cases x <;> simp [Except.map]

theorem Outcome.map_eq_error {f : α → β} {x : Except ε α} {e : ε} :
    x.map f = .error e ↔ x = .error e := by
  cases x <;> simp [Except.map]

theorem Outcome.bind_eq_ok {x : Except ε α} {f : α → Except ε β} {b : β} :
    x >>= f = .ok b ↔ ∃ a, x = .ok a ∧ f a = .ok b := by
  cases x <;> simp [bind, Except.bind]

theorem map_ok_iff {x : Except ε α} {f : α → β} : (∃ b, x.map f = .ok b) ↔ ∃ a, x = .ok a := by
  constructor
  · rintro ⟨_, h⟩
    obtain ⟨a, ha, _⟩ := Outcome.map_eq_ok.1 h
    exact ⟨a, ha⟩
  · rintro ⟨a, ha⟩
    exact ⟨f a, Outcome.map_eq_ok.2 ⟨a, ha, rfl⟩⟩

/-- Both computations succeed, with related results, or both fail with one class and message. -/
def SameOutcome (related : α → β → Prop) : Except Failure α → Except Failure β → Prop
  | .ok a, .ok b => related a b
  | .error f, .error g => f.kind = g.kind ∧ f.message = g.message
  | _, _ => False

namespace SameOutcome

variable {related : α → β → Prop} {x : Except Failure α} {y : Except Failure β}

theorem cases (h : SameOutcome related x y) :
    (∃ a b, x = .ok a ∧ y = .ok b ∧ related a b) ∨
      ∃ f g, x = .error f ∧ y = .error g ∧ f.kind = g.kind ∧ f.message = g.message := by
  cases x <;> cases y
  · exact .inr ⟨_, _, rfl, rfl, h⟩
  · exact h.elim
  · exact h.elim
  · exact .inl ⟨_, _, rfl, rfl, h⟩

theorem map {related' : γ → δ → Prop} {f : α → γ} {g : β → δ} (h : SameOutcome related x y)
    (hfg : ∀ a b, related a b → related' (f a) (g b)) :
    SameOutcome related' (x.map f) (y.map g) := by
  rcases h.cases with ⟨a, b, rfl, rfl, hr⟩ | ⟨_, _, rfl, rfl, he⟩
  · exact hfg a b hr
  · exact he

theorem map_right {g : β → δ} {related' : α → δ → Prop} (h : SameOutcome related x y)
    (hg : ∀ a b, related a b → related' a (g b)) : SameOutcome related' x (y.map g) := by
  rcases h.cases with ⟨a, b, rfl, rfl, hr⟩ | ⟨_, _, rfl, rfl, he⟩
  · exact hg a b hr
  · exact he

theorem refl (x : Except Failure α) : SameOutcome (· = ·) x x := by
  cases x
  · exact ⟨rfl, rfl⟩
  · exact rfl

end SameOutcome

end RestStore
