/-!
# Order of texts

Texts in the order of their code points, which is also the order of their UTF-8 bytes. The order
is strict and total: `comesBefore_irrefl`, `comesBefore_trans`, `comesBefore_of_not`.
-/

set_option autoImplicit false

namespace RestStore

/-- Whether a text stands before another: at the first difference the smaller code point decides,
and a text stands before its continuations. -/
def comesBefore : List Char → List Char → Bool
  | [], [] => false
  | [], _ :: _ => true
  | _ :: _, [] => false
  | a :: as, b :: bs => decide (a.toNat < b.toNat) || (a == b && comesBefore as bs)

/-- The order on strings. -/
def textBefore (a b : String) : Bool := comesBefore a.toList b.toList

theorem comesBefore_irrefl (cs : List Char) : comesBefore cs cs = false := by
  induction cs with
  | nil => rfl
  | cons c rest ih => simp [comesBefore, ih]

theorem comesBefore_trans {as bs cs : List Char} (h₁ : comesBefore as bs = true)
    (h₂ : comesBefore bs cs = true) : comesBefore as cs = true := by
  induction as generalizing bs cs with
  | nil =>
    cases bs with
    | nil => simp [comesBefore] at h₁
    | cons b bs =>
      cases cs with
      | nil => simp [comesBefore] at h₂
      | cons c cs => rfl
  | cons a as ih =>
    cases bs with
    | nil => simp [comesBefore] at h₁
    | cons b bs =>
      cases cs with
      | nil => simp [comesBefore] at h₂
      | cons c cs =>
        simp only [comesBefore, Bool.or_eq_true, Bool.and_eq_true, decide_eq_true_eq,
          beq_iff_eq] at h₁ h₂ ⊢
        rcases h₁ with h₁ | ⟨e₁, h₁⟩
        · rcases h₂ with h₂ | ⟨e₂, _⟩
          · exact .inl (Nat.lt_trans h₁ h₂)
          · exact .inl (e₂ ▸ h₁)
        · rcases h₂ with h₂ | ⟨e₂, h₂⟩
          · exact .inl (e₁ ▸ h₂)
          · exact .inr ⟨e₁.trans e₂, ih h₁ h₂⟩

theorem comesBefore_of_not {as bs : List Char} (h : comesBefore as bs = false) (hne : as ≠ bs) :
    comesBefore bs as = true := by
  induction as generalizing bs with
  | nil =>
    cases bs with
    | nil => exact absurd rfl hne
    | cons b bs => simp [comesBefore] at h
  | cons a as ih =>
    cases bs with
    | nil => rfl
    | cons b bs =>
      simp only [comesBefore, Bool.or_eq_false_iff, decide_eq_false_iff_not, Nat.not_lt,
        Bool.and_eq_false_iff, beq_eq_false_iff_ne] at h
      simp only [comesBefore, Bool.or_eq_true, Bool.and_eq_true, decide_eq_true_eq, beq_iff_eq]
      by_cases e : a = b
      · subst e
        have tail : as ≠ bs := fun t => hne (by rw [t])
        have unordered : comesBefore as bs = false := h.2.resolve_left fun n => n rfl
        exact .inr ⟨rfl, ih unordered tail⟩
      · have apart : a.toNat ≠ b.toNat := fun t => e (Char.toNat_inj.mp t)
        exact .inl (Nat.lt_of_le_of_ne h.1 apart.symm)

end RestStore
