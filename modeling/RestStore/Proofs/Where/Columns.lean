import RestStore.Proofs.Column
import RestStore.Proofs.Outcome
import RestStore.Where

/-!
# The columns of a clause

A key of a clause compiles to an entry under its own column, under `$text` or under `$nor`:
`entry_name`. The column determines the key, so different keys have different columns:
`column_injective`. The one exception is the reserved name `timesUsed`, whose column `times_used`
is also the column of a field of that name.
-/

set_option autoImplicit false

namespace RestStore.Where

/-- The column that a key of a clause compares; a combinator stands for itself. -/
def column (schema : Schema) (key : String) : String :=
  if isCombinator key then key
  else if key = objectIdKey then idColumn
  else (verbatimColumn? key).getD (Column.forQuery schema key)

/-- The key whose column has a name. -/
def keyOfColumn (name : String) : String :=
  match dropStart? pointerStart name, dropStart? authStart name with
  | some key, _ => key
  | none, some login => "authData." ++ login
  | none, none =>
    match Column.reserved.find? fun entry => entry.2.name == name with
    | some entry => entry.1
    | none => name

/-- Keys up to the two names of one column. -/
def canonicalKey (key : String) : String := if key = "times_used" then "timesUsed" else key

/-! ## From columns back to keys -/

theorem keyOfColumn_pointer (key : String) : keyOfColumn (pointerStart ++ key) = key := by
  unfold keyOfColumn
  rw [dropStart?_eq_some_iff.2 rfl]

theorem keyOfColumn_auth (login : String) :
    keyOfColumn (authStart ++ login) = "authData." ++ login := by
  have hp : dropStart? pointerStart (authStart ++ login) = none := by
    simp [dropStart?, pointerStart, authStart, List.isPrefixOf?]
  unfold keyOfColumn
  rw [hp, dropStart?_eq_some_iff.2 rfl]

/-- A field whose column has its own name; only `times_used` is reserved for another. -/
theorem keyOfColumn_plain {key : String} (h : hasStart "_" key = false) :
    keyOfColumn key = canonicalKey key := by
  have hne : ∀ start, hasStart "_" start = true → (start == key) = false := fun start hs =>
    beq_eq_false_iff_ne.2 (ne_of_hasStart hs h)
  have hreserved : Column.reserved.find? (fun entry => entry.2.name == key) =
      if "times_used" = key then some ("timesUsed", ⟨"times_used", .plain⟩) else none := by
    simp only [Column.reserved, List.find?_cons,
      hne _ (show hasStart "_" idColumn = true by decide),
      hne _ (show hasStart "_" "_created_at" = true by decide),
      hne _ (show hasStart "_" "_updated_at" = true by decide),
      hne _ (show hasStart "_" "_session_token" = true by decide),
      hne _ (show hasStart "_" "_last_used" = true by decide), List.find?_nil]
    by_cases ht : "times_used" = key
    · rw [if_pos ht, beq_iff_eq.2 ht]
    · rw [if_neg ht, beq_eq_false_iff_ne.2 ht]
  unfold keyOfColumn canonicalKey
  rw [dropStart?_eq_none (show hasStart "_" pointerStart = true by decide) h,
    dropStart?_eq_none (show hasStart "_" authStart = true by decide) h, hreserved]
  by_cases ht : "times_used" = key
  · simp only [if_pos ht, if_pos ht.symm]
  · simp only [if_neg ht, if_neg (Ne.symm ht)]

/-! ## Columns of keys -/

theorem verbatimColumn?_cases {key : String} (h : hasStart "_" key = false) :
    key = "sessionToken" ∧ verbatimColumn? key = some "_session_token" ∨
      key = "timesUsed" ∧ verbatimColumn? key = some "times_used" ∨
      (∃ provider, key = "authData." ++ (provider ++ ".id") ∧
        verbatimColumn? key = some (authStart ++ provider ++ ".id")) ∨
      key ≠ "sessionToken" ∧ key ≠ "timesUsed" ∧ verbatimColumn? key = none := by
  have hkeys : key ∉ verbatimKeys := by
    intro hmem
    simp only [verbatimKeys, List.mem_cons, List.not_mem_nil, or_false] at hmem
    rcases hmem with rfl | rfl | rfl | rfl | rfl <;> exact absurd h (by decide)
  unfold verbatimColumn?
  by_cases hs : key = "sessionToken"
  · exact .inl ⟨hs, by rw [if_pos hs]⟩
  by_cases ht : key = "timesUsed"
  · exact .inr (.inl ⟨ht, by rw [if_neg hs, if_pos ht]⟩)
  rw [if_neg hs, if_neg ht, if_neg hkeys]
  cases ha : authIdProvider? key with
  | none => exact .inr (.inr (.inr ⟨hs, ht, rfl⟩))
  | some provider => exact .inr (.inr (.inl ⟨provider, (authIdProvider?_eq_some ha).1, rfl⟩))

theorem canonicalKey_canonicalKey (key : String) :
    canonicalKey (canonicalKey key) = canonicalKey key := by
  unfold canonicalKey
  split <;> rfl

/-- The column of a key leads back to the key. -/
theorem canonicalKey_keyOfColumn (schema : Schema) {key : String} (h : hasStart "_" key = false) :
    canonicalKey (keyOfColumn (column schema key)) = canonicalKey key := by
  have hplain : canonicalKey (keyOfColumn key) = canonicalKey key := by
    rw [keyOfColumn_plain h, canonicalKey_canonicalKey]
  unfold column
  split
  · exact hplain
  split
  · rename_i hid
    subst hid
    rfl
  · rename_i hid
    rcases verbatimColumn?_cases h with ⟨rfl, hv⟩ | ⟨rfl, hv⟩ | ⟨provider, rfl, hv⟩ | ⟨hs, ht, hv⟩
    · rw [hv, Option.getD_some]
      rfl
    · rw [hv, Option.getD_some]
      rfl
    · rw [hv, Option.getD_some, String.append_assoc, keyOfColumn_auth]
    · rw [hv, Option.getD_none]
      unfold Column.forQuery
      split
      · rename_i reserved hr
        rcases reserved?_cases hr with
          ⟨e, _⟩ | ⟨rfl, rfl⟩ | ⟨rfl, rfl⟩ | ⟨e, _⟩ | ⟨rfl, rfl⟩ | ⟨e, _⟩
        · exact absurd e hid
        · rfl
        · rfl
        · exact absurd e hs
        · rfl
        · exact absurd e ht
      · split
        · rw [keyOfColumn_pointer]
        · exact hplain

/-- **Different keys have different columns**, apart from the two names of `times_used`. -/
theorem column_injective (schema : Schema) {first second : String}
    (hfirst : hasStart "_" first = false) (hsecond : hasStart "_" second = false)
    (h : column schema first = column schema second) :
    canonicalKey first = canonicalKey second := by
  rw [← canonicalKey_keyOfColumn schema hfirst, h, canonicalKey_keyOfColumn schema hsecond]

/-- Two keys with one canonical form are equal or the two names of `times_used`. -/
theorem canonicalKey_eq_cases {first second : String}
    (h : canonicalKey first = canonicalKey second) :
    first = second ∨ first = "timesUsed" ∧ second = "times_used" ∨
      first = "times_used" ∧ second = "timesUsed" := by
  unfold canonicalKey at h
  split at h <;> split at h
  · rename_i hf hs
    exact .inl (hf.trans hs.symm)
  · rename_i hf _
    exact .inr (.inr ⟨hf, h.symm⟩)
  · rename_i _ hs
    exact .inr (.inl ⟨h, hs⟩)
  · exact .inl h

end RestStore.Where
