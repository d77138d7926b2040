import RestStore.Proofs.Text.Affix
import RestStore.Write.Create

/-!
# Names of fields and of columns

* `reserved?_cases` — the six reserved names with their columns.
* `role_forUpdate_iff` — the names that hold permissions in an update.
* `timeColumn?_cases` — the instants that clients may write.
* `hasStart_of_authColumn`, `isPath_of_authId` — the columns of login data begin with an
  underscore, and the keys that query them are paths.
* `verbatimColumn?_cases` — what is stored as given.
* `column?_plain` — every other field of a client is an ordinary one.

A client's own fields do not begin with an underscore; `hasStart "_" key = false` says so.
-/

set_option autoImplicit false

namespace RestStore

/-! ## Reserved names -/

theorem reserved?_cases {key : String} {column : Column} (h : Column.reserved? key = some column) :
    key = objectIdKey ∧ column = ⟨idColumn, .objectId⟩ ∨
      key = "createdAt" ∧ column = ⟨"_created_at", .time⟩ ∨
      key = "updatedAt" ∧ column = ⟨"_updated_at", .time⟩ ∨
      key = "sessionToken" ∧ column = ⟨"_session_token", .plain⟩ ∨
      key = "lastUsed" ∧ column = ⟨"_last_used", .time⟩ ∨
      key = "timesUsed" ∧ column = ⟨"times_used", .plain⟩ := by
  simp only [Column.reserved?, Column.reserved, Fields.get?_cons, Fields.get?_nil] at h
  split at h
  · rename_i e
    exact .inl ⟨e.symm, (Option.some.inj h).symm⟩
  split at h
  · rename_i e
    exact .inr (.inl ⟨e.symm, (Option.some.inj h).symm⟩)
  split at h
  · rename_i e
    exact .inr (.inr (.inl ⟨e.symm, (Option.some.inj h).symm⟩))
  split at h
  · rename_i e
    exact .inr (.inr (.inr (.inl ⟨e.symm, (Option.some.inj h).symm⟩)))
  split at h
  · rename_i e
    exact .inr (.inr (.inr (.inr (.inl ⟨e.symm, (Option.some.inj h).symm⟩))))
  split at h
  · rename_i e
    exact .inr (.inr (.inr (.inr (.inr ⟨e.symm, (Option.some.inj h).symm⟩))))
  · cases h

/-- **The permission lists are the only fields that an update treats as permissions.** -/
theorem role_forUpdate_iff {schema : Schema} {key : String} {value : Rest} :
    (Column.forUpdate schema key value).role = .permission ↔
      key = readersColumn ∨ key = writersColumn := by
  constructor
  · intro h
    unfold Column.forUpdate at h
    split at h
    · rename_i column hr
      rcases reserved?_cases hr with
        ⟨_, rfl⟩ | ⟨_, rfl⟩ | ⟨_, rfl⟩ | ⟨_, rfl⟩ | ⟨_, rfl⟩ | ⟨_, rfl⟩ <;> cases h
    · split at h
      · cases h
      · split at h
        · rename_i hlist
          exact hlist
        · split at h
          · cases h
          · cases h
  · rintro (rfl | rfl)
    · rfl
    · rfl

/-- The instants that a client may write, with their columns. -/
theorem timeColumn?_cases {key column : String} (h : Create.timeColumn? key = some column)
    (hs : hasStart "_" key = false) :
    key = "createdAt" ∧ column = "_created_at" ∨ key = "updatedAt" ∧ column = "_updated_at" ∨
      key = "lastUsed" ∧ column = "_last_used" ∨ key = "expiresAt" ∧ column = "expiresAt" := by
  unfold Create.timeColumn? at h
  split at h
  · rename_i reserved hr
    rcases reserved?_cases hr with
      ⟨_, rfl⟩ | ⟨rfl, rfl⟩ | ⟨rfl, rfl⟩ | ⟨_, rfl⟩ | ⟨rfl, rfl⟩ | ⟨_, rfl⟩
    · cases h
    · exact .inl ⟨rfl, (Option.some.inj h).symm⟩
    · exact .inr (.inl ⟨rfl, (Option.some.inj h).symm⟩)
    · cases h
    · exact .inr (.inr (.inl ⟨rfl, (Option.some.inj h).symm⟩))
    · cases h
  · split at h
    · rename_i hmem
      simp only [internalTimes, List.mem_cons, List.not_mem_nil, or_false] at hmem
      rcases hmem with rfl | rfl | rfl | rfl | rfl
      · exact .inr (.inr (.inr ⟨rfl, (Option.some.inj h).symm⟩))
      all_goals exact absurd hs (by decide)
    · cases h

/-! ## Pointers -/

/-- The name of a column of a pointer begins with an underscore. -/
theorem hasStart_pointerColumn (key : String) : hasStart "_" (pointerStart ++ key) = true :=
  hasStart_iff.2 ⟨"p_" ++ key, by simp [pointerStart, ← String.append_assoc]⟩

/-! ## Login data -/

theorem authColumnProvider?_eq_some {key provider : String}
    (h : authColumnProvider? key = some provider) :
    key = authStart ++ provider ∧ isProviderName provider = true := by
  unfold authColumnProvider? at h
  rw [Option.filter_eq_some_iff] at h
  exact ⟨dropStart?_eq_some_iff.1 h.1, h.2⟩

theorem authIdProvider?_eq_some {key provider : String}
    (h : authIdProvider? key = some provider) :
    key = "authData." ++ (provider ++ ".id") ∧ isProviderName provider = true := by
  unfold authIdProvider? at h
  rw [Option.filter_eq_some_iff, Option.bind_eq_some_iff] at h
  obtain ⟨⟨rest, hrest, hprovider⟩, hname⟩ := h
  refine ⟨?_, hname⟩
  rw [dropStart?_eq_some_iff.1 hrest, dropEnd?_eq_some_iff.1 hprovider]

/-- The name of a column of login data begins with an underscore. -/
theorem hasStart_of_authColumn {key : String} (h : (authColumnProvider? key).isSome = true) :
    hasStart "_" key = true := by
  obtain ⟨provider, hp⟩ := Option.isSome_iff_exists.1 h
  rw [(authColumnProvider?_eq_some hp).1]
  exact hasStart_iff.2 ⟨"auth_data_" ++ provider, by simp [authStart, ← String.append_assoc]⟩

/-- The key that queries login data is a path. -/
theorem isPath_of_authId {key : String} (h : (authIdProvider? key).isSome = true) :
    Column.isPath key = true := by
  obtain ⟨provider, hp⟩ := Option.isSome_iff_exists.1 h
  rw [(authIdProvider?_eq_some hp).1]
  simp [Column.isPath]

theorem authColumnProvider?_eq_none {key : String} (hs : hasStart "_" key = false) :
    authColumnProvider? key = none := by
  rw [← Option.not_isSome_iff_eq_none]
  intro h
  rw [hasStart_of_authColumn h] at hs
  cases hs

theorem authIdProvider?_eq_none {key : String} (hp : Column.isPath key = false) :
    authIdProvider? key = none := by
  rw [← Option.not_isSome_iff_eq_none]
  intro h
  rw [isPath_of_authId h] at hp
  cases hp

/-! ## Fields stored as given -/

/-- Of a client's own fields only the id and the session token are stored as given. -/
theorem verbatimColumn?_cases {key : String} (hs : hasStart "_" key = false) :
    key = objectIdKey ∧ Create.verbatimColumn? key = some idColumn ∨
      key = "sessionToken" ∧ Create.verbatimColumn? key = some "_session_token" ∨
      key ≠ objectIdKey ∧ key ≠ "sessionToken" ∧ Create.verbatimColumn? key = none := by
  have hkeys : key ∉ Create.verbatimKeys := by
    intro hmem
    simp only [Create.verbatimKeys, List.mem_cons, List.not_mem_nil, or_false] at hmem
    rcases hmem with rfl | rfl | rfl | rfl <;> exact absurd hs (by decide)
  unfold Create.verbatimColumn?
  by_cases hid : key = objectIdKey
  · exact .inl ⟨hid, by rw [if_pos hid]⟩
  · rw [if_neg hid, if_neg (by simp [hkeys, authColumnProvider?_eq_none hs])]
    by_cases htoken : key = "sessionToken"
    · exact .inr (.inl ⟨htoken, by rw [if_pos htoken]⟩)
    · exact .inr (.inr ⟨hid, htoken, by rw [if_neg htoken]⟩)

/-! ## Ordinary fields -/

/-- The instants that a client may write. -/
def timeKeys : List String := ["createdAt", "updatedAt", "lastUsed", "expiresAt"]

theorem timeColumn?_eq_none {key : String} (hs : hasStart "_" key = false)
    (ht : key ∉ timeKeys) : Create.timeColumn? key = none := by
  rw [Option.eq_none_iff_forall_ne_some]
  intro column hc
  apply ht
  rcases timeColumn?_cases hc hs with ⟨rfl, _⟩ | ⟨rfl, _⟩ | ⟨rfl, _⟩ | ⟨rfl, _⟩ <;> decide

/-- A field that is neither an id nor a token nor an instant nor login data is an ordinary one. -/
theorem column?_plain {target : Target} {key : String} (value : Rest)
    (hs : hasStart "_" key = false) (hid : key ≠ objectIdKey) (htoken : key ≠ "sessionToken")
    (ht : key ∉ timeKeys) (hauth : authIdProvider? key = none) :
    Create.column? target key value =
      (Create.plainValue? target key value).map fun native =>
        native.map fun native => (Create.plainColumn target key value, native) := by
  have hverbatim : Create.verbatimColumn? key = none := by
    rcases verbatimColumn?_cases hs with ⟨h, _⟩ | ⟨h, _⟩ | ⟨_, _, h⟩
    · exact absurd h hid
    · exact absurd h htoken
    · exact h
  unfold Create.column?
  rw [hverbatim, timeColumn?_eq_none hs ht, hauth]
  rfl

end RestStore
