import RestStore.Proofs.Permission.Positions

/-!
# Permissions derived again

The lists of a permission set, read as lists again, give a set with the same lists and the same
grants: `ids_derived`, `legacy_derived`.

* `nodup_listed` — a list of a set has no repetitions, so reading it again keeps it.
* `mem_legacyGrants_iff_listed` — the two lists decide what the older map holds.
-/

set_option autoImplicit false

namespace RestStore.PermissionSet

/-! ## The older map -/

section

variable {set : PermissionSet}

/-- The ids of a list, none where it was not declared. -/
def listed (set : PermissionSet) (kind : Kind) : List String := (kind.ids set).getD []

theorem mem_listed_iff (h : set.WellFormed) {kind : Kind} {id : String} :
    id ∈ set.listed kind ↔
      ∃ entry ∈ set.entries, entry.id = id ∧ (kind.rank entry).isSome = true := by
  unfold listed
  rw [ids_eq]
  cases hd : kind.declared set with
  | true => exact mem_project_iff
  | false =>
    refine iff_of_false List.not_mem_nil ?_
    rintro ⟨entry, hm, -, hsome⟩
    rw [h.declared kind hd entry hm] at hsome
    cases hsome

theorem ids_ranked_sublist (kind : Kind) : ∀ entries : List PermissionEntry,
    ((ranked kind entries).map Prod.snd).Sublist (entries.map (·.id))
  | [] => .slnil
  | entry :: rest => by
    have later := ids_ranked_sublist kind rest
    unfold ranked at later ⊢
    rw [List.filterMap_cons]
    cases kind.rank entry with
    | none => exact later.cons _
    | some position => exact later.cons_cons _

/-- No id is listed twice. -/
theorem nodup_listed (h : set.WellFormed) (kind : Kind) : (set.listed kind).Nodup := by
  unfold listed
  rw [ids_eq]
  split
  · have hranked := (ids_ranked_sublist kind set.entries).nodup h.nodup
    exact ((List.mergeSort_perm (ranked kind set.entries) _).map Prod.snd).nodup_iff.2 hranked
  · exact List.nodup_nil

theorem eraseDups_of_nodup {ids : List String} (h : ids.Nodup) : ids.eraseDups = ids := by
  induction ids with
  | nil => rfl
  | cons id ids ih =>
    obtain ⟨hid, hrest⟩ := List.nodup_cons.1 h
    have hkeep : (ids.filter fun other => !other == id) = ids := by
      refine List.filter_eq_self.2 fun other hm => ?_
      simpa using fun he : other = id => hid (he ▸ hm)
    rw [List.eraseDups_cons, hkeep, ih hrest]

/-- The names of the grants of an id in the older map. -/
def namesOf (set : PermissionSet) (id : String) : List String :=
  (if id ∈ set.listed .write then ["w"] else []) ++ (if id ∈ set.listed .read then ["r"] else [])

/-- An id is listed as its entry says. -/
theorem isSome_rank_iff (h : set.WellFormed) {entry : PermissionEntry} (hm : entry ∈ set.entries)
    (kind : Kind) : (kind.rank entry).isSome = true ↔ entry.id ∈ set.listed kind := by
  rw [mem_listed_iff h, ← mem_project_iff]
  exact isSome_rank_iff_mem h.nodup hm

theorem grantNames_eq_namesOf (h : set.WellFormed) {entry : PermissionEntry}
    (hm : entry ∈ set.entries) : grantNames entry = set.namesOf entry.id := by
  have hwrite : entry.write.isSome = true ↔ entry.id ∈ set.listed .write :=
    isSome_rank_iff h hm .write
  have hread : entry.read.isSome = true ↔ entry.id ∈ set.listed .read := isSome_rank_iff h hm .read
  unfold grantNames namesOf
  rw [if_congr hwrite rfl rfl, if_congr hread rfl rfl]

/-- **The older map holds what the lists say.** -/
theorem mem_legacyGrants_iff_listed (h : set.WellFormed) {id : String} {names : List String} :
    (id, names) ∈ set.legacyGrants ↔ names = set.namesOf id ∧ names ≠ [] := by
  rw [mem_legacyGrants_iff h]
  constructor
  · rintro ⟨entry, hm, rfl, rfl, hne⟩
    exact ⟨grantNames_eq_namesOf h hm, hne⟩
  · rintro ⟨rfl, hne⟩
    have hentry : ∃ kind : Kind, id ∈ set.listed kind := by
      refine Classical.byContradiction fun hno => hne ?_
      rw [not_exists] at hno
      rw [namesOf, if_neg (hno .write), if_neg (hno .read)]
      rfl
    obtain ⟨kind, hin⟩ := hentry
    obtain ⟨entry, hm, rfl, -⟩ := (mem_listed_iff h).1 hin
    exact ⟨entry, hm, rfl, grantNames_eq_namesOf h hm, hne⟩

/-- The set that the lists of a set give. -/
def derived (set : PermissionSet) : PermissionSet := ofLists set.readIds set.writeIds

theorem wellFormed_derived (set : PermissionSet) : set.derived.WellFormed := wellFormed_ofLists _ _

/-- **The derived set has the same lists.** -/
theorem ids_derived (h : set.WellFormed) (kind : Kind) : kind.ids set.derived = kind.ids set := by
  have hsame : (set.listed kind).eraseDups = set.listed kind :=
    eraseDups_of_nodup (nodup_listed h kind)
  have hderived : kind.ids set.derived = (kind.ids set).map List.eraseDups :=
    ids_ofLists (fun kind => kind.ids set) kind
  rw [hderived]
  unfold listed at hsame
  cases hids : kind.ids set with
  | none => rfl
  | some ids =>
    rw [hids] at hsame
    exact congrArg some hsame

theorem namesOf_derived (h : set.WellFormed) (id : String) :
    set.derived.namesOf id = set.namesOf id := by
  unfold namesOf listed
  rw [ids_derived h .write, ids_derived h .read]

theorem nodup_legacyGrants (set : PermissionSet) : (Fields.keys set.legacyGrants).Nodup :=
  Fields.nodup_ofList _

/-- **The derived set has the same grants**, perhaps in another order. -/
theorem legacyGrants_derived (h : set.WellFormed) :
    set.derived.legacyGrants.Perm set.legacyGrants := by
  refine (List.perm_ext_iff_of_nodup (nodup_legacyGrants _).of_map
    (nodup_legacyGrants _).of_map).2 fun ⟨id, names⟩ => ?_
  rw [mem_legacyGrants_iff_listed (wellFormed_derived set), mem_legacyGrants_iff_listed h,
    namesOf_derived h]

/-- **The derived set has the same older map**, perhaps in another order. -/
theorem legacy_derived (h : set.WellFormed) : set.derived.legacy.Perm set.legacy :=
  (legacyGrants_derived h).map _

end

end RestStore.PermissionSet
