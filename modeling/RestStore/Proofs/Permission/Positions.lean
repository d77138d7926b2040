import Mathlib.Data.List.Nodup
import RestStore.Proofs.Permission.Grants

/-!
# The positions of grants

Two lists of ids, repetitions included, are recorded as positions: each id keeps the position of its
first place. So the lists come out again, each id once: `ids_ofLists`.

* `ranked_adjust` — a grant records its position, for its id.
* `project_of_increasing` — positions that increase give the ids in their order.
* `Progress` — what is recorded after a part of a list: `Progress.grant` for one more id,
  `progress_grantList` for the rest of the list.
* `map_held_ofLists` — the grants of all ids, those of the writers first.
-/

set_option autoImplicit false

namespace RestStore.PermissionSet

namespace Kind

/-- Grants at a position, unless it is granted already. -/
def grant : Kind → Nat → PermissionEntry → PermissionEntry
  | read => grantRead
  | write => grantWrite

variable (kind : Kind) (position : Nat) {entry : PermissionEntry}

theorem id_grant (entry : PermissionEntry) : (kind.grant position entry).id = entry.id := by
  cases kind <;> rfl

theorem rank_grant (h : kind.rank entry = none) :
    kind.rank (kind.grant position entry) = some position := by
  cases kind with
  | read => exact congrArg (Option.or · (some position)) h
  | write => exact congrArg (Option.or · (some position)) h

theorem rank_grant_other {other : Kind} (hne : other ≠ kind) (entry : PermissionEntry) :
    other.rank (kind.grant position entry) = other.rank entry := by
  cases kind <;> cases other <;> first | rfl | exact absurd rfl hne

theorem rank_new (id : String) : kind.rank ⟨id, none, none⟩ = none := by
  cases kind <;> rfl

/-- The one of two values that belongs to the kind. -/
def pick {α : Type} (ofRead ofWrite : α) : Kind → α
  | read => ofRead
  | write => ofWrite

end Kind

/-- The id of an entry and what it grants. -/
def held (entry : PermissionEntry) : String × AclGrant :=
  (entry.id, ⟨entry.read.isSome, entry.write.isSome⟩)

/-! ## Recording -/

/-- The positions of the grants of a kind, each with its id. -/
def ranked (kind : Kind) (entries : List PermissionEntry) : List (Nat × String) :=
  entries.filterMap fun entry => (kind.rank entry).map fun position => (position, entry.id)

section

variable {kind : Kind}

/-- **A grant to an id that has none of its kind** records the position. -/
theorem ranked_adjust (id : String) (position : Nat) : ∀ {entries : List PermissionEntry},
    (∀ entry ∈ entries, entry.id = id → kind.rank entry = none) →
      (ranked kind (adjust id (kind.grant position) entries)).Perm
        ((position, id) :: ranked kind entries)
  | [], _ => by
    simp [ranked, adjust, kind.rank_grant position (kind.rank_new id), kind.id_grant]
  | entry :: rest, h => by
    unfold adjust
    split
    · rename_i he
      have hnone := h entry List.mem_cons_self he
      have hboth : ranked kind (kind.grant position entry :: rest) =
          (position, id) :: ranked kind (entry :: rest) := by
        unfold ranked
        rw [List.filterMap_cons, List.filterMap_cons, kind.rank_grant position hnone, hnone,
          kind.id_grant, he]
        rfl
      rw [hboth]
    · have later := ranked_adjust id position fun entry hm => h entry (List.mem_cons_of_mem _ hm)
      unfold ranked at later ⊢
      rw [List.filterMap_cons, List.filterMap_cons]
      cases kind.rank entry with
      | none => exact later
      | some old => exact (later.cons _).trans (.swap _ _ _)

/-- A grant of the other kind records nothing. -/
theorem ranked_adjust_other {other : Kind} (hne : kind ≠ other) (id : String) (position : Nat) :
    ∀ entries : List PermissionEntry,
      ranked kind (adjust id (other.grant position) entries) = ranked kind entries
  | [] => by
    simp [ranked, adjust, other.rank_grant_other position hne, kind.rank_new]
  | entry :: rest => by
    have later := ranked_adjust_other hne id position rest
    unfold ranked at later ⊢
    unfold adjust
    split
    · rw [List.filterMap_cons, List.filterMap_cons, other.rank_grant_other position hne,
        other.id_grant]
    · rw [List.filterMap_cons, List.filterMap_cons, later]

theorem ranked_grantList_other {other : Kind} (hne : kind ≠ other) :
    ∀ (ids : List String) (start : Nat) (entries : List PermissionEntry),
      ranked kind (grantList other.grant start ids entries) = ranked kind entries
  | [], _, _ => rfl
  | id :: ids, start, entries => by
    unfold grantList
    rw [ranked_grantList_other hne ids, ranked_adjust_other hne]

end

/-- **Positions that increase** give the ids in their order. -/
theorem project_of_increasing {kind : Kind} {entries : List PermissionEntry}
    {positions : List (Nat × String)} (h : (ranked kind entries).Perm positions)
    (hincreasing : positions.Pairwise fun first second => first.1 < second.1) :
    project kind.rank entries = positions.map Prod.snd := by
  have hsorted : (ranked kind entries).mergeSort (fun a b => decide (a.1 ≤ b.1)) = positions := by
    have hperm := (List.mergeSort_perm (ranked kind entries) fun a b => decide (a.1 ≤ b.1)).trans h
    refine List.Perm.eq_of_pairwise (fun a b ha hb hab hba => ?_)
      (List.pairwise_mergeSort ?_ ?_ _) (hincreasing.imp ?_) hperm
    · have hdistinct : (positions.map Prod.fst).Nodup :=
        List.pairwise_map.2 (hincreasing.imp Nat.ne_of_lt)
      exact List.inj_on_of_nodup_map hdistinct (hperm.mem_iff.1 ha) hb
        (Nat.le_antisymm (of_decide_eq_true hab) (of_decide_eq_true hba))
    · intro a b c hab hbc
      exact decide_eq_true (Nat.le_trans (of_decide_eq_true hab) (of_decide_eq_true hbc))
    · intro a b
      simpa using Nat.le_total a.1 b.1
    · intro a b hab
      exact decide_eq_true (Nat.le_of_lt hab)
  calc project kind.rank entries
    _ = ((ranked kind entries).mergeSort fun a b => decide (a.1 ≤ b.1)).map Prod.snd := rfl
    _ = positions.map Prod.snd := by rw [hsorted]

/-- An id has one entry, so it is listed as its entry says. -/
theorem isSome_rank_iff_mem {kind : Kind} {entries : List PermissionEntry}
    (h : (entries.map (·.id)).Nodup) {entry : PermissionEntry} (hm : entry ∈ entries) :
    (kind.rank entry).isSome = true ↔ entry.id ∈ project kind.rank entries := by
  rw [mem_project_iff]
  constructor
  · exact fun hsome => ⟨entry, hm, rfl, hsome⟩
  · rintro ⟨other, ho, hid, hsome⟩
    rwa [← List.inj_on_of_nodup_map h ho hm hid]

/-! ## Lists with repetitions -/

section

variable {id : String} {change : PermissionEntry → PermissionEntry}

theorem adjust_of_not_mem : ∀ {entries : List PermissionEntry}, id ∉ entries.map (·.id) →
    adjust id change entries = entries ++ [change ⟨id, none, none⟩]
  | [], _ => rfl
  | entry :: rest, h => by
    rw [List.map_cons, List.mem_cons, not_or] at h
    unfold adjust
    rw [if_neg (Ne.symm h.1), adjust_of_not_mem h.2, List.cons_append]

theorem map_id_adjust_of_mem (hid : ∀ entry, (change entry).id = entry.id) :
    ∀ {entries : List PermissionEntry}, id ∈ entries.map (·.id) →
      (adjust id change entries).map (·.id) = entries.map (·.id)
  | entry :: rest, h => by
    unfold adjust
    split
    · rw [List.map_cons, List.map_cons, hid]
    · rename_i hne
      rw [List.map_cons, List.mem_cons] at h
      rw [List.map_cons, List.map_cons, map_id_adjust_of_mem hid (h.resolve_left (Ne.symm hne))]

/-- A change that keeps the entry of an id keeps all entries. -/
theorem adjust_eq_self : ∀ {entries : List PermissionEntry}, id ∈ entries.map (·.id) →
    (∀ entry ∈ entries, entry.id = id → change entry = entry) → adjust id change entries = entries
  | entry :: rest, h, hkeep => by
    unfold adjust
    split
    · rename_i he
      rw [hkeep entry List.mem_cons_self he]
    · rename_i hne
      rw [List.map_cons, List.mem_cons] at h
      rw [adjust_eq_self (h.resolve_left (Ne.symm hne)) fun later hm =>
        hkeep later (List.mem_cons_of_mem _ hm)]

end

theorem eraseDups_concat_of_mem {seen : List String} {id : String} (h : id ∈ seen) :
    (seen ++ [id]).eraseDups = seen.eraseDups := by
  rw [List.eraseDups_append]
  simp [List.removeAll, h]

theorem eraseDups_concat_of_not_mem {seen : List String} {id : String} (h : id ∉ seen) :
    (seen ++ [id]).eraseDups = seen.eraseDups ++ [id] := by
  rw [List.eraseDups_append]
  simp [List.removeAll, h, List.eraseDups_cons]

/-- A grant that is there is kept. -/
theorem Kind.grant_of_isSome (kind : Kind) (position : Nat) {entry : PermissionEntry}
    (h : (kind.rank entry).isSome = true) : kind.grant position entry = entry := by
  obtain ⟨old, hold⟩ := Option.isSome_iff_exists.1 h
  obtain ⟨id, read, write⟩ := entry
  cases kind with
  | read => cases hold; rfl
  | write => cases hold; rfl

/-- **What is recorded** after `seen`, a part of a list of one kind, where `earlier` was recorded
for the other kind: each id once, and the positions of the kind in the order of the list. -/
structure Progress (kind : Kind) (earlier seen : List String) (bound : Nat)
    (entries : List PermissionEntry) : Prop where
  ids : entries.map (·.id) = (earlier ++ seen).eraseDups
  nodup : (entries.map (·.id)).Nodup
  recorded : ∃ positions : List (Nat × String), (ranked kind entries).Perm positions ∧
    positions.map Prod.snd = seen.eraseDups ∧
    positions.Pairwise (fun first second => first.1 < second.1) ∧
    ∀ own ∈ positions, own.1 < bound

namespace Progress

variable {kind : Kind} {earlier seen : List String} {bound : Nat} {entries : List PermissionEntry}

/-- The list of the kind. -/
theorem project_eq (h : Progress kind earlier seen bound entries) :
    project kind.rank entries = seen.eraseDups := by
  obtain ⟨positions, hperm, hids, hincreasing, -⟩ := h.recorded
  rw [project_of_increasing hperm hincreasing, hids]

/-- An id has a grant of the kind when it was seen. -/
theorem isSome_rank_iff (h : Progress kind earlier seen bound entries) {entry : PermissionEntry}
    (hm : entry ∈ entries) : (kind.rank entry).isSome = true ↔ entry.id ∈ seen := by
  rw [isSome_rank_iff_mem h.nodup hm, h.project_eq, List.mem_eraseDups]

/-- The ids after one more. -/
theorem map_id_adjust (h : Progress kind earlier seen bound entries) (id : String) :
    (adjust id (kind.grant bound) entries).map (·.id) = (earlier ++ (seen ++ [id])).eraseDups := by
  rw [← List.append_assoc]
  by_cases hin : id ∈ earlier ++ seen
  · have hheld : id ∈ entries.map (·.id) := by rwa [h.ids, List.mem_eraseDups]
    rw [map_id_adjust_of_mem (kind.id_grant bound) hheld, eraseDups_concat_of_mem hin, h.ids]
  · have hnew : id ∉ entries.map (·.id) := by rwa [h.ids, List.mem_eraseDups]
    rw [adjust_of_not_mem hnew, eraseDups_concat_of_not_mem hin, List.map_append, h.ids,
      List.map_singleton, kind.id_grant]

/-- **The grant of one more id** at the next position. -/
theorem grant (h : Progress kind earlier seen bound entries) (id : String) :
    Progress kind earlier (seen ++ [id]) (bound + 1) (adjust id (kind.grant bound) entries) := by
  refine ⟨h.map_id_adjust id, nodup_adjust (kind.id_grant bound) h.nodup, ?_⟩
  obtain ⟨positions, hperm, hids, hincreasing, hbound⟩ := h.recorded
  by_cases hin : id ∈ seen
  · -- the id keeps its first position
    have hheld : id ∈ entries.map (·.id) := by
      rw [h.ids, List.mem_eraseDups]
      exact List.mem_append_right _ hin
    have hsame : adjust id (kind.grant bound) entries = entries :=
      adjust_eq_self hheld fun entry hm he =>
        kind.grant_of_isSome bound ((h.isSome_rank_iff hm).2 (he ▸ hin))
    rw [hsame, eraseDups_concat_of_mem hin]
    exact ⟨positions, hperm, hids, hincreasing, fun own hm => Nat.lt_succ_of_lt (hbound own hm)⟩
  · have hfree : ∀ entry ∈ entries, entry.id = id → kind.rank entry = none := by
      intro entry hm he
      rw [← Option.not_isSome_iff_eq_none, h.isSome_rank_iff hm, he]
      exact hin
    refine ⟨positions ++ [(bound, id)], ?_, ?_, ?_, ?_⟩
    · calc ranked kind (adjust id (kind.grant bound) entries)
        _ |>.Perm ((bound, id) :: ranked kind entries) := ranked_adjust id bound hfree
        _ |>.Perm ((bound, id) :: positions) := hperm.cons _
        _ |>.Perm (positions ++ [(bound, id)]) := (List.perm_append_singleton _ _).symm
    · rw [List.map_append, hids, eraseDups_concat_of_not_mem hin]
      rfl
    · refine List.pairwise_append.2 ⟨hincreasing, List.pairwise_singleton _ _, ?_⟩
      intro own hm last hl
      rw [List.mem_singleton.1 hl]
      exact hbound own hm
    · intro own hm
      rcases List.mem_append.1 hm with hm | hm
      · exact Nat.lt_succ_of_lt (hbound own hm)
      · rw [List.mem_singleton.1 hm]
        exact Nat.lt_succ_self _

end Progress

/-- **The grants of the rest of a list.** -/
theorem progress_grantList {kind : Kind} {earlier : List String} : ∀ (ids : List String)
    {seen : List String} {bound : Nat} {entries : List PermissionEntry},
      Progress kind earlier seen bound entries →
        Progress kind earlier (seen ++ ids) (bound + ids.length)
          (grantList kind.grant bound ids entries)
  | [], seen, bound, entries, h => by
    rw [List.append_nil]
    exact h
  | id :: ids, seen, bound, entries, h => by
    have later := progress_grantList ids (h.grant id)
    rwa [List.append_assoc, Nat.add_right_comm] at later

/-- The entries after the writers. -/
theorem progress_writers (ids : List String) :
    Progress .write [] ids ids.length (grantList grantWrite 0 ids []) := by
  have hempty : Progress .write [] [] 0 [] :=
    ⟨rfl, .nil, [], .refl _, rfl, .nil, List.forall_mem_nil _⟩
  have later := progress_grantList ids hempty
  rwa [List.nil_append, Nat.zero_add] at later

/-- The entries after the readers, who join the writers. -/
theorem progress_readers (readers writers : List String) :
    Progress .read writers readers readers.length
      (grantList grantRead 0 readers (grantList grantWrite 0 writers [])) := by
  have hwriters := progress_writers writers
  have hnone : ranked .read (grantList grantWrite 0 writers []) = [] :=
    ranked_grantList_other (show Kind.read ≠ .write by decide) writers 0 []
  have hstart : Progress .read writers [] 0 (grantList grantWrite 0 writers []) := by
    refine ⟨?_, hwriters.nodup, [], ?_, rfl, .nil, List.forall_mem_nil _⟩
    · rw [List.append_nil, hwriters.ids, List.nil_append]
    · rw [hnone]
  have later := progress_grantList readers hstart
  rwa [List.nil_append, Nat.zero_add] at later

section

variable (lists : Kind → Option (List String))

theorem project_ofLists (kind : Kind) :
    project kind.rank (ofLists (lists .read) (lists .write)).entries =
      ((lists kind).getD []).eraseDups := by
  cases kind with
  | read => exact (progress_readers _ _).project_eq
  | write =>
    have hkept : ranked .write (ofLists (lists .read) (lists .write)).entries = _ :=
      ranked_grantList_other (show Kind.write ≠ .read by decide) ((lists .read).getD []) 0 _
    rw [← (progress_writers ((lists .write).getD [])).project_eq]
    exact congrArg (fun own => (List.mergeSort own _).map Prod.snd) hkept

/-- **A set of lists has these lists**, each id once and at its first place. -/
theorem ids_ofLists (kind : Kind) :
    kind.ids (ofLists (lists .read) (lists .write)) = (lists kind).map List.eraseDups := by
  rw [ids_eq, project_ofLists]
  cases kind with
  | read => cases lists .read <;> rfl
  | write => cases lists .write <;> rfl

/-- **The grants of a set of lists**: those of the writers, then those of the other readers. -/
theorem map_held_ofLists :
    (ofLists (lists .read) (lists .write)).entries.map held =
      (((lists .write).getD []).eraseDups ++
          (((lists .read).getD []).removeAll ((lists .write).getD [])).eraseDups).map fun id =>
        (id, ⟨id ∈ (lists .read).getD [], id ∈ (lists .write).getD []⟩) := by
  have hprogress : Progress .read _ _ _ (ofLists (lists .read) (lists .write)).entries :=
    progress_readers ((lists .read).getD []) ((lists .write).getD [])
  have hlisted : ∀ entry ∈ (ofLists (lists .read) (lists .write)).entries, ∀ kind : Kind,
      (kind.rank entry).isSome = decide (entry.id ∈ (lists kind).getD []) := by
    intro entry hm kind
    rw [Bool.eq_iff_iff, decide_eq_true_iff, isSome_rank_iff_mem hprogress.nodup hm,
      project_ofLists, List.mem_eraseDups]
  rw [← List.eraseDups_append, ← hprogress.ids, List.map_map]
  refine List.map_congr_left fun entry hm => ?_
  have hread : entry.read.isSome = _ := hlisted entry hm .read
  have hwrite : entry.write.isSome = _ := hlisted entry hm .write
  unfold held
  rw [hread, hwrite]
  rfl

end

end RestStore.PermissionSet
