import Mathlib.Data.List.Forall2
import Mathlib.Data.List.Nodup
import RestStore.Fields

/-!
# Reading and writing several fields

* `insertAll_append`, `insertAll_of_nodup` — entries are written one after the other, and entries
  with names of their own are appended.
* `mem_insert`, `mem_insertAll` — nothing is held that was not written.
* `get?_insertAll`, `get?_insertAll_last` — a name holds the last entry written under it.
* `filter_insertAll`, `nodup_insertAll` — names that are left out, and names that stand once.
* `get?_of_mem`, `mem_of_get?` — where no name occurs twice, a name holds what stands under it.
* `get?_perm`, `get?_forall₂` — what a name holds in another order, and in related lists.
* `swapErase_append`, `swapErase_perm` — the last field takes the place of one that is erased.
-/

set_option autoImplicit false

namespace RestStore.Fields

variable {α β : Type}

/-! ## Writing -/

theorem keys_append (fields entries : Fields α) :
    keys (fields ++ entries) = keys fields ++ keys entries := by
  simp [keys]

theorem insert_cons (name : String) (old : α) (rest : Fields α) (key : String) (value : α) :
    insert ((name, old) :: rest) key value =
      if name = key then (name, value) :: rest else (name, old) :: insert rest key value := rfl

theorem insertAll_cons (fields : Fields α) (entry : String × α) (entries : Fields α) :
    insertAll fields (entry :: entries) = insertAll (insert fields entry.1 entry.2) entries := rfl

theorem insertAll_append (fields first second : Fields α) :
    insertAll fields (first ++ second) = insertAll (insertAll fields first) second := by
  simp [insertAll]

theorem insertAll_of_nodup : ∀ {fields entries : Fields α},
    (keys fields ++ keys entries).Nodup → insertAll fields entries = fields ++ entries
  | fields, [], _ => by simp [insertAll]
  | fields, (name, value) :: entries, h => by
    have hnew : name ∉ keys fields := by
      intro hmem
      exact (List.nodup_append.1 h).2.2 name hmem name (by simp) rfl
    rw [insertAll_cons, insert_of_not_mem fields value hnew, insertAll_of_nodup]
    · simp
    · simpa [keys_append] using h

theorem ofList_of_nodup {entries : Fields α} (h : (keys entries).Nodup) :
    ofList entries = entries := by
  unfold ofList
  rw [insertAll_of_nodup (by simpa using h)]
  rfl

/-- An entry after a write is the one written, or stood there before. -/
theorem mem_insert : ∀ {fields : Fields α} {key : String} {value : α} {entry : String × α},
    entry ∈ insert fields key value → entry = (key, value) ∨ entry ∈ fields
  | [], _, _, _, h => .inl (List.mem_singleton.1 h)
  | (name, old) :: rest, key, value, entry, h => by
    unfold insert at h
    split at h
    · rename_i hn
      rcases List.mem_cons.1 h with rfl | h
      · exact .inl (by rw [hn])
      · exact .inr (List.mem_cons_of_mem _ h)
    · rcases List.mem_cons.1 h with rfl | h
      · exact .inr List.mem_cons_self
      · exact (mem_insert h).imp_right (List.mem_cons_of_mem _)

theorem mem_insertAll : ∀ {entries fields : Fields α} {entry : String × α},
    entry ∈ insertAll fields entries → entry ∈ fields ∨ entry ∈ entries
  | [], _, _, h => .inl h
  | (name, value) :: entries, fields, entry, h => by
    rw [insertAll_cons] at h
    rcases mem_insertAll h with h | h
    · rcases mem_insert h with rfl | h
      · exact .inr List.mem_cons_self
      · exact .inl h
    · exact .inr (List.mem_cons_of_mem _ h)

theorem insert_ne_nil (fields : Fields α) (key : String) (value : α) :
    insert fields key value ≠ [] := by
  cases fields with
  | nil => simp [insert]
  | cons entry rest =>
    unfold insert
    split <;> simp

theorem keys_insert (fields : Fields α) (key : String) (value : α) :
    keys (insert fields key value) =
      if key ∈ keys fields then keys fields else keys fields ++ [key] := by
  split
  · rename_i h
    exact keys_insert_of_mem fields value h
  · rename_i h
    exact keys_insert_of_not_mem fields value h

/-- Where no name occurs twice, a write changes what stands under its name. -/
theorem insert_eq_map : ∀ {fields : Fields α} {key : String} {value : α},
    (keys fields).Nodup → key ∈ keys fields →
      insert fields key value =
        fields.map fun entry => (entry.1, if entry.1 = key then value else entry.2)
  | (name, old) :: rest, key, value, hn, hm => by
    rw [keys_cons, List.nodup_cons] at hn
    rw [insert_cons, List.map_cons]
    by_cases he : name = key
    · subst he
      rw [if_pos rfl, if_pos rfl]
      refine congrArg _ ((List.map_id' rest).symm.trans (List.map_congr_left fun entry hr => ?_))
      have hne : entry.1 ≠ name := fun he => hn.1 (he ▸ List.mem_map_of_mem hr)
      rw [if_neg hne]
    · rw [if_neg he, if_neg he, insert_eq_map hn.2]
      exact (List.mem_cons.1 hm).resolve_left fun hk => he hk.symm

theorem mem_keys_insert {fields : Fields α} {key other : String} {value : α} :
    other ∈ keys (insert fields key value) ↔ other ∈ keys fields ∨ other = key := by
  rw [keys_insert]
  split
  · rename_i h
    exact ⟨.inl, fun ho => ho.elim id fun he => he ▸ h⟩
  · rw [List.mem_append, List.mem_singleton]

theorem mem_keys_insertAll {key : String} : ∀ {entries fields : Fields α},
    key ∈ keys (insertAll fields entries) ↔ key ∈ keys fields ∨ key ∈ keys entries
  | [], fields => by simp [insertAll]
  | (name, value) :: entries, fields => by
    rw [insertAll_cons, mem_keys_insertAll, mem_keys_insert, keys_cons, List.mem_cons, or_assoc]

theorem mem_keys_ofList {entries : Fields α} {key : String} :
    key ∈ keys (ofList entries) ↔ key ∈ keys entries := by
  rw [ofList, mem_keys_insertAll]
  simp

theorem nodup_insertAll : ∀ {fields : Fields α} (entries : Fields α), (keys fields).Nodup →
    (keys (insertAll fields entries)).Nodup
  | _, [], h => h
  | fields, (name, value) :: entries, h => by
    rw [insertAll_cons]
    refine nodup_insertAll entries ?_
    rw [keys_insert]
    split
    · exact h
    · rename_i hn
      exact List.nodup_append.2 ⟨h, List.nodup_singleton name, fun a ha b hb he =>
        hn (List.mem_singleton.1 hb ▸ he ▸ ha)⟩

theorem not_mem_after {before after : Fields α} {entry : String × α}
    (h : (keys (before ++ entry :: after)).Nodup) : entry.1 ∉ keys after := by
  rw [keys_append, List.nodup_append] at h
  exact (List.nodup_cons.1 h.2.1).1

/-- Names that are left out can be left out before writing. -/
theorem filter_insert (keep : String → Bool) : ∀ (fields : Fields α) (key : String) (value : α),
    (insert fields key value).filter (fun entry => keep entry.1) =
      if keep key then insert (fields.filter fun entry => keep entry.1) key value
      else fields.filter fun entry => keep entry.1
  | [], key, value => by
    cases hk : keep key <;> simp [insert, hk]
  | (name, old) :: rest, key, value => by
    rw [insert_cons, List.filter_cons]
    by_cases hn : name = key
    · subst hn
      cases hk : keep name <;> simp [hk, insert_cons]
    · have hrest := filter_insert keep rest key value
      rw [if_neg hn, List.filter_cons, hrest]
      cases keep name <;> cases keep key <;> simp [insert_cons, hn]

theorem filter_insertAll (keep : String → Bool) : ∀ (fields entries : Fields α),
    (insertAll fields entries).filter (fun entry => keep entry.1) =
      insertAll (fields.filter fun entry => keep entry.1) (entries.filter fun entry => keep entry.1)
  | _, [] => rfl
  | fields, (name, value) :: entries => by
    rw [insertAll_cons, filter_insertAll keep _ entries, filter_insert, List.filter_cons]
    cases keep name <;> rfl

theorem nodup_ofList (entries : Fields α) : (keys (ofList entries)).Nodup :=
  nodup_insertAll entries List.nodup_nil

theorem insertAll_ne_nil : ∀ {fields : Fields α} (entries : Fields α),
    fields ≠ [] → insertAll fields entries ≠ []
  | _, [], h => h
  | fields, (name, value) :: entries, _ => by
    rw [insertAll_cons]
    exact insertAll_ne_nil entries (insert_ne_nil fields name value)

/-! ## Reading -/

theorem contains_eq_false_iff {fields : Fields α} {key : String} :
    contains fields key = false ↔ key ∉ keys fields := by
  rw [← get?_eq_none_iff, contains, Option.isSome_eq_false_iff, Option.isNone_iff_eq_none]

theorem mem_of_get? : ∀ {fields : Fields α} {key : String} {value : α},
    get? fields key = some value → (key, value) ∈ fields
  | (name, old) :: rest, key, value, h => by
    rw [get?_cons] at h
    split at h
    · rename_i hn
      cases h
      rw [hn]
      exact List.mem_cons_self
    · exact List.mem_cons_of_mem _ (mem_of_get? h)

theorem get?_of_mem : ∀ {fields : Fields α} {key : String} {value : α},
    (keys fields).Nodup → (key, value) ∈ fields → get? fields key = some value
  | (name, old) :: rest, key, value, hn, hm => by
    rw [get?_cons]
    rw [keys_cons, List.nodup_cons] at hn
    rcases List.mem_cons.1 hm with he | hm
    · cases he
      rw [if_pos rfl]
    · have hne : name ≠ key := by
        rintro rfl
        exact hn.1 (List.mem_map_of_mem hm)
      rw [if_neg hne]
      exact get?_of_mem hn.2 hm

/-- **A name holds the last entry written under it.** -/
theorem get?_insertAll : ∀ (fields entries : Fields α) (key : String),
    get? (insertAll fields entries) key =
      ((entries.filter fun entry => entry.1 == key).getLast?.map Prod.snd).or (get? fields key)
  | _, [], _ => rfl
  | fields, (name, value) :: entries, key => by
    rw [insertAll_cons, get?_insertAll _ entries, List.filter_cons]
    by_cases hn : name = key
    · subst hn
      rw [get?_insert_self, if_pos (beq_self_eq_true name), List.getLast?_cons]
      cases (entries.filter fun entry => entry.1 == name).getLast? <;> rfl
    · rw [get?_insert_of_ne fields value hn, if_neg (by simpa using hn)]

theorem get?_insertAll_of_not_mem (fields entries : Fields α) {name : String}
    (h : name ∉ keys entries) : get? (insertAll fields entries) name = get? fields name := by
  have hnone : (entries.filter fun entry => entry.1 == name) = [] := by
    rw [List.filter_eq_nil_iff]
    intro entry hm he
    exact h (eq_of_beq he ▸ List.mem_map_of_mem hm)
  rw [get?_insertAll, hnone]
  rfl

theorem get?_insertAll_last (fields before after : Fields α) {name : String} {value : α}
    (h : name ∉ keys after) :
    get? (insertAll fields (before ++ (name, value) :: after)) name = some value := by
  rw [insertAll_append, insertAll_cons, get?_insertAll_of_not_mem _ _ h, get?_insert_self]

/-- A name is free where all names that are taken fail a test that it passes. -/
theorem get?_eq_none_of_forall {fields : Fields α} {test : String → Bool} {key : String}
    (h : ∀ name ∈ keys fields, test name = false) (hk : test key = true) :
    get? fields key = none := by
  rw [get?_eq_none_iff]
  intro hm
  rw [h key hm] at hk
  cases hk

theorem get?_perm {first second : Fields α} (h : first.Perm second)
    (hn : (keys second).Nodup) (key : String) : get? first key = get? second key := by
  have hn' : (keys first).Nodup := (h.map Prod.fst).nodup_iff.2 hn
  cases hs : get? second key with
  | some value => exact get?_of_mem hn' (h.mem_iff.2 (mem_of_get? hs))
  | none =>
    rw [get?_eq_none_iff] at hs ⊢
    exact fun hk => hs ((h.map Prod.fst).mem_iff.1 hk)

/-- What is found under a name, in two lists of members with one order. -/
theorem get?_forall₂ {related : α → β → Prop} : ∀ {first : Fields α} {second : Fields β},
    List.Forall₂ (fun a b => a.1 = b.1 ∧ related a.2 b.2) first second →
      ∀ key, Option.Rel related (get? first key) (get? second key)
  | [], [], .nil, _ => .none
  | (name, a) :: first, (_, b) :: second, .cons ⟨rfl, hab⟩ hrest, key => by
    rw [get?_cons, get?_cons]
    by_cases hn : name = key
    · rw [if_pos hn, if_pos hn]
      exact .some hab
    · rw [if_neg hn, if_neg hn]
      exact get?_forall₂ hrest key

theorem get?_filter_key (keep : String → Bool) : ∀ (fields : Fields α) (key : String),
    get? (fields.filter fun entry => keep entry.1) key =
      if keep key then get? fields key else none
  | [], _ => by simp
  | (name, value) :: rest, key => by
    rw [List.filter_cons]
    by_cases hn : name = key
    · subst hn
      cases hk : keep name
      · simp [get?_filter_key keep rest name, hk]
      · simp [get?]
    · have hrest := get?_filter_key keep rest key
      cases keep name <;> simp [get?, hn, hrest]

theorem get?_filter (keep : α → Bool) : ∀ {fields : Fields α} (key : String),
    (keys fields).Nodup →
      get? (fields.filter fun entry => keep entry.2) key = (get? fields key).filter keep
  | [], _, _ => rfl
  | (name, value) :: rest, key, h => by
    rw [keys_cons, List.nodup_cons] at h
    have hrest := get?_filter keep key h.2
    rw [List.filter_cons]
    by_cases hn : name = key
    · subst hn
      have hnone : get? rest name = none := (get?_eq_none_iff rest name).2 h.1
      rw [hnone] at hrest
      cases hk : keep value <;> simp [get?, hrest, Option.filter, hk]
    · cases keep value <;> simp [get?, hn, hrest]

/-! ## Erasing -/

theorem swapErase_of_not_mem : ∀ {fields : Fields α} {key : String},
    key ∉ keys fields → swapErase fields key = fields
  | [], _, _ => rfl
  | (name, value) :: rest, key, h => by
    rw [keys_cons, List.mem_cons, not_or] at h
    rw [swapErase, if_neg (Ne.symm h.1), swapErase_of_not_mem h.2]

/-- **The last field takes the place of one that is erased.** -/
theorem swapErase_append (value : α) (after : Fields α) : ∀ {before : Fields α} {key : String},
    key ∉ keys before →
      swapErase (before ++ (key, value) :: after) key =
        before ++ (after.getLast?.toList ++ after.dropLast)
  | [], key, _ => by
    rw [List.nil_append, swapErase, if_pos rfl]
    cases h : after.getLast? with
    | none =>
      rw [List.getLast?_eq_none_iff] at h
      rw [h]
      rfl
    | some last => rfl
  | (name, old) :: before, key, h => by
    rw [keys_cons, List.mem_cons, not_or] at h
    rw [List.cons_append, swapErase, if_neg (Ne.symm h.1), swapErase_append value after h.2]
    rfl

/-- A name that stands once has fields before it and after it. -/
theorem exists_split {fields : Fields α} {key : String} (hn : (keys fields).Nodup)
    (hk : key ∈ keys fields) : ∃ before value after, fields = before ++ (key, value) :: after ∧
      key ∉ keys before ∧ key ∉ keys after := by
  obtain ⟨entry, hm, rfl⟩ := List.mem_map.1 hk
  obtain ⟨before, after, rfl⟩ := List.append_of_mem hm
  refine ⟨before, entry.2, after, rfl, fun hb => ?_, not_mem_after hn⟩
  rw [keys_append, List.nodup_append] at hn
  exact hn.2.2 _ hb _ List.mem_cons_self rfl

theorem perm_last_dropLast (fields : Fields α) :
    (fields.getLast?.toList ++ fields.dropLast).Perm fields := by
  rcases List.eq_nil_or_concat' fields with rfl | ⟨front, last, rfl⟩
  · exact .nil
  · rw [List.getLast?_concat, List.dropLast_concat]
    exact List.perm_append_comm

/-- Everything else stays when a name is erased. -/
theorem swapErase_perm {fields : Fields α} {key : String} (hn : (keys fields).Nodup) :
    (swapErase fields key).Perm (fields.filter fun entry => entry.1 != key) := by
  have hfilter : ∀ {others : Fields α}, key ∉ keys others →
      others.filter (fun entry => entry.1 != key) = others := by
    intro others ho
    refine List.filter_eq_self.2 fun entry hm => ?_
    simpa using fun he : entry.1 = key => ho (he ▸ List.mem_map_of_mem hm)
  by_cases hk : key ∈ keys fields
  · obtain ⟨before, value, after, rfl, hbefore, hafter⟩ := exists_split hn hk
    rw [swapErase_append value after hbefore, List.filter_append, hfilter hbefore,
      List.filter_cons_of_neg (by simp), hfilter hafter]
    exact (perm_last_dropLast after).append_left before
  · rw [swapErase_of_not_mem hk, hfilter hk]

theorem mem_swapErase_iff {fields : Fields α} {key : String} {entry : String × α}
    (hn : (keys fields).Nodup) :
    entry ∈ swapErase fields key ↔ entry ∈ fields ∧ entry.1 ≠ key := by
  rw [(swapErase_perm hn).mem_iff, List.mem_filter, bne_iff_ne]

/-- What is erased is not found, and everything else is. -/
theorem get?_swapErase {fields : Fields α} {key : String} (other : String)
    (hn : (keys fields).Nodup) :
    get? (swapErase fields key) other = if other = key then none else get? fields other := by
  have hfilter : (keys (fields.filter fun entry => entry.1 != key)).Nodup :=
    hn.sublist (List.filter_sublist.map Prod.fst)
  rw [get?_perm (swapErase_perm hn) hfilter, get?_filter_key fun name => name != key]
  by_cases he : other = key <;> simp [he]

end RestStore.Fields
