import RestStore.Proofs.Where.Columns

/-!
# Entries of a query

Entries are written one after the other. `get?_merge_last`: the query holds the last entry under
every name but `$nor`. `holdsClauses_merge`: no clause of a combinator is lost, whatever else joins
its list.

* `entry_name` — the names an entry can have.
* `column_cases` — the columns of keys that combine no clauses.
* `name_of_combinator` — what is compiled to the name of a combinator.
* `entry_nor` — an entry under `$nor` is a list.
-/

set_option autoImplicit false

namespace RestStore.Where

/-! ## Names of entries -/

theorem name_valueEntry {scope : Scope} {guard : Nesting} {key : String} {value : Rest}
    {entry : String × Native} (h : valueEntry scope guard key value = .ok entry) :
    entry.1 = Column.forQuery scope.target.schema key := by
  unfold valueEntry at h
  extract_lets schema column isArray atom at h
  clear_value isArray atom
  split at h
  · obtain ⟨native, _, rfl⟩ := Outcome.map_eq_ok.1 h
    rfl
  · split at h
    · cases h
    · cases h
      rfl
    · cases h

theorem name_fieldEntry {scope : Scope} {guard : Nesting} {key : String} {value : Rest}
    {entry : String × Native} (hc : isCombinator key = false)
    (h : fieldEntry scope guard key value = .ok entry) :
    entry.1 = column scope.target.schema key ∨ entry.1 = "$text" ∨
      ∃ constraint, entry =
        (norKey, .array [.document [(column scope.target.schema key, .document constraint)]]) := by
  unfold fieldEntry at h
  unfold column
  rw [if_neg (by simp [hc])]
  split at h
  · rename_i hid
    rw [if_pos hid]
    obtain ⟨native, _, rfl⟩ := Outcome.map_eq_ok.1 h
    exact .inl rfl
  · rename_i hid
    rw [if_neg hid]
    split at h
    · rename_i column hv
      obtain ⟨native, _, rfl⟩ := Outcome.map_eq_ok.1 h
      rw [hv]
      exact .inl rfl
    · rename_i hv
      rw [hv, Option.getD_none]
      unfold plainEntry at h
      split at h
      · cases h
        exact .inl rfl
      · split at h
        · cases h
        · cases h
          unfold constraintEntry
          split
          · exact .inr (.inl rfl)
          · split
            · exact .inr (.inr ⟨_, rfl⟩)
            · exact .inl rfl
        · exact .inl (name_valueEntry h)

/-- **The name of an entry**: the column of its key, or the one of text searches, or `$nor`. -/
theorem entry_name {scope : Scope} {guard : Nesting} {key : String} {value : Rest}
    {own : String × Native} (h : entry scope guard key value = .ok own) :
    own.1 = column scope.target.schema key ∨ own.1 = "$text" ∨ own.1 = norKey := by
  unfold entry at h
  split at h
  · rename_i hc
    split at h
    · obtain ⟨natives, _, rfl⟩ := Outcome.map_eq_ok.1 h
      unfold column
      rw [if_pos hc]
      exact .inl rfl
    · cases h
  · rename_i hc
    rcases name_fieldEntry (by simpa using hc) h with hn | hn | ⟨_, rfl⟩
    · exact .inl hn
    · exact .inr (.inl hn)
    · exact .inr (.inr rfl)

/-- The column of a key that combines no clauses is internal, or the key itself. -/
theorem column_cases (schema : Schema) {key : String} (hc : isCombinator key = false) :
    hasStart "_" (column schema key) = true ∨ column schema key = "times_used" ∨
      column schema key = key ∧ schema.fieldIs key .pointer = false := by
  unfold column
  rw [if_neg (by simp [hc])]
  split
  · exact .inl (by decide)
  cases hv : verbatimColumn? key with
  | some name =>
    rw [Option.getD_some]
    unfold verbatimColumn? at hv
    split at hv
    · cases hv
      exact .inl (by decide)
    split at hv
    · cases hv
      exact .inr (.inl rfl)
    split at hv
    · rename_i hmem
      cases hv
      have hinternal : ∀ name ∈ verbatimKeys, hasStart "_" name = true := by decide
      exact .inl (hinternal key hmem)
    · obtain ⟨provider, _, rfl⟩ := Option.map_eq_some_iff.1 hv
      refine .inl (hasStart_iff.2 ⟨"auth_data_" ++ (provider ++ ".id"), ?_⟩)
      simp [authStart, ← String.append_assoc]
  | none =>
    rw [Option.getD_none]
    unfold Column.forQuery
    split
    · rename_i reserved hr
      rcases reserved?_cases hr with
        ⟨_, rfl⟩ | ⟨_, rfl⟩ | ⟨_, rfl⟩ | ⟨_, rfl⟩ | ⟨_, rfl⟩ | ⟨_, rfl⟩
      · exact .inl (by decide)
      · exact .inl (by decide)
      · exact .inl (by decide)
      · exact .inl (by decide)
      · exact .inl (by decide)
      · exact .inr (.inl rfl)
    · split
      · exact .inl (hasStart_pointerColumn key)
      · rename_i hp
        exact .inr (.inr ⟨rfl, by simpa using hp⟩)

theorem column_ne_norKey (schema : Schema) {key : String} (hc : isCombinator key = false) :
    column schema key ≠ norKey := by
  rcases column_cases schema hc with hs | ht | ⟨hk, _⟩
  · exact ne_of_hasStart hs (by decide)
  · rw [ht]
    decide
  · rw [hk]
    rintro rfl
    exact absurd hc (by decide)

/-- Only a combinator, or the negation of a field, is compiled to the name of a combinator. -/
theorem name_of_combinator {scope : Scope} {guard : Nesting} {key : String} {value : Rest}
    {own : String × Native} (h : entry scope guard key value = .ok own)
    (hc : isCombinator own.1 = true) : own.1 = key ∨ own.1 = norKey := by
  have hplain : ∀ name, isCombinator name = false → own.1 ≠ name := by
    rintro name hn rfl
    rw [hc] at hn
    cases hn
  rcases entry_name h with ho | ho | ho
  · cases hk : isCombinator key with
    | true =>
      unfold column at ho
      rw [if_pos hk] at ho
      exact .inl ho
    | false =>
      rcases column_cases scope.target.schema hk with hs | ht | ⟨hself, _⟩
      · have hsub : ∀ name, isCombinator name = true → hasStart "_" name = false := by
          intro name hn
          unfold isCombinator at hn
          simp only [Bool.or_eq_true, beq_iff_eq] at hn
          rcases hn with (rfl | rfl) | rfl <;> decide
        rw [← ho, hsub _ hc] at hs
        cases hs
      · exact absurd (ho.trans ht) (hplain _ (by decide))
      · exact absurd (ho.trans hself) (hplain _ hk)
  · exact absurd ho (hplain _ (by decide))
  · exact .inr ho

/-- An entry under `$nor` is a list of clauses. -/
theorem entry_nor {scope : Scope} {guard : Nesting} {key : String} {value : Rest}
    {own : String × Native} (h : entry scope guard key value = .ok own) (hn : own.1 = norKey) :
    ∃ clauses, own.2 = .array clauses := by
  unfold entry at h
  split at h
  · split at h
    · obtain ⟨natives, _, rfl⟩ := Outcome.map_eq_ok.1 h
      exact ⟨natives, rfl⟩
    · cases h
  · rename_i hc
    rcases name_fieldEntry (by simpa using hc) h with he | he | ⟨_, rfl⟩
    · rw [hn] at he
      exact absurd he.symm (column_ne_norKey _ (by simpa using hc))
    · rw [hn] at he
      exact absurd he (by decide)
    · exact ⟨_, rfl⟩

/-! ## Writing one entry -/

theorem write_eq_insert (query : Document) {entry : String × Native} (h : entry.1 ≠ norKey) :
    write query entry = Fields.insert query entry.1 entry.2 := by
  unfold write
  split
  · rw [if_neg h]
  · rfl

theorem get?_write_self (query : Document) {entry : String × Native} (h : entry.1 ≠ norKey) :
    Fields.get? (write query entry) entry.1 = some entry.2 := by
  rw [write_eq_insert query h, Fields.get?_insert_self]

theorem get?_write_of_ne (query : Document) {entry : String × Native} {name : String}
    (h : entry.1 ≠ name) : Fields.get? (write query entry) name = Fields.get? query name := by
  by_cases hn : entry.1 = norKey
  · unfold write
    split
    · rw [if_pos hn, ← hn, Fields.get?_insert_of_ne _ _ h]
    · rw [Fields.get?_insert_of_ne _ _ h]
  · rw [write_eq_insert query hn, Fields.get?_insert_of_ne _ _ h]

/-- A list under `$nor` joins the one before it. -/
theorem get?_write_nor (query : Document) {entry : String × Native} {clauses : List Native}
    (hn : entry.1 = norKey) (hl : entry.2 = .array clauses) :
    ∃ earlier, Fields.get? (write query entry) norKey = some (.array (earlier ++ clauses)) ∧
      ∀ held, Fields.get? query norKey = some (.array held) → earlier = held := by
  unfold write
  rw [hl, hn]
  split
  · rename_i held _ hq hc
    cases hc
    rw [if_pos rfl, Fields.get?_insert_self]
    refine ⟨held, rfl, fun other ho => ?_⟩
    rw [hq] at ho
    cases ho
    rfl
  · rename_i hno
    rw [Fields.get?_insert_self]
    exact ⟨[], rfl, fun held hq => (hno held clauses hq rfl).elim⟩

/-! ## Writing many entries -/

theorem get?_foldl_write_of_not_mem : ∀ (entries : List (String × Native)) (query : Document)
    {name : String}, (∀ entry ∈ entries, entry.1 ≠ name) →
      Fields.get? (entries.foldl write query) name = Fields.get? query name
  | [], _, _, _ => rfl
  | entry :: entries, query, name, h => by
    rw [List.foldl_cons, get?_foldl_write_of_not_mem entries _ fun later hl =>
      h later (List.mem_cons_of_mem _ hl)]
    exact get?_write_of_ne query (h entry List.mem_cons_self)

/-- **The query holds the last entry under a name** other than `$nor`. -/
theorem get?_merge_last (before after : List (String × Native)) {entry : String × Native}
    (hn : entry.1 ≠ norKey) (hlast : ∀ later ∈ after, later.1 ≠ entry.1) :
    Fields.get? (merge (before ++ entry :: after)) entry.1 = some entry.2 := by
  unfold merge
  rw [List.foldl_append, List.foldl_cons, get?_foldl_write_of_not_mem after _ hlast]
  exact get?_write_self _ hn

/-- The query holds a list of clauses under a combinator, maybe joined with others. -/
def HoldsClauses (query : Document) (key : String) (clauses : List Native) : Prop :=
  ∃ all, Fields.get? query key = some (.array all) ∧ ∀ clause ∈ clauses, clause ∈ all

theorem HoldsClauses.write {query : Document} {key : String} {clauses : List Native}
    {entry : String × Native} (h : HoldsClauses query key clauses)
    (hjoin : entry.1 = key → key = norKey ∧ ∃ more, entry.2 = .array more) :
    HoldsClauses (write query entry) key clauses := by
  obtain ⟨all, hall, hmem⟩ := h
  by_cases hk : entry.1 = key
  · obtain ⟨rfl, more, hmore⟩ := hjoin hk
    obtain ⟨earlier, hget, heq⟩ := get?_write_nor query hk hmore
    cases heq all hall
    exact ⟨all ++ more, hget, fun clause hc => List.mem_append_left _ (hmem clause hc)⟩
  · exact ⟨all, by rw [get?_write_of_ne query hk, hall], hmem⟩

theorem HoldsClauses.foldl_write {key : String} {clauses : List Native} :
    ∀ (entries : List (String × Native)) {query : Document}, HoldsClauses query key clauses →
      (∀ entry ∈ entries, entry.1 = key → key = norKey ∧ ∃ more, entry.2 = .array more) →
        HoldsClauses (entries.foldl Where.write query) key clauses
  | [], _, h, _ => h
  | entry :: entries, _, h, hjoin =>
    HoldsClauses.foldl_write entries (h.write (hjoin entry List.mem_cons_self))
      fun later hl => hjoin later (List.mem_cons_of_mem _ hl)

/-- **The clauses of a combinator are held**, if no other entry but a list under `$nor` has its
name. -/
theorem holdsClauses_merge (before after : List (String × Native)) {key : String}
    {clauses : List Native}
    (hjoin : ∀ later ∈ after, later.1 = key → key = norKey ∧ ∃ more, later.2 = .array more) :
    HoldsClauses (merge (before ++ (key, .array clauses) :: after)) key clauses := by
  unfold merge
  rw [List.foldl_append, List.foldl_cons]
  refine HoldsClauses.foldl_write after ?_ hjoin
  by_cases hn : key = norKey
  · have hname : ((key, .array clauses) : String × Native).1 = norKey := hn
    obtain ⟨earlier, hget, _⟩ := get?_write_nor (before.foldl write []) hname rfl
    rw [← hn] at hget
    exact ⟨earlier ++ clauses, hget, fun clause hc => List.mem_append_right _ hc⟩
  · have hname : ((key, .array clauses) : String × Native).1 ≠ norKey := hn
    exact ⟨clauses, get?_write_self _ hname, fun _ hc => hc⟩

end RestStore.Where
