import RestStore.Proofs.Fields
import RestStore.Proofs.Where.Merge

/-!
# No clause is lost

The keys of a clause compile one by one, and the query holds what each of them compiles to alone.
Two things share an entry by design: all text searches are written to `$text`, and `timesUsed` and
`times_used` are two names of one column. Of keys that share an entry the last one counts.
`document_keeps_entries` says so of a where clause and, below its combinators, of every subclause.

* `Subclause`, `Subquery` — the clauses inside a where clause, and the queries inside a query.
* `KeepsEntries` — what a query holds of a clause.
* `compileAt_keepsEntries` — one clause keeps its entries.
* `nestedClause_compiled` — every clause inside is compiled, where it stands.
* `document_single` — the query of a single key.
-/

set_option autoImplicit false

namespace RestStore.Where

/-- The guard of the clauses that a number of combinators stand around. -/
def guardAt (scope : Scope) (depth : Nat) : Nesting :=
  ⟨depth + 1, scope.target.config.maxDepth, .query⟩

/-- The query of a clause that a number of combinators stand around. -/
def compileAt (scope : Scope) (depth : Nat) (members : Fields Rest) : Except Failure Document :=
  (entries scope (guardAt scope depth) members).map merge

/-- The keys of a clause as clients write it: each once, and none internal. -/
def ClientKeys (members : Fields Rest) : Prop :=
  (Fields.keys members).Nodup ∧ ∀ key ∈ Fields.keys members, hasStart "_" key = false

theorem ClientKeys.not_mem_after {before after : Fields Rest} {member : String × Rest}
    (h : ClientKeys (before ++ member :: after)) : member.1 ∉ Fields.keys after :=
  Fields.not_mem_after h.1

/-- A clause inside a where clause, with the combinators around it, the innermost first. -/
inductive Subclause (members : Fields Rest) : List String → Fields Rest → Prop
  | whole : Subclause members [] members
  | inside {path : List String} {outer inner : Fields Rest} {key : String} {clauses : List Rest} :
    Subclause members path outer → ClientKeys outer → isCombinator key = true →
      (key, .array clauses) ∈ outer → .object inner ∈ clauses →
        Subclause members (key :: path) inner

/-- A clause inside a where clause whose keys may be internal ones. -/
inductive NestedClause (members : Fields Rest) : List String → Fields Rest → Prop
  | whole : NestedClause members [] members
  | inside {path : List String} {outer inner : Fields Rest} {key : String} {clauses : List Rest} :
    NestedClause members path outer → (Fields.keys outer).Nodup → isCombinator key = true →
      (key, .array clauses) ∈ outer → .object inner ∈ clauses →
        NestedClause members (key :: path) inner

theorem Subclause.nested {members clause : Fields Rest} {path : List String}
    (h : Subclause members path clause) : NestedClause members path clause := by
  induction h with
  | whole => exact .whole
  | inside _ hk hc hm hi ih => exact .inside ih hk.1 hc hm hi

/-- A query inside a query, with the combinators around it, the innermost first. -/
inductive Subquery (query : Document) : List String → Document → Prop
  | whole : Subquery query [] query
  | inside {path : List String} {outer inner : Document} {key : String} {natives : List Native} :
    Subquery query path outer → Fields.get? outer key = some (.array natives) →
      .document inner ∈ natives → Subquery query (key :: path) inner

/-- Two keys that may share an entry of a name. -/
def MayShare (name first second : String) : Prop :=
  name = "$text" ∨ first = "timesUsed" ∧ second = "times_used" ∨
    first = "times_used" ∧ second = "timesUsed"

/-- What a query holds of a clause: each key has an entry of its own, different keys have different
ones, and the query holds the entry of every key unless a later key has one of the same name. -/
structure KeepsEntries (scope : Scope) (depth : Nat) (clause : Fields Rest) (query : Document) :
    Prop where
  alone : ∀ member ∈ clause, ∃ own, compileAt scope depth [member] = .ok [own]
  distinct : ∀ first ∈ clause, ∀ second ∈ clause, first.1 ≠ second.1 → ∀ own other,
    compileAt scope depth [first] = .ok [own] → compileAt scope depth [second] = .ok [other] →
      own.1 ≠ norKey → own.1 = other.1 → MayShare own.1 first.1 second.1
  held : ∀ before member after, clause = before ++ member :: after → ∀ own,
    compileAt scope depth [member] = .ok [own] → own.1 ≠ norKey →
      (∀ later ∈ after, MayShare own.1 member.1 later.1 → ∀ other,
        compileAt scope depth [later] = .ok [other] → other.1 ≠ own.1) →
          Fields.get? query own.1 = some own.2

/-! ## One key, many keys -/

section

variable {scope : Scope} {guard : Nesting}

theorem merge_singleton (own : String × Native) : merge [own] = [own] := rfl

theorem compileAt_singleton {depth : Nat} {member : String × Rest} {own : String × Native} :
    compileAt scope depth [member] = .ok [own] ↔
      entry scope (guardAt scope depth) member.1 member.2 = .ok own := by
  obtain ⟨key, value⟩ := member
  unfold compileAt
  rw [entries]
  cases entry scope (guardAt scope depth) key value with
  | error failure => simp [Except.map]
  | ok other => simp [entries, Except.map, merge_singleton]

theorem entries_cons {key : String} {value : Rest} {rest : Fields Rest}
    {owns : List (String × Native)} (h : entries scope guard ((key, value) :: rest) = .ok owns) :
    ∃ own later, owns = own :: later ∧ entry scope guard key value = .ok own ∧
      entries scope guard rest = .ok later := by
  rw [entries] at h
  split at h
  · cases h
  · rename_i own he
    obtain ⟨later, hl, rfl⟩ := Outcome.map_eq_ok.1 h
    exact ⟨own, later, rfl, he, hl⟩

/-- Entries come from the keys in order. -/
theorem entries_append : ∀ {before after : Fields Rest} {owns : List (String × Native)},
    entries scope guard (before ++ after) = .ok owns →
      ∃ first second, owns = first ++ second ∧ entries scope guard after = .ok second
  | [], _, owns, h => ⟨[], owns, rfl, h⟩
  | _ :: _, _, _, h => by
    obtain ⟨own, later, rfl, _, hl⟩ := entries_cons h
    obtain ⟨first, second, rfl, hs⟩ := entries_append hl
    exact ⟨own :: first, second, rfl, hs⟩

theorem mem_entries : ∀ {members : Fields Rest} {owns : List (String × Native)}
    {own : String × Native}, entries scope guard members = .ok owns → own ∈ owns →
      ∃ member ∈ members, entry scope guard member.1 member.2 = .ok own
  | [], _, _, h, hm => by
    rw [entries] at h
    cases h
    cases hm
  | (key, value) :: rest, _, _, h, hm => by
    obtain ⟨first, later, rfl, he, hl⟩ := entries_cons h
    rcases List.mem_cons.1 hm with rfl | hm
    · exact ⟨(key, value), List.mem_cons_self, he⟩
    · obtain ⟨member, hmem, hown⟩ := mem_entries hl hm
      exact ⟨member, List.mem_cons_of_mem _ hmem, hown⟩

/-- The entry of a key among the entries of a clause. -/
theorem entries_split {before after : Fields Rest} {key : String} {value : Rest}
    {owns : List (String × Native)}
    (h : entries scope guard (before ++ (key, value) :: after) = .ok owns) :
    ∃ first own second, owns = first ++ own :: second ∧ entry scope guard key value = .ok own ∧
      entries scope guard after = .ok second := by
  obtain ⟨first, rest, rfl, hrest⟩ := entries_append h
  obtain ⟨own, second, rfl, hown, hsecond⟩ := entries_cons hrest
  exact ⟨first, own, second, rfl, hown, hsecond⟩

/-! ## One clause -/

/-- Different keys have different entries, but for text searches and the two names of a column. -/
theorem mayShare_of_entry {first second : String} {value otherValue : Rest}
    {own other : String × Native} (hfirst : hasStart "_" first = false)
    (hsecond : hasStart "_" second = false) (hne : first ≠ second)
    (hown : entry scope guard first value = .ok own)
    (hother : entry scope guard second otherValue = .ok other) (hnor : own.1 ≠ norKey)
    (hname : own.1 = other.1) : MayShare own.1 first second := by
  rcases entry_name hown with ho | ho | ho
  · rcases entry_name hother with ho' | ho' | ho'
    · have hcolumn : column scope.target.schema first = column scope.target.schema second := by
        rw [← ho, hname, ho']
      rcases canonicalKey_eq_cases (column_injective _ hfirst hsecond hcolumn) with he | hs
      · exact absurd he hne
      · exact .inr hs
    · exact .inl (hname.trans ho')
    · exact absurd (hname.trans ho') hnor
  · exact .inl ho
  · exact absurd ho hnor

/-- **A clause keeps its entries.** -/
theorem compileAt_keepsEntries {depth : Nat} {clause : Fields Rest} {query : Document}
    (h : compileAt scope depth clause = .ok query) (hk : ClientKeys clause) :
    KeepsEntries scope depth clause query := by
  obtain ⟨owns, howns, rfl⟩ := Outcome.map_eq_ok.1 h
  have hkey : ∀ member ∈ clause, hasStart "_" member.1 = false := fun member hm =>
    hk.2 member.1 (List.mem_map_of_mem hm)
  refine ⟨?_, ?_, ?_⟩
  · intro member hm
    obtain ⟨before, after, rfl⟩ := List.append_of_mem hm
    obtain ⟨_, own, _, _, hown, _⟩ := entries_split howns
    exact ⟨own, compileAt_singleton.2 hown⟩
  · intro first hf second hs hne own other hown hother
    exact mayShare_of_entry (hkey first hf) (hkey second hs) hne (compileAt_singleton.1 hown)
      (compileAt_singleton.1 hother)
  · rintro before member after rfl own hown hnor hlast
    obtain ⟨first, _, second, rfl, hown', hsecond⟩ := entries_split howns
    cases hown'.symm.trans (compileAt_singleton.1 hown)
    refine get?_merge_last first second hnor fun later hl hname => ?_
    obtain ⟨other, hmem, hother⟩ := mem_entries hsecond hl
    have hne : member.1 ≠ other.1 := fun he => hk.not_mem_after (he ▸ List.mem_map_of_mem hmem)
    have hshare := mayShare_of_entry (hkey member (by simp)) (hkey other (by simp [hmem])) hne
      hown' hother hnor hname.symm
    exact hlast other hmem hshare later (compileAt_singleton.2 hother) hname

/-! ## Subclauses -/

theorem mem_subclauses : ∀ {key : String} {clauses : List Rest} {natives : List Native}
    {inner : Fields Rest}, subclauses scope guard key clauses = .ok natives →
      .object inner ∈ clauses → ∃ native ∈ natives,
        subclause scope guard key (.object inner) = .ok native
  | _, [], _, _, _, hm => nomatch hm
  | key, clause :: rest, _, inner, h, hm => by
    rw [subclauses] at h
    split at h
    · cases h
    · rename_i native hn
      obtain ⟨natives, hrest, rfl⟩ := Outcome.map_eq_ok.1 h
      rcases List.mem_cons.1 hm with rfl | hm
      · exact ⟨native, List.mem_cons_self, hn⟩
      · obtain ⟨other, hmem, ho⟩ := mem_subclauses hrest hm
        exact ⟨other, List.mem_cons_of_mem _ hmem, ho⟩

/-- A subclause is compiled one level down. -/
theorem subclause_object {depth : Nat} {key : String} {inner : Fields Rest} {native : Native}
    (h : subclause scope (guardAt scope depth) key (.object inner) = .ok native) :
    ∃ query, native = .document query ∧ compileAt scope (depth + 1) inner = .ok query := by
  rw [subclause] at h
  split at h
  · cases h
  · rename_i below hb
    obtain ⟨owns, howns, rfl⟩ := Outcome.map_eq_ok.1 h
    unfold Nesting.enter at hb
    split at hb
    · cases hb
    · cases hb
      exact ⟨merge owns, rfl, Outcome.map_eq_ok.2 ⟨owns, howns, rfl⟩⟩

/-- The clauses of a combinator are held where the combinator stands. -/
theorem compileAt_combinator {depth : Nat} {clause inner : Fields Rest} {query : Document}
    {key : String} {clauses : List Rest} (h : compileAt scope depth clause = .ok query)
    (hk : (Fields.keys clause).Nodup) (hc : isCombinator key = true)
    (hm : (key, .array clauses) ∈ clause)
    (hi : .object inner ∈ clauses) :
    ∃ natives part, Fields.get? query key = some (.array natives) ∧ .document part ∈ natives ∧
      compileAt scope (depth + 1) inner = .ok part := by
  obtain ⟨owns, howns, rfl⟩ := Outcome.map_eq_ok.1 h
  obtain ⟨before, after, rfl⟩ := List.append_of_mem hm
  obtain ⟨first, own, second, rfl, hown, hsecond⟩ := entries_split howns
  have hown' := hown
  rw [entry, if_pos hc] at hown'
  obtain ⟨natives, hnatives, rfl⟩ := Outcome.map_eq_ok.1 hown'
  obtain ⟨native, hnative, hsub⟩ := mem_subclauses hnatives hi
  obtain ⟨part, rfl, hpart⟩ := subclause_object hsub
  -- a combinator is no column and occurs once, so only a negated field can come back to its key
  have hjoin : ∀ later ∈ second, later.1 = key → key = norKey ∧ ∃ more, later.2 = .array more := by
    intro later hl hname
    obtain ⟨other, hmem, hother⟩ := mem_entries hsecond hl
    have hafter : other.1 ∈ Fields.keys after := List.mem_map_of_mem hmem
    have hne : key ≠ other.1 := fun he => Fields.not_mem_after hk (he ▸ hafter)
    rcases name_of_combinator hother (hname ▸ hc) with ho | ho
    · exact absurd (hname.symm.trans ho) hne
    · exact ⟨hname.symm.trans ho, entry_nor hother ho⟩
  obtain ⟨all, hall, hmem⟩ := holdsClauses_merge first second hjoin
  exact ⟨all, part, hall, hmem _ hnative, hpart⟩

theorem document_eq_ok {members : Fields Rest} {query : Document}
    (h : document scope members = .ok query) : compileAt scope 0 members = .ok query := by
  unfold document Nesting.enter at h
  split at h
  · cases h
  · rename_i inner hi
    split at hi
    · cases hi
    · cases hi
      exact h

/-- The query of a clause with one key. -/
theorem document_single {key : String} {value : Rest} {query : Document}
    (h : document scope [(key, value)] = .ok query) :
    ∃ own, entry scope (guardAt scope 0) key value = .ok own ∧ query = [own] := by
  obtain ⟨owns, howns, rfl⟩ := Outcome.map_eq_ok.1 (document_eq_ok h)
  obtain ⟨own, later, rfl, hown, hlater⟩ := entries_cons howns
  rw [entries] at hlater
  cases hlater
  exact ⟨own, hown, rfl⟩

/-- **Every clause inside a where clause is compiled**, and its query stands below the same
combinators. -/
theorem nestedClause_compiled {members : Fields Rest} {query : Document}
    (h : document scope members = .ok query) {path : List String} {clause : Fields Rest}
    (hs : NestedClause members path clause) :
    ∃ part, Subquery query path part ∧ compileAt scope path.length clause = .ok part := by
  induction hs with
  | whole => exact ⟨query, .whole, document_eq_ok h⟩
  | inside _ hk hc hm hi ih =>
    obtain ⟨outer, hsub, houter⟩ := ih
    obtain ⟨natives, part, hget, hmem, hpart⟩ := compileAt_combinator houter hk hc hm hi
    exact ⟨part, .inside hsub hget hmem, hpart⟩

theorem subclause_compiled {members : Fields Rest} {query : Document}
    (h : document scope members = .ok query) {path : List String} {clause : Fields Rest}
    (hs : Subclause members path clause) :
    ∃ part, Subquery query path part ∧ compileAt scope path.length clause = .ok part :=
  nestedClause_compiled h hs.nested

/-- **A where clause loses no clause of a field**, and no subclause of it does. -/
theorem document_keeps_entries {members : Fields Rest} {query : Document}
    (h : document scope members = .ok query) {path : List String} {clause : Fields Rest}
    (hs : Subclause members path clause) (hk : ClientKeys clause) :
    ∃ part, Subquery query path part ∧ compileAt scope path.length clause = .ok part ∧
      KeepsEntries scope path.length clause part := by
  obtain ⟨part, hsub, hpart⟩ := subclause_compiled h hs
  exact ⟨part, hsub, hpart, compileAt_keepsEntries hpart hk⟩

end

/-- Queries on posts. -/
def postScope : Scope :=
  ⟨⟨"Post", .ofFields [("author", ⟨.pointer, some "_User"⟩)], .standard⟩, false, ⟨0, 0⟩⟩

/-- The posts of a user that are new or popular. -/
def postClause : Fields Rest :=
  [("author", .tagged Pointer.kind [("className", .string "_User"), ("objectId", .string "u1")]),
    ("$or", .array [.object [("isNew", .bool true), ("timesUsed", .number (.integer 0))],
      .object [("views", .object [("$gt", .number (.integer 9))])]])]

theorem document_keeps_entries_post :
    ∃ query, document postScope postClause = .ok query ∧
      ∃ part, Subquery query ["$or"] part ∧
        compileAt postScope 1 [("isNew", .bool true), ("timesUsed", .number (.integer 0))] =
          .ok part ∧
        KeepsEntries postScope 1 [("isNew", .bool true), ("timesUsed", .number (.integer 0))]
          part := by
  have hquery : document postScope postClause = .ok [("_p_author", .string "_User$u1"),
      ("$or", .array [.document [("isNew", .bool true), ("times_used", .int32 0)],
        .document [("views", .document [("$gt", .int32 9)])]])] := rfl
  refine ⟨_, hquery, ?_⟩
  have hin : Subclause postClause ["$or"]
      [("isNew", .bool true), ("timesUsed", .number (.integer 0))] :=
    .inside .whole ⟨by decide, by decide⟩ rfl (List.mem_cons_of_mem _ List.mem_cons_self)
      List.mem_cons_self
  exact document_keeps_entries hquery hin ⟨by decide, by decide⟩

/-- A search for a word. -/
def wordSearch (word : String) : Rest :=
  .object [("$text", .object [("$search", .object [("$term", .string word)])])]

/-- Keys that share an entry overwrite it: two names of one column, and two text searches. -/
theorem document_overwrites :
    (document postScope [("timesUsed", .number (.integer 1))] = .ok [("times_used", .int32 1)] ∧
      document postScope [("times_used", .number (.integer 2))] = .ok [("times_used", .int32 2)] ∧
      document postScope
          [("timesUsed", .number (.integer 1)), ("times_used", .number (.integer 2))] =
        .ok [("times_used", .int32 2)]) ∧
    document postScope [("title", wordSearch "tea")] =
        .ok [("$text", .document [("$search", .string "tea")])] ∧
      document postScope [("body", wordSearch "cup")] =
        .ok [("$text", .document [("$search", .string "cup")])] ∧
      document postScope [("title", wordSearch "tea"), ("body", wordSearch "cup")] =
        .ok [("$text", .document [("$search", .string "cup")])] :=
  ⟨⟨rfl, rfl, rfl⟩, rfl, rfl, rfl⟩

end RestStore.Where
