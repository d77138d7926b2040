import RestStore.Proofs.Where.Clauses

/-!
# Operators among the clauses

A query holds operators among its clauses: the combinators, and the text search that moves there
from its constraint. `operator_listed_or_sent` says that no other key with a dollar sign stands at
such a level, unless the client sent it as the key of a clause. Keys of clauses are not checked:
`document_passes_operator` is a query with an operator of the store that a client sent.

* `Level` — the queries below the combinators of a query.
* `ClauseKey` — the keys of a clause and of the subclauses below its combinators.
* `queryHolds_merge` — what is known of every entry is known of the levels of their query.
* `entries_hold` — the entries of a clause.
-/

set_option autoImplicit false

namespace RestStore.Where

/-- The operators that a query holds among its clauses by itself. -/
def levelOperators : List String := ["$or", "$and", norKey, "$text"]

/-- A query, and the queries below its combinators. -/
inductive Level : Document → Document → Prop
  | top {query : Document} : Level query query
  | inside {query inner level : Document} {key : String} {natives : List Native} :
    isCombinator key = true → (key, .array natives) ∈ query → .document inner ∈ natives →
      Level inner level → Level query level

/-- A key of a clause, or of a subclause below its combinators. -/
inductive ClauseKey : Fields Rest → String → Prop
  | own {members : Fields Rest} {key : String} : key ∈ Fields.keys members → ClauseKey members key
  | inside {members inner : Fields Rest} {combinator key : String} {clauses : List Rest} :
    isCombinator combinator = true → (combinator, .array clauses) ∈ members →
      .object inner ∈ clauses → ClauseKey inner key → ClauseKey members key

theorem ClauseKey.mono {first second : Fields Rest} {key : String} (h : ClauseKey first key)
    (hsub : ∀ member ∈ first, member ∈ second) : ClauseKey second key := by
  cases h with
  | own hk =>
    obtain ⟨member, hm, rfl⟩ := List.mem_map.1 hk
    exact .own (List.mem_map_of_mem (hsub member hm))
  | inside hc hm hi hk => exact .inside hc (hsub _ hm) hi hk

/-! ## Levels of a query -/

section

variable {allowed : String → Prop}

/-- At every level of a query only some operators are allowed. -/
def QueryHolds (allowed : String → Prop) (query : Document) : Prop :=
  ∀ level, Level query level → ∀ key ∈ Fields.keys level, hasStart "$" key = true → allowed key

/-- At the level of an entry and at all levels below it only some operators are allowed. -/
structure EntryHolds (allowed : String → Prop) (entry : String × Native) : Prop where
  name : hasStart "$" entry.1 = true → allowed entry.1
  below : isCombinator entry.1 = true → ∀ natives, entry.2 = .array natives →
    ∀ inner, .document inner ∈ natives → QueryHolds allowed inner

theorem queryHolds_iff {query : Document} :
    QueryHolds allowed query ↔ ∀ entry ∈ query, EntryHolds allowed entry := by
  constructor
  · intro h entry hm
    refine ⟨h query .top entry.1 (List.mem_map_of_mem hm), ?_⟩
    intro hc natives hn inner hi level hl
    exact h level (.inside hc (hn ▸ hm) hi hl)
  · intro h level hl
    cases hl with
    | top =>
      intro key hk
      obtain ⟨entry, hm, rfl⟩ := List.mem_map.1 hk
      exact (h entry hm).name
    | inside hc hm hi hl => exact (h _ hm).below hc _ rfl _ hi level hl

/-- The clauses of two lists stand side by side below one `$nor`. -/
theorem EntryHolds.join {earlier clauses : List Native}
    (hearlier : EntryHolds allowed (norKey, .array earlier))
    (hclauses : EntryHolds allowed (norKey, .array clauses)) :
    EntryHolds allowed (norKey, .array (earlier ++ clauses)) := by
  refine ⟨hearlier.name, fun hc natives hn inner hi => ?_⟩
  cases hn
  rcases List.mem_append.1 hi with hi | hi
  · exact hearlier.below hc _ rfl inner hi
  · exact hclauses.below hc _ rfl inner hi

theorem queryHolds_write {query : Document} {entry : String × Native}
    (hq : QueryHolds allowed query) (he : EntryHolds allowed entry) :
    QueryHolds allowed (write query entry) := by
  obtain ⟨name, native⟩ := entry
  have hinsert : ∀ own, EntryHolds allowed own →
      QueryHolds allowed (Fields.insert query own.1 own.2) := by
    intro own ho
    rw [queryHolds_iff] at hq ⊢
    intro other hm
    rcases Fields.mem_insert hm with rfl | hm
    · exact ho
    · exact hq other hm
  unfold write
  split
  · rename_i earlier clauses hget hnative
    split
    · rename_i hnor
      cases hnor
      cases hnative
      have hheld := queryHolds_iff.1 hq _ (Fields.mem_of_get? hget)
      exact hinsert (norKey, .array (earlier ++ clauses)) (hheld.join he)
    · exact hinsert (name, native) he
  · exact hinsert (name, native) he

/-- **What is known of every entry is known of all levels of their query.** -/
theorem queryHolds_merge {owns : List (String × Native)}
    (h : ∀ own ∈ owns, EntryHolds allowed own) : QueryHolds allowed (merge owns) := by
  suffices ∀ (owns : List (String × Native)) (query : Document), QueryHolds allowed query →
      (∀ own ∈ owns, EntryHolds allowed own) → QueryHolds allowed (owns.foldl write query) from
    this owns [] (queryHolds_iff.2 fun _ hm => nomatch hm) h
  intro owns
  induction owns with
  | nil => exact fun _ hq _ => hq
  | cons own owns ih =>
    intro query hq h
    exact ih (write query own) (queryHolds_write hq (h own List.mem_cons_self))
      fun other ho => h other (List.mem_cons_of_mem _ ho)

end

/-! ## Entries of a clause -/

section

variable {scope : Scope} {allowed : String → Prop}

/-- The operators of the levels are allowed, and so are the keys of a clause, unless they are
declared as pointers. -/
structure AllowsKeys (scope : Scope) (allowed : String → Prop) (members : Fields Rest) : Prop where
  listed : ∀ key ∈ levelOperators, allowed key
  sent : ∀ key, ClauseKey members key → scope.target.schema.fieldIs key .pointer = false →
    allowed key

theorem AllowsKeys.mono {first second : Fields Rest} (h : AllowsKeys scope allowed second)
    (hsub : ∀ member ∈ first, member ∈ second) : AllowsKeys scope allowed first :=
  ⟨h.listed, fun key hk => h.sent key (hk.mono hsub)⟩

theorem AllowsKeys.inside {key : String} {clauses : List Rest} {inner : Fields Rest}
    (h : AllowsKeys scope allowed [(key, .array clauses)]) (hc : isCombinator key = true)
    (hi : .object inner ∈ clauses) : AllowsKeys scope allowed inner :=
  ⟨h.listed, fun name hk => h.sent name (.inside hc List.mem_cons_self hi hk)⟩

/-- A column with a dollar sign is a key as it was sent. -/
theorem column_of_dollar {key : String} (hc : isCombinator key = false)
    (hd : hasStart "$" (column scope.target.schema key) = true) :
    column scope.target.schema key = key ∧ scope.target.schema.fieldIs key .pointer = false := by
  rcases column_cases scope.target.schema hc with hs | ht | h
  · obtain ⟨first, hfirst⟩ := hasStart_iff.1 hs
    obtain ⟨second, hsecond⟩ := hasStart_iff.1 hd
    have heads := congrArg String.toList (hfirst.symm.trans hsecond)
    simp at heads
  · rw [ht] at hd
    exact absurd hd (by decide)
  · exact h

theorem entryHolds_column {key : String} {value : Rest} (hc : isCombinator key = false)
    (h : AllowsKeys scope allowed [(key, value)]) (native : Native) :
    EntryHolds allowed (column scope.target.schema key, native) := by
  refine ⟨?_, ?_⟩
  · intro hd
    obtain ⟨hk, hp⟩ := column_of_dollar hc hd
    rw [hk]
    exact h.sent key (.own List.mem_cons_self) hp
  · intro hcolumn
    have hdollar : hasStart "$" (column scope.target.schema key) = true := by
      simp only [isCombinator, Bool.or_eq_true, beq_iff_eq] at hcolumn
      rcases hcolumn with (he | he) | he <;> rw [he] <;> decide
    rw [(column_of_dollar hc hdollar).1, hc] at hcolumn
    cases hcolumn

theorem entryHolds_fieldEntry {guard : Nesting} {key : String} {value : Rest}
    {own : String × Native} (hc : isCombinator key = false)
    (h : AllowsKeys scope allowed [(key, value)])
    (ho : fieldEntry scope guard key value = .ok own) : EntryHolds allowed own := by
  rcases name_fieldEntry hc ho with hn | hn | ⟨constraint, rfl⟩
  · obtain ⟨name, native⟩ := own
    obtain rfl : name = column scope.target.schema key := hn
    exact entryHolds_column hc h native
  · refine ⟨fun _ => h.listed own.1 (by rw [hn]; decide), ?_⟩
    rw [hn]
    exact fun hcolumn => absurd hcolumn (by decide)
  · refine ⟨fun _ => h.listed norKey (by decide), ?_⟩
    intro _ natives hn inner hi
    cases hn
    cases List.mem_singleton.1 hi
    refine queryHolds_iff.2 fun entry hm => ?_
    cases List.mem_singleton.1 hm
    exact entryHolds_column hc h _

-- by recursion on the clause: the subclauses below a combinator are clauses of their own
mutual

/-- **The entries of a clause hold operators that are listed or that its keys name.** -/
theorem entries_hold : ∀ {members : Fields Rest} {guard : Nesting}
    {owns : List (String × Native)}, AllowsKeys scope allowed members →
      entries scope guard members = .ok owns → ∀ own ∈ owns, EntryHolds allowed own
  | [], _, _, _, h, _, hm => by
    rw [entries] at h
    cases h
    cases hm
  | (_, _) :: _, _, _, ha, h, _, hm => by
    obtain ⟨first, later, rfl, he, hl⟩ := entries_cons h
    rcases List.mem_cons.1 hm with rfl | hm
    · exact entry_holds (ha.mono fun member hm => List.mem_singleton.1 hm ▸ List.mem_cons_self) he
    · exact entries_hold (ha.mono fun _ => List.mem_cons_of_mem _) hl _ hm

theorem entry_holds : ∀ {value : Rest} {guard : Nesting} {key : String} {own : String × Native},
    AllowsKeys scope allowed [(key, value)] → entry scope guard key value = .ok own →
      EntryHolds allowed own := by
  intro value guard key own ha h
  unfold entry at h
  cases hc : isCombinator key with
  | false =>
    rw [hc] at h
    exact entryHolds_fieldEntry hc ha h
  | true =>
    rw [hc] at h
    cases value with
    | array clauses =>
      obtain ⟨natives, hn, rfl⟩ := Outcome.map_eq_ok.1 h
      refine ⟨fun _ => ha.listed key ?_, ?_⟩
      · simp only [isCombinator, Bool.or_eq_true, beq_iff_eq] at hc
        rcases hc with (rfl | rfl) | rfl <;> decide
      · intro _ _ he
        cases he
        exact subclauses_hold (fun _ hi => ha.inside hc hi) hn
    | null | bool _ | number _ | string _ | object _ => cases h

theorem subclauses_hold : ∀ {clauses : List Rest} {guard : Nesting} {key : String}
    {natives : List Native},
    (∀ inner, .object inner ∈ clauses → AllowsKeys scope allowed inner) →
      subclauses scope guard key clauses = .ok natives →
        ∀ inner, .document inner ∈ natives → QueryHolds allowed inner
  | [], _, _, _, _, h, _, hi => by
    rw [subclauses] at h
    cases h
    cases hi
  | clause :: rest, _, _, _, ha, h, inner, hi => by
    rw [subclauses] at h
    split at h
    · cases h
    · rename_i native hn
      obtain ⟨natives, hrest, rfl⟩ := Outcome.map_eq_ok.1 h
      rcases List.mem_cons.1 hi with rfl | hi
      · exact subclause_holds (fun _ he => ha _ (he ▸ List.mem_cons_self)) hn
      · exact subclauses_hold (fun _ hm => ha _ (List.mem_cons_of_mem _ hm)) hrest inner hi

theorem subclause_holds : ∀ {clause : Rest} {guard : Nesting} {key : String} {inner : Document},
    (∀ members, clause = .object members → AllowsKeys scope allowed members) →
      subclause scope guard key clause = .ok (.document inner) → QueryHolds allowed inner := by
  intro clause guard key inner ha h
  unfold subclause at h
  cases clause with
  | object members =>
    dsimp only at h
    split at h
    · cases h
    · obtain ⟨owns, howns, he⟩ := Outcome.map_eq_ok.1 h
      cases he
      exact queryHolds_merge (entries_hold (ha members rfl) howns)
  | null | bool _ | number _ | string _ | array _ => cases h

end

/-- **An operator among the clauses of a query is a combinator or a text search, or a client sent it
as the key of a clause.** Neither a value nor a constraint of a field brings one in, nor does a
field that is declared as a pointer. -/
theorem operator_listed_or_sent {members : Fields Rest} {query level : Document} {key : String}
    (h : document scope members = .ok query) (hl : Level query level)
    (hk : key ∈ Fields.keys level) (hd : hasStart "$" key = true) :
    key ∈ levelOperators ∨
      ClauseKey members key ∧ scope.target.schema.fieldIs key .pointer = false := by
  obtain ⟨owns, howns, rfl⟩ := Outcome.map_eq_ok.1 (document_eq_ok h)
  have hall : AllowsKeys scope (fun key => key ∈ levelOperators ∨
      ClauseKey members key ∧ scope.target.schema.fieldIs key .pointer = false) members :=
    ⟨fun _ hm => .inl hm, fun _ hm hp => .inr ⟨hm, hp⟩⟩
  exact queryHolds_merge (entries_hold hall howns) level hl key hk hd

end

/-- Posts that a script picks, or whose tags are all known. -/
def scriptedClause : Fields Rest :=
  [("$or", .array [.object [("$where", .string "this.views > 1")],
    .object [("tags", .object [("$containedBy", .array [.string "a"])])]])]

/-- The query of such posts. -/
def scriptedQuery : Document :=
  [("$or", .array [.document [("$where", .string "this.views > 1")],
    .document [(norKey, .array [.document [("tags",
      .document [("$elemMatch", .document [("$nin", .array [.string "a"])])])]])]])]

theorem operator_listed_or_sent_post :
    document postScope scriptedClause = .ok scriptedQuery ∧
      ("$where" ∈ levelOperators ∨
        ClauseKey scriptedClause "$where" ∧
          postScope.target.schema.fieldIs "$where" .pointer = false) := by
  have hquery : document postScope scriptedClause = .ok scriptedQuery := rfl
  have hlevel : Level scriptedQuery [("$where", .string "this.views > 1")] :=
    .inside rfl List.mem_cons_self List.mem_cons_self .top
  exact ⟨hquery, operator_listed_or_sent hquery hlevel List.mem_cons_self (by decide)⟩

/-- A script that a client sends as the key of a clause stands among the clauses of the query. -/
theorem document_passes_operator :
    document postScope scriptedClause = .ok scriptedQuery ∧
      ∃ level, Level scriptedQuery level ∧ "$where" ∈ Fields.keys level ∧
        hasStart "$" "$where" = true ∧ "$where" ∉ levelOperators :=
  ⟨rfl, _, .inside rfl List.mem_cons_self List.mem_cons_self .top, List.mem_cons_self,
    by decide, by decide⟩

end RestStore.Where
