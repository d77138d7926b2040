import RestStore.Proofs.Decode.Placements
import RestStore.Proofs.Rest.Alike

/-!
# Documents with their columns in another order

The decoder goes over the columns of a document one by one and writes into one object, and still the
order of the columns does not matter, as long as no two of them are read under one name. The login
data of a user is the exception that holds: its columns share a field, with an entry for each.

* `ReadAlike` — two documents are both read, as equal objects up to order, or both refused.
* `ReadApart` — no two columns are read under one name.
* `HoldsLoginData` — the login data of a user is that of its columns.
* `decoded_in_any_order` — the order does not matter.
-/

set_option autoImplicit false

namespace RestStore.Decode

/-- Two documents are read as equal objects, up to the order of members, or both are refused. -/
inductive ReadAlike : Except Failure (Fields Rest) → Except Failure (Fields Rest) → Prop
  | read {first second : Fields Rest} : (Fields.keys first).Nodup → (Fields.keys second).Nodup →
    Rest.Alike (.object first) (.object second) → ReadAlike (.ok first) (.ok second)
  | refused (first second : Failure) : ReadAlike (.error first) (.error second)

/-- No name but that of login data is read from two columns. -/
def ReadApart (target : Target) (document : Document) : Prop :=
  ((readNames target document).filter (· ≠ loginDataKey)).Nodup

/-- Whether a column is named after a provider of login data. -/
def isLoginColumn (column : String × Native) : Bool := (authColumnProvider? column.1).isSome

/-- An entry of login data is what one column holds, under the name of the provider. -/
def EntryOf (target : Target) (column : String × Native) (entry : String × Rest) : Prop :=
  authColumnProvider? column.1 = some entry.1 ∧ nested target column.2 = .ok entry.2

/-- The login data of an object is that of the columns of its document. It is there if there is such
a column, and has one entry for each of them. -/
structure HoldsLoginData (target : Target) (document : Document) (object : Fields Rest) : Prop where
  present : Fields.contains object loginDataKey = true ↔
    ∃ column ∈ document, isLoginColumn column = true
  entries : ∀ value, Fields.get? object loginDataKey = some value →
    ∃ members, value = .object members ∧ (Fields.keys members).Nodup ∧
      List.Forall₂ (EntryOf target) (document.filter isLoginColumn) members

variable {target : Target} {document : Document}

/-! ## Names -/

/-- Only its own column is read under the name of login data. -/
theorem column_of_loginField {column : String × Native}
    (hpointer : target.schema.fieldIs loginDataKey .pointer = false)
    (h : readName? target column = some loginDataKey) :
    column.1 = loginDataKey ∧ target.className ≠ userClass := by
  unfold readName? at h
  split at h
  · rename_i name value hplaced
    cases h
    rcases placement_cases hplaced with he | ⟨_, _, _, _, he⟩ | ⟨_, _, he, hlogin⟩
    · cases he
    · cases he
    · cases he
      rcases hlogin rfl with hp | hcolumn
      · rw [hpointer] at hp
        cases hp
      · exact hcolumn
  all_goals cases h

theorem nodup_readNames (hpointer : target.schema.fieldIs loginDataKey .pointer = false) :
    ∀ {document : Document}, (Fields.keys document).Nodup → ReadApart target document →
      (readNames target document).Nodup
  | [], _, _ => List.nodup_nil
  | column :: rest, hn, hapart => by
    rw [Fields.keys, List.map_cons, List.nodup_cons] at hn
    unfold ReadApart at hapart
    unfold readNames at hapart ⊢
    rw [List.filterMap_cons] at hapart ⊢
    cases hname : readName? target column with
    | none =>
      rw [hname] at hapart
      exact nodup_readNames hpointer hn.2 hapart
    | some name =>
      rw [hname] at hapart
      have hrest : ReadApart target rest := hapart.sublist ((List.sublist_cons_self _ _).filter _)
      refine List.nodup_cons.2 ⟨fun hm => ?_, nodup_readNames hpointer hn.2 hrest⟩
      by_cases hlogin : name = loginDataKey
      · -- the column of the same name stands once
        subst hlogin
        obtain ⟨other, hother, hread⟩ := List.mem_filterMap.1 hm
        have hsame := (column_of_loginField hpointer hread).1
        rw [← (column_of_loginField hpointer hname).1] at hsame
        exact hn.1 (hsame ▸ List.mem_map_of_mem hother)
      · rw [List.filter_cons_of_pos (by simpa using hlogin), List.nodup_cons] at hapart
        exact hapart.1 (List.mem_filter.2 ⟨hm, by simpa using hlogin⟩)

/-- Only users have login data. -/
theorem logins_eq_nil {all : List Placement} (hclass : target.className ≠ userClass)
    (hall : placements target document = .ok all) : all.filterMap Placement.login? = [] := by
  have hnone : (Fields.keys document).filterMap (loginProvider? target) = [] :=
    List.filterMap_eq_nil_iff.2 fun column _ => by
      unfold loginProvider?
      rw [if_neg hclass]
  have hkeys := (keys_logins hall).trans hnone
  exact List.map_eq_nil_iff.1 hkeys

/-- Every provider has one column. -/
theorem nodup_logins {all : List Placement} (hn : (Fields.keys document).Nodup)
    (hall : placements target document = .ok all) :
    (Fields.keys (all.filterMap Placement.login?)).Nodup := by
  have hcolumn : ∀ {column provider : String}, loginProvider? target column = some provider →
      column = authStart ++ provider := fun h =>
    (authColumnProvider?_eq_some (loginProvider?_eq_some h).2).1
  rw [keys_logins hall]
  refine hn.filterMap fun column other provider hc ho => ?_
  rw [hcolumn hc, hcolumn ho]

/-- No field of a user is written under the name of login data. -/
theorem ne_loginDataKey {all : List Placement} (hclass : target.className = userClass)
    (hpointer : target.schema.fieldIs loginDataKey .pointer = false)
    (hall : placements target document = .ok all) :
    ∀ entry ∈ all.filterMap Placement.field?, entry.1 ≠ loginDataKey := by
  intro entry hm he
  have hread : loginDataKey ∈ readNames target document :=
    keys_fields hall ▸ he ▸ List.mem_map_of_mem hm
  obtain ⟨column, _, hcolumn⟩ := List.mem_filterMap.1 hread
  exact (column_of_loginField hpointer hcolumn).2 hclass

/-- Every column of login data adds its entry. -/
theorem entries_logins (hclass : target.className = userClass) :
    ∀ {document : Document} {all : List Placement}, placements target document = .ok all →
      List.Forall₂ (EntryOf target) (document.filter isLoginColumn)
        (all.filterMap Placement.login?)
  | [], _, h => by
    cases h
    exact .nil
  | (column, native) :: rest, _, h => by
    obtain ⟨first, later, hfirst, hlater, rfl⟩ := placements_cons.1 h
    have ih := entries_logins hclass hlater
    have hprovider : loginProvider? target column = authColumnProvider? column :=
      loginProvider?_user hclass
    cases hauth : authColumnProvider? column with
    | some provider =>
      rw [hauth] at hprovider
      rw [placement_login hprovider] at hfirst
      obtain ⟨value, hvalue, rfl⟩ := Outcome.map_eq_ok.1 hfirst
      rw [List.filter_cons_of_pos (by rw [isLoginColumn, hauth]; rfl)]
      exact .cons ⟨hauth, hvalue⟩ ih
    | none =>
      rw [List.filter_cons_of_neg (by rw [isLoginColumn, hauth]; simp)]
      rcases placement_cases hfirst with rfl | ⟨provider, _, hp, _⟩ | ⟨name, value, rfl, _⟩
      · exact ih
      · rw [hprovider, hauth] at hp
        cases hp
      · exact ih

/-! ## Whole documents -/

theorem object_eq_ok {object : Fields Rest} : Decode.object target document = .ok object ↔
    ∃ lists all, permissionLists target document = .ok lists ∧
      placements target document = .ok all ∧
      object = target.schema.relations.foldl addRelation (all.foldl place lists) := by
  unfold Decode.object
  cases permissionLists target document with
  | error failure => simp
  | ok lists =>
    dsimp only
    rw [Outcome.map_eq_ok]
    simp [eq_comm]

theorem permissionLists_perm {first second : Document} (hp : first.Perm second)
    (hn : (Fields.keys second).Nodup) :
    permissionLists target first = permissionLists target second := by
  have hget := Fields.get?_perm hp hn
  unfold permissionLists permissionList Fields.contains
  rw [hget, hget]

theorem nodup_object {object : Fields Rest} (h : Decode.object target document = .ok object) :
    (Fields.keys object).Nodup := by
  obtain ⟨lists, all, hlists, _, rfl⟩ := object_eq_ok.1 h
  refine nodup_foldl_addRelation _ (nodup_foldl_place all ?_)
  unfold permissionLists at hlists
  split at hlists
  · split at hlists
    · cases hlists
    · obtain ⟨writers, _, rfl⟩ := Outcome.map_eq_ok.1 hlists
      simp [readersColumn, writersColumn]
  · cases hlists
    exact List.nodup_nil

/-- The permission lists have their own names. -/
theorem get?_permissionLists {lists : Fields Rest}
    (h : permissionLists target document = .ok lists) :
    Fields.get? lists loginDataKey = none := by
  unfold permissionLists at h
  split at h
  · split at h
    · cases h
    · obtain ⟨writers, _, rfl⟩ := Outcome.map_eq_ok.1 h
      rfl
  · cases h
    rfl

/-- **The fields of a document in another order** are placed in an object that holds the same. -/
theorem placed_alike {lists : Fields Rest} {all others : List Placement}
    (hpointer : target.schema.fieldIs loginDataKey .pointer = false)
    (hlists : Fields.get? lists loginDataKey = none) (hall : placements target document = .ok all)
    (hperm : all.Perm others) (hn : (Fields.keys document).Nodup)
    (hapart : ReadApart target document) (key : String) :
    Option.Rel Rest.Alike (Fields.get? (all.foldl place lists) key)
      (Fields.get? (others.foldl place lists) key) := by
  have hfields := hperm.filterMap Placement.field?
  have hlogins := hperm.filterMap Placement.login?
  have hnames : (Fields.keys (all.filterMap Placement.field?)).Nodup :=
    keys_fields hall ▸ nodup_readNames hpointer hn hapart
  by_cases hshared : key = loginDataKey → all.filterMap Placement.login? = []
  · have hshared' : key = loginDataKey → others.filterMap Placement.login? = [] := fun he =>
      List.nil_perm.1 (hshared he ▸ hlogins)
    have hnames' : (Fields.keys (others.filterMap Placement.field?)).Nodup :=
      (hfields.map Prod.fst).nodup_iff.1 hnames
    rw [get?_foldl_place hshared, get?_foldl_place hshared', Fields.ofList_of_nodup hnames,
      Fields.ofList_of_nodup hnames', Fields.get?_perm hfields hnames']
    exact Rest.Alike.refl_option _
  · -- there is login data, so the document is that of a user, and no field has its name
    obtain ⟨rfl, hlogin⟩ := Classical.not_imp.1 hshared
    have hlogin' : others.filterMap Placement.login? ≠ [] := fun hnil =>
      hlogin (List.perm_nil.1 (hnil ▸ hlogins))
    have hfree := ne_loginDataKey
      (Classical.not_not.1 fun hclass => hlogin (logins_eq_nil hclass hall)) hpointer hall
    have hfree' : ∀ entry ∈ others.filterMap Placement.field?, entry.1 ≠ loginDataKey :=
      fun entry hm => hfree entry (hfields.mem_iff.2 hm)
    have hproviders := nodup_logins hn hall
    have hproviders' := (hlogins.map Prod.fst).nodup_iff.1 hproviders
    rw [get?_foldl_place_login hlists hfree, get?_foldl_place_login hlists hfree', if_neg hlogin,
      if_neg hlogin', Fields.ofList_of_nodup hproviders, Fields.ofList_of_nodup hproviders']
    exact .some ((Rest.Reordered.intro hlogins.symm).alike hproviders)

/-- A document whose columns are those of another one is read if the other one is, as an object that
holds the same. -/
theorem object_perm {first second : Document} (hp : first.Perm second)
    (hn : (Fields.keys first).Nodup)
    (hpointer : target.schema.fieldIs loginDataKey .pointer = false)
    (hapart : ReadApart target first) {object : Fields Rest}
    (h : Decode.object target first = .ok object) :
    ∃ other, Decode.object target second = .ok other ∧
      Rest.Alike (.object object) (.object other) := by
  obtain ⟨lists, all, hlists, hall, rfl⟩ := object_eq_ok.1 h
  obtain ⟨others, hothers, hperm⟩ := placements_perm hp hall
  have hn' : (Fields.keys second).Nodup := (hp.map Prod.fst).nodup_iff.1 hn
  have hlists' := permissionLists_perm hp hn' ▸ hlists
  refine ⟨_, object_eq_ok.2 ⟨lists, others, hlists', hothers, rfl⟩, .object fun key => ?_⟩
  rw [get?_foldl_addRelation, get?_foldl_addRelation]
  exact Rest.Alike.or_default
    (placed_alike hpointer (get?_permissionLists hlists) hall hperm hn hapart key) _

/-- **The login data of a user** is that of the columns of the document. -/
theorem holdsLoginData (hclass : target.className = userClass)
    (hpointer : target.schema.fieldIs loginDataKey .pointer = false)
    (hrelation : target.schema.fieldIs loginDataKey .relation = false)
    (hn : (Fields.keys document).Nodup) {object : Fields Rest}
    (h : Decode.object target document = .ok object) : HoldsLoginData target document object := by
  obtain ⟨lists, all, hlists, hall, rfl⟩ := object_eq_ok.1 h
  have hentries := entries_logins hclass hall
  have hheld : Fields.get? (target.schema.relations.foldl addRelation (all.foldl place lists))
      loginDataKey = if all.filterMap Placement.login? = [] then none
        else some (.object (all.filterMap Placement.login?)) := by
    have hplaceholder : (Fields.get? target.schema.relations loginDataKey).map
        FieldSchema.placeholder = none := by
      rw [Schema.get?_relations]
      exact Schema.placeholder?_eq_none hrelation
    rw [get?_foldl_addRelation, hplaceholder, Option.or_none,
      get?_foldl_place_login (get?_permissionLists hlists) (ne_loginDataKey hclass hpointer hall),
      Fields.ofList_of_nodup (nodup_logins hn hall)]
  refine ⟨?_, fun value hvalue => ?_⟩
  · have hcolumns : (∃ column ∈ document, isLoginColumn column = true) ↔
        document.filter isLoginColumn ≠ [] := by
      rw [ne_eq, List.filter_eq_nil_iff]
      simp
    rw [Fields.contains, hheld, hcolumns]
    split
    · rename_i hnil
      rw [hnil] at hentries
      simpa using List.forall₂_nil_right_iff.1 hentries
    · rename_i hsome
      refine iff_of_true rfl fun hnil => hsome ?_
      rw [hnil] at hentries
      exact List.forall₂_nil_left_iff.1 hentries
  · rw [hheld] at hvalue
    split at hvalue
    · cases hvalue
    · cases hvalue
      exact ⟨_, rfl, nodup_logins hn hall, hentries⟩

/-- Login data of another class is refused. -/
theorem object_refused (hclass : target.className ≠ userClass) {column : String × Native}
    (hm : column ∈ document) (hlogin : isLoginColumn column = true) :
    ∃ failure, Decode.object target document = .error failure := by
  cases h : Decode.object target document with
  | error failure => exact ⟨failure, rfl⟩
  | ok object =>
    obtain ⟨lists, all, _, hall, rfl⟩ := object_eq_ok.1 h
    obtain ⟨provider, hprovider⟩ := Option.isSome_iff_exists.1 hlogin
    obtain ⟨placed, hplaced⟩ := (placements_ok_iff document).1 ⟨all, hall⟩ column hm
    rw [placement_refused hclass hprovider] at hplaced
    cases hplaced

/-- **The order of the columns does not matter.** Two documents with the same columns in different
orders, no two of them read under one name, are both read, as equal objects up to the order of
members, or both refused. The login data of a user is that of its columns, whatever else the
document holds; outside the class of users such a column is refused. -/
theorem decoded_in_any_order {first second : Document} (hp : first.Perm second)
    (hn : (Fields.keys first).Nodup)
    (hpointer : target.schema.fieldIs loginDataKey .pointer = false)
    (hrelation : target.schema.fieldIs loginDataKey .relation = false) :
    (ReadApart target first →
      ReadAlike (Decode.object target first) (Decode.object target second)) ∧
    (target.className = userClass → ∀ object, Decode.object target first = .ok object →
      HoldsLoginData target first object) ∧
    (target.className ≠ userClass → ∀ column ∈ first, isLoginColumn column = true →
      ∃ failure, Decode.object target first = .error failure) := by
  refine ⟨fun hapart => ?_, fun hclass object h => holdsLoginData hclass hpointer hrelation hn h,
    fun hclass column hm hlogin => object_refused hclass hm hlogin⟩
  cases h : Decode.object target first with
  | ok object =>
    obtain ⟨other, hother, halike⟩ := object_perm hp hn hpointer hapart h
    rw [hother]
    exact .read (nodup_object h) (nodup_object hother) halike
  | error failure =>
    cases h' : Decode.object target second with
    | error other => exact .refused failure other
    | ok other =>
      have hn' : (Fields.keys second).Nodup := (hp.map Prod.fst).nodup_iff.1 hn
      have hapart' : ReadApart target second :=
        ((hp.filterMap _).filter _).nodup_iff.1 hapart
      obtain ⟨object, hobject, _⟩ := object_perm hp.symm hn' hpointer hapart' h'
      rw [h] at hobject
      cases hobject

/-- The class of users. -/
def userTarget : Target :=
  ⟨"_User", .ofFields [("friends", ⟨.relation, some "_User"⟩), ("team", ⟨.pointer, some "Team"⟩)],
    .standard⟩

/-- A stored user with a team, login data of two providers, and a column that is left over. -/
def storedUser : Document :=
  [("_id", .string "u1"), ("_auth_data_github", .document [("id", .int32 7)]),
    ("authData", .string "left over"), ("_rperm", .array [.string "u1"]),
    ("_p_team", .string "Team$t1"), ("_auth_data_facebook", .null)]

theorem decoded_in_any_order_user :
    ReadAlike (Decode.object userTarget storedUser) (Decode.object userTarget storedUser.reverse) ∧
      (∃ object, Decode.object userTarget storedUser = .ok object ∧
        HoldsLoginData userTarget storedUser object ∧
        Fields.get? object "authData" =
          some (.object [("github", .object [("id", .number (.integer 7))]),
            ("facebook", .null)])) ∧
      ∃ failure, Decode.object { userTarget with className := "Guest" } storedUser =
        .error failure := by
  have hn : (Fields.keys storedUser).Nodup := by decide
  have hnames : readNames userTarget storedUser = ["objectId", "team"] := rfl
  have hapart : ReadApart userTarget storedUser := by
    rw [ReadApart, hnames]
    decide
  have hp : storedUser.Perm storedUser.reverse := (List.reverse_perm _).symm
  obtain ⟨halike, hlogin, _⟩ := decoded_in_any_order hp hn
    (show userTarget.schema.fieldIs loginDataKey .pointer = false by decide) (by decide)
  have hguestPointer : ({ userTarget with className := "Guest" } : Target).schema.fieldIs
      loginDataKey .pointer = false := by decide
  obtain ⟨_, _, hrefused⟩ := decoded_in_any_order hp hn hguestPointer (by decide)
  refine ⟨halike hapart, ⟨_, rfl, hlogin rfl _ rfl, rfl⟩,
    hrefused (by decide) ("_auth_data_github", .document [("id", .int32 7)]) ?_ (by decide)⟩
  exact List.mem_cons_of_mem _ List.mem_cons_self

end RestStore.Decode
