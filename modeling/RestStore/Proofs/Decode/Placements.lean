import Mathlib.Data.List.Induction
import Mathlib.Data.List.Nodup
import RestStore.Proofs.Outcome
import RestStore.Proofs.Placement
import RestStore.Proofs.Relations

/-!
# What the columns of a document put into its object

The columns of a document are placed one after the other. What comes out is told apart by the two
kinds of values: the fields, each under its own name, and the login data of the providers, which
share one field.

* `placement_login`, `placement_cases` — which columns hold login data, and what others give.
* `placements_perm` — the columns of a document in another order.
* `get?_foldl_place`, `get?_foldl_place_login` — what an object holds after all of them.
-/

set_option autoImplicit false

namespace RestStore.Decode

variable {target : Target}

/-- The field that a placement writes. -/
def Placement.field? : Placement → Option (String × Rest)
  | .field name value => some (name, value)
  | .nowhere | .loginData _ _ => none

/-- The login data that a placement adds. -/
def Placement.login? : Placement → Option (String × Rest)
  | .loginData provider value => some (provider, value)
  | .nowhere | .field _ _ => none

/-! ## Columns of login data -/

section

variable {column provider : String} {native : Native} {placed : Placement}

/-- A column of login data is the column of a user, named after a provider. -/
theorem loginProvider?_eq_some (h : loginProvider? target column = some provider) :
    target.className = userClass ∧ authColumnProvider? column = some provider := by
  unfold loginProvider? at h
  split at h
  · rename_i hclass
    exact ⟨hclass, h⟩
  · cases h

theorem loginProvider?_user (hclass : target.className = userClass) :
    loginProvider? target column = authColumnProvider? column := by
  unfold loginProvider?
  rw [if_pos hclass]

/-- A column whose name begins as those of login data is not fixed, and is no column of a
pointer. -/
theorem placement_auth (h : hasStart authStart column = true) :
    placement target column native = fieldPlacement target column native ∧
      dropStart? pointerStart column = none := by
  constructor
  · exact placement_of_not_fixed (not_mem_of_hasStart h (by decide))
      (not_mem_of_hasStart h (by decide)) (not_mem_of_hasStart h (by decide))
      fun hlogin => ne_of_hasStart h (by decide) hlogin.1
  · rw [Option.eq_none_iff_forall_ne_some]
    intro field hfield
    rw [dropStart?_eq_some_iff.1 hfield] at h
    obtain ⟨rest, hrest⟩ := hasStart_iff.1 h
    have heads := congrArg String.toList hrest
    simp [authStart, pointerStart] at heads

/-- **A column of login data** adds what it holds. -/
theorem placement_login (h : loginProvider? target column = some provider) :
    placement target column native = (nested target native).map (.loginData provider) := by
  have hstart : hasStart authStart column = true := by
    rw [(authColumnProvider?_eq_some (loginProvider?_eq_some h).2).1]
    exact hasStart_append _ _
  rw [(placement_auth hstart).1, fieldPlacement, h]

/-- Login data outside the class of users is refused. -/
theorem placement_refused (hclass : target.className ≠ userClass)
    (h : authColumnProvider? column = some provider) :
    placement target column native = .error (.decode (.unknownColumn column)) := by
  have he := (authColumnProvider?_eq_some h).1
  have hstart : hasStart authStart column = true := by
    rw [he]
    exact hasStart_append _ _
  have hunderscore : hasStart "_" column = true :=
    hasStart_of_authColumn (by rw [h]; rfl)
  have htype : column ≠ typeKey := ne_of_hasStart hstart (by decide)
  have hauth : placement target column native = fieldPlacement target column native ∧ _ :=
    placement_auth hstart
  obtain ⟨hplacement, hpointer⟩ := hauth
  rw [hplacement, fieldPlacement, loginProvider?, if_neg hclass, hpointer]
  simp [plainPlacement, hunderscore, htype]

/-- The field of a pointer is declared as one. -/
theorem fieldIs_of_pointer {field : String} {pointer : Pointer}
    (h : pointer? target field native = .ok (some pointer)) :
    target.schema.fieldIs field .pointer = true := by
  unfold pointer? at h
  unfold Schema.fieldIs
  cases hf : target.schema.field? field with
  | none =>
    rw [hf] at h
    cases h
  | some declared =>
    rw [hf] at h
    by_cases ht : declared.type = .pointer
    · simp [ht]
    · cases native <;> simp [ht] at h

/-- A column is left out, adds login data, or writes a field. The field of login data is written
only by its own column outside the class of users, or as a pointer. -/
theorem placement_cases (h : placement target column native = .ok placed) :
    placed = .nowhere ∨
      (∃ provider value, loginProvider? target column = some provider ∧
        nested target native = .ok value ∧ placed = .loginData provider value) ∨
      ∃ name value, placed = .field name value ∧ (name = loginDataKey →
        target.schema.fieldIs loginDataKey .pointer = true ∨
          column = loginDataKey ∧ target.className ≠ userClass) := by
  unfold placement at h
  split at h
  · cases h
    exact .inl rfl
  split at h
  · obtain ⟨id, _, rfl⟩ := Outcome.map_eq_ok.1 h
    exact .inr (.inr ⟨_, _, rfl, fun he => absurd he (by decide)⟩)
  split at h
  · obtain ⟨value, _, rfl⟩ := Outcome.map_eq_ok.1 h
    exact .inr (.inr ⟨_, _, rfl, fun he => absurd he (by decide)⟩)
  split at h
  · obtain ⟨instant, _, rfl⟩ := Outcome.map_eq_ok.1 h
    exact .inr (.inr ⟨_, _, rfl, fun he => absurd he (by decide)⟩)
  split at h
  · obtain ⟨value, _, rfl⟩ := Outcome.map_eq_ok.1 h
    exact .inr (.inr ⟨_, _, rfl, fun he => absurd he (by decide)⟩)
  split at h
  · cases h
    exact .inl rfl
  rename_i hlogin
  split at h
  · rename_i hinternal
    obtain ⟨value, _, rfl⟩ := Outcome.map_eq_ok.1 h
    exact .inr (.inr ⟨_, _, rfl, fun he => absurd (he ▸ hinternal) (by decide)⟩)
  split at h
  · rename_i field hfield
    obtain ⟨instant, _, rfl⟩ := Outcome.map_eq_ok.1 h
    refine .inr (.inr ⟨_, _, rfl, fun he => ?_⟩)
    subst he
    unfold timeField? at hfield
    repeat' split at hfield
    all_goals exact absurd hfield (by decide)
  unfold fieldPlacement at h
  split at h
  · rename_i provider hprovider
    obtain ⟨value, hvalue, rfl⟩ := Outcome.map_eq_ok.1 h
    exact .inr (.inl ⟨provider, value, hprovider, hvalue, rfl⟩)
  split at h
  · rename_i field _
    obtain ⟨pointer, hpointer, rfl⟩ := Outcome.map_eq_ok.1 h
    cases pointer with
    | none => exact .inl rfl
    | some pointer =>
      exact .inr (.inr ⟨_, _, rfl, fun he => .inl (he ▸ fieldIs_of_pointer hpointer)⟩)
  · unfold plainPlacement at h
    split at h
    · cases h
    · obtain ⟨value, _, rfl⟩ := Outcome.map_eq_ok.1 h
      exact .inr (.inr ⟨_, _, rfl, fun he => .inr ⟨he, fun hclass => hlogin ⟨he, hclass⟩⟩⟩)

end

/-! ## All columns -/

/-- The name under which a column is read; columns of login data have none of their own. -/
def readName? (target : Target) (column : String × Native) : Option String :=
  match placement target column.1 column.2 with
  | .ok (.field name _) => some name
  | .ok .nowhere | .ok (.loginData _ _) | .error _ => none

/-- The names under which the columns of a document are read. -/
def readNames (target : Target) (document : Document) : List String :=
  document.filterMap (readName? target)

section

variable {document : Document} {all : List Placement}

theorem placements_cons {column : String} {native : Native} :
    placements target ((column, native) :: document) = .ok all ↔
      ∃ first later, placement target column native = .ok first ∧
        placements target document = .ok later ∧ all = first :: later := by
  rw [placements]
  cases placement target column native with
  | error failure => simp
  | ok first =>
    dsimp only
    rw [Outcome.map_eq_ok]
    simp [eq_comm]

/-- **Columns in another order** are placed alike, in that order. -/
theorem placements_perm {first second : Document} (hp : first.Perm second) :
    ∀ {all : List Placement}, placements target first = .ok all →
      ∃ others, placements target second = .ok others ∧ all.Perm others := by
  induction hp with
  | nil => exact fun h => ⟨_, h, .refl _⟩
  | cons column _ ih =>
    intro all h
    obtain ⟨placed, later, hplaced, hlater, rfl⟩ := placements_cons.1 h
    obtain ⟨others, ho, hperm⟩ := ih hlater
    exact ⟨placed :: others, placements_cons.2 ⟨placed, others, hplaced, ho, rfl⟩, hperm.cons _⟩
  | swap column other rest =>
    intro all h
    obtain ⟨one, later, hone, hlater, rfl⟩ := placements_cons.1 h
    obtain ⟨two, last, htwo, hlast, rfl⟩ := placements_cons.1 hlater
    exact ⟨two :: one :: last, placements_cons.2 ⟨two, _, htwo,
      placements_cons.2 ⟨one, last, hone, hlast, rfl⟩, rfl⟩, .swap _ _ _⟩
  | trans _ _ first second =>
    intro all h
    obtain ⟨middle, hm, hfirst⟩ := first h
    obtain ⟨others, ho, hsecond⟩ := second hm
    exact ⟨others, ho, hfirst.trans hsecond⟩

/-- The fields of a document are written under the names that it is read under. -/
theorem keys_fields : ∀ {document : Document} {all : List Placement},
    placements target document = .ok all →
      Fields.keys (all.filterMap Placement.field?) = readNames target document
  | [], _, h => by
    cases h
    rfl
  | (column, native) :: rest, _, h => by
    obtain ⟨first, later, hfirst, hlater, rfl⟩ := placements_cons.1 h
    have ih := keys_fields hlater
    unfold readNames at ih ⊢
    rw [List.filterMap_cons, List.filterMap_cons, readName?, hfirst]
    cases first with
    | nowhere => exact ih
    | loginData provider value => exact ih
    | field name value => exact congrArg (name :: ·) ih

/-- The login data of a document is that of its providers. -/
theorem keys_logins : ∀ {document : Document} {all : List Placement},
    placements target document = .ok all →
      Fields.keys (all.filterMap Placement.login?) =
        (Fields.keys document).filterMap (loginProvider? target)
  | [], _, h => by
    cases h
    rfl
  | (column, native) :: rest, _, h => by
    obtain ⟨first, later, hfirst, hlater, rfl⟩ := placements_cons.1 h
    have ih := keys_logins hlater
    rw [Fields.keys_cons, List.filterMap_cons, List.filterMap_cons]
    cases hprovider : loginProvider? target column with
    | some provider =>
      rw [placement_login hprovider] at hfirst
      obtain ⟨value, _, rfl⟩ := Outcome.map_eq_ok.1 hfirst
      exact congrArg (provider :: ·) ih
    | none =>
      rcases placement_cases hfirst with rfl | ⟨provider, _, hp, _⟩ | ⟨name, value, rfl, _⟩
      · exact ih
      · rw [hprovider] at hp
        cases hp
      · exact ih

end

/-! ## The object -/

section

variable {object : Fields Rest}

theorem ofList_append (entries : Fields Rest) (entry : String × Rest) :
    Fields.ofList (entries ++ [entry]) =
      Fields.insert (Fields.ofList entries) entry.1 entry.2 := by
  rw [Fields.ofList, Fields.insertAll_append]
  rfl

theorem nodup_foldl_place : ∀ (all : List Placement) {object : Fields Rest},
    (Fields.keys object).Nodup → (Fields.keys (all.foldl place object)).Nodup
  | [], _, h => h
  | placed :: rest, object, h => by
    refine nodup_foldl_place rest ?_
    have hwritten : ∀ name value, (Fields.keys (Fields.insert object name value)).Nodup :=
      fun name value => Fields.nodup_insertAll [(name, value)] h
    unfold place
    split
    · exact h
    · exact hwritten _ _
    · split
      · exact hwritten _ _
      · exact hwritten _ _
      · exact h

/-- Login data changes nothing but its field. -/
theorem get?_place_login {key provider : String} (value : Rest) (hk : key ≠ loginDataKey) :
    Fields.get? (place object (.loginData provider value)) key = Fields.get? object key := by
  unfold place
  dsimp only
  split
  · exact Fields.get?_insert_of_ne _ _ hk.symm
  · exact Fields.get?_insert_of_ne _ _ hk.symm
  · rfl

/-- **A name** holds the last field that was placed under it, if no login data shares it. -/
theorem get?_foldl_place {key : String} : ∀ {all : List Placement},
    (key = loginDataKey → all.filterMap Placement.login? = []) →
      Fields.get? (all.foldl place object) key =
        (Fields.get? (Fields.ofList (all.filterMap Placement.field?)) key).or
          (Fields.get? object key) := by
  intro all
  induction all using List.reverseRecOn with
  | nil => exact fun _ => rfl
  | append_singleton all last ih =>
    intro hk
    rw [List.filterMap_append] at hk
    have ih := ih fun he => (List.append_eq_nil_iff.1 (hk he)).1
    rw [List.foldl_append, List.foldl_cons, List.foldl_nil, List.filterMap_append]
    cases last with
    | nowhere =>
      rw [show [Placement.nowhere].filterMap Placement.field? = [] from rfl, List.append_nil]
      exact ih
    | loginData provider value =>
      have hne : key ≠ loginDataKey := fun he => by simpa [Placement.login?] using hk he
      rw [show [Placement.loginData provider value].filterMap Placement.field? = [] from rfl,
        List.append_nil, get?_place_login value hne]
      exact ih
    | field name value =>
      rw [show [Placement.field name value].filterMap Placement.field? = [(name, value)] from rfl,
        ofList_append]
      show Fields.get? (Fields.insert _ name value) key = _
      by_cases hn : name = key
      · rw [hn, Fields.get?_insert_self, Fields.get?_insert_self]
        rfl
      · rw [Fields.get?_insert_of_ne _ _ hn, Fields.get?_insert_of_ne _ _ hn, ih]

/-- **The field of login data**, where no field is placed under its name, holds what was added to
it, by provider. -/
theorem get?_foldl_place_login (hobject : Fields.get? object loginDataKey = none) :
    ∀ {all : List Placement}, (∀ entry ∈ all.filterMap Placement.field?, entry.1 ≠ loginDataKey) →
      Fields.get? (all.foldl place object) loginDataKey =
        if all.filterMap Placement.login? = [] then none
        else some (.object (Fields.ofList (all.filterMap Placement.login?))) := by
  intro all
  induction all using List.reverseRecOn with
  | nil => exact fun _ => hobject
  | append_singleton all last ih =>
    intro hfree
    rw [List.filterMap_append] at hfree
    have ih := ih fun entry hm => hfree entry (List.mem_append_left _ hm)
    rw [List.foldl_append, List.foldl_cons, List.foldl_nil, List.filterMap_append]
    cases last with
    | nowhere =>
      rw [show [Placement.nowhere].filterMap Placement.login? = [] from rfl, List.append_nil]
      exact ih
    | field name value =>
      have hn : name ≠ loginDataKey :=
        hfree (name, value) (List.mem_append_right _ List.mem_cons_self)
      rw [show [Placement.field name value].filterMap Placement.login? = [] from rfl,
        List.append_nil, ← ih]
      exact Fields.get?_insert_of_ne _ _ hn
    | loginData provider value =>
      rw [show [Placement.loginData provider value].filterMap Placement.login? =
        [(provider, value)] from rfl, ofList_append, if_neg (by simp), place, ih]
      by_cases hnil : all.filterMap Placement.login? = []
      · rw [if_pos hnil, hnil]
        exact Fields.get?_insert_self _ _ _
      · rw [if_neg hnil]
        exact Fields.get?_insert_self _ _ _

end

end RestStore.Decode
