import RestStore.Proofs.Column
import RestStore.Proofs.Fields
import RestStore.Proofs.Native.Origin
import RestStore.Proofs.Rest.Shape
import RestStore.Proofs.Write.Columns
import RestStore.Write.Update

/-!
# Creating and replacing

An update whose members are all values, and not operations or paths, replaces the columns it
writes. `update_sets_created` says that such an update is `$set` of the document that creating the
same object stores, column by column and in the same order, and that both refuse the same objects
with the same class and message.

* `PlainMember` — the members for which the two paths are meant to agree.
* `forUpdate_eq` — both paths choose the same column.
* `value_sameOutcome`, `field_sameOutcome`, `fields_sameOutcome` — one value, one member, and a
  list of them.
* `collect_setEntries` — contributions that all set make one operator document.
-/

set_option autoImplicit false

namespace RestStore

/-- A member that writes a value to its own column: not an operation, not a path into a stored
object, and no field whose column holds something else than its value. -/
structure PlainMember (target : Target) (key : String) (value : Rest) : Prop where
  not_path : Column.isPath key = false
  not_internal : hasStart "_" key = false ∨ key = readersColumn ∨ key = writersColumn
  not_id : key ≠ objectIdKey
  not_session : key ≠ "sessionToken"
  not_times_used : key ≠ "timesUsed"
  not_operation : value.get? operationKey = none
  /-- An instant is given as a text or as an envelope. -/
  instant : key ∈ ["createdAt", "updatedAt", "lastUsed", "expiresAt"] →
    (∃ text, value = .string text) ∨ value.hasTag Instant.kind = true
  /-- A pointer is given by an id or as an envelope. -/
  pointer : target.schema.fieldIs key .pointer = true →
    (∃ text, value = .string text ∧ text ≠ "") ∨ value.hasTag Pointer.kind = true
  /-- No field declared with another type holds a pointer. -/
  no_pointer : ∀ field, target.schema.field? key = some field → field.type ≠ .pointer →
    value.hasTag Pointer.kind = false

namespace PlainMember

variable {target : Target} {key : String} {value : Rest}

/-- Apart from the permission lists, such a member is one of a client's own fields. -/
theorem hasStart_eq_false (h : PlainMember target key value)
    (hp : Create.isPermissionKey key = false) : hasStart "_" key = false := by
  rcases h.not_internal with hs | rfl | rfl
  · exact hs
  · cases hp
  · cases hp

theorem verbatimColumn?_eq_none (h : PlainMember target key value)
    (hp : Create.isPermissionKey key = false) : Create.verbatimColumn? key = none := by
  rcases verbatimColumn?_cases (h.hasStart_eq_false hp) with ⟨hid, _⟩ | ⟨hs, _⟩ | ⟨_, _, hn⟩
  · exact absurd hid h.not_id
  · exact absurd hs h.not_session
  · exact hn

/-- Both paths see the same pointers. -/
theorem writesPointer_eq (h : PlainMember target key value) :
    Create.writesPointer target key value = Column.writesPointer target.schema key value := by
  have hp := h.pointer
  have hn := h.no_pointer
  unfold Create.writesPointer Column.writesPointer
  simp only [Schema.fieldIs] at hp ⊢
  cases hf : target.schema.field? key with
  | none =>
    rw [h.not_path]
    cases htag : value.hasTag Pointer.kind with
    | false => simp
    | true =>
      have hbytes := hasTag_ne htag (show Pointer.kind ≠ Bytes.kind by decide)
      simp [isTruthy_of_hasTag htag, hbytes]
  | some field =>
    rw [hf] at hp
    by_cases ht : field.type = .pointer
    · rcases hp (by simp [ht]) with ⟨text, rfl, hne⟩ | htag
      · have : text.isEmpty = false := by simpa using hne
        simp [Rest.isTruthy, Rest.hasTag, Rest.get?, this]
      · have hbytes := hasTag_ne htag (show Pointer.kind ≠ Bytes.kind by decide)
        simp [ht, isTruthy_of_hasTag htag, hbytes]
    · simp [hn field hf ht, ht]

/-- Both paths choose the same column. -/
theorem forUpdate_eq (h : PlainMember target key value)
    (hp : Create.isPermissionKey key = false) :
    Column.forUpdate target.schema key value =
      match Create.timeColumn? key with
      | some column => ⟨column, .time⟩
      | none => ⟨Create.plainColumn target key value, .plain⟩ := by
  unfold Column.forUpdate Create.timeColumn?
  cases hr : Column.reserved? key with
  | some column =>
    rcases reserved?_cases hr with ⟨hid, _⟩ | ⟨_, rfl⟩ | ⟨_, rfl⟩ | ⟨hs, _⟩ | ⟨_, rfl⟩ | ⟨ht, _⟩
    · exact absurd hid h.not_id
    · rfl
    · rfl
    · exact absurd hs h.not_session
    · rfl
    · exact absurd ht h.not_times_used
  | none =>
    dsimp only
    by_cases ht : key ∈ internalTimes
    · rw [if_pos ht, if_pos ht]
    · have hperm : ¬(key = readersColumn ∨ key = writersColumn) := by
        simp only [Create.isPermissionKey, Bool.or_eq_false_iff, beq_eq_false_iff_ne] at hp
        exact fun hk => hk.elim hp.1.2 hp.2
      rw [if_neg ht, if_neg ht, if_neg hperm]
      simp only [Create.plainColumn, h.writesPointer_eq]
      split
      · rfl
      · rfl

/-- An instant is given as a text or as an envelope. -/
theorem timeValue_cases (h : PlainMember target key value)
    (hp : Create.isPermissionKey key = false) {column : String}
    (hc : Create.timeColumn? key = some column) :
    (∃ text, value = .string text) ∨ value.hasTag Instant.kind = true := by
  apply h.instant
  rcases timeColumn?_cases hc (h.hasStart_eq_false hp) with
    ⟨rfl, _⟩ | ⟨rfl, _⟩ | ⟨rfl, _⟩ | ⟨rfl, _⟩ <;> simp

end PlainMember

/-! ## One member and many -/

/-- The contribution that sets a column. -/
def setEntry (column : String × Native) : Update.Contribution :=
  Update.setColumn column.1 column.2

section

variable {target : Target}

theorem guard_sameDepth : SameDepth (Create.guard target) (Update.guard target) := ⟨rfl, rfl⟩

/-- A value without an operation takes the walk of nested values. -/
theorem compound?_eq (column : String) {value : Rest} (h : value.get? operationKey = none) :
    Update.compound? target column value =
      (Native.nested (Update.guard target) value).map fun native =>
        native.map (Update.setColumn column) := by
  unfold Update.compound?
  split
  · rename_i members
    have hop : Fields.contains members operationKey = false := by
      simpa [Rest.get?, Fields.contains] using h
    rw [hop]
    rfl
  · rfl

/-- The column of an ordinary value. -/
theorem value_sameOutcome {key : String} {value : Rest} (h : PlainMember target key value)
    (column : String) :
    SameOutcome (fun stored contribution => contribution = stored.map setEntry)
      ((Create.plainValue? target key value).map fun native => native.map fun native =>
        (column, native))
      (Update.value? target key column value) := by
  unfold Create.plainValue? Update.value?
  cases Native.columnAtom? (target.schema.field? key) value with
  | error failure => exact ⟨rfl, rfl⟩
  | ok atom =>
    cases atom with
    | some native =>
      simp only [h.not_path, Bool.false_eq_true, if_false]
      rfl
    | none =>
      dsimp only
      rw [compound?_eq column h.not_operation]
      refine (Native.nested_sameDepth guard_sameDepth value).map fun native _ he => ?_
      subst he
      cases native <;> rfl

/-- **A plain member sets the column that creating it stores.** -/
theorem field_sameOutcome {key : String} {value : Rest} (h : PlainMember target key value)
    (hp : Create.isPermissionKey key = false) :
    SameOutcome (fun column contribution => contribution = column.map setEntry)
      (Create.column? target key value) (Update.field? target key value) := by
  unfold Create.column? Update.field?
  rw [h.verbatimColumn?_eq_none hp, h.forUpdate_eq hp]
  cases hc : Create.timeColumn? key with
  | some column =>
    dsimp only
    rcases h.timeValue_cases hp hc with ⟨text, rfl⟩ | htag
    · simp only [Create.timeValue]
      cases Instant.ofText text with
      | error failure => exact ⟨rfl, rfl⟩
      | ok instant => rfl
    · obtain ⟨members, rfl, _⟩ := hasTag_iff.1 htag
      simp only [Create.timeValue, Update.value?, h.not_path]
      rcases columnAtom?_date (target.schema.field? key) htag with ⟨native, hn⟩ | ⟨failure, hf⟩
      · rw [hn]
        rfl
      · rw [hf]
        exact ⟨rfl, rfl⟩
  | none =>
    simp only [authIdProvider?_eq_none h.not_path, Option.isSome_none, Bool.false_eq_true,
      if_false]
    exact value_sameOutcome h _

/-- The permission lists contribute elsewhere. -/
theorem field?_permission {key : String} (value : Rest)
    (h : key = readersColumn ∨ key = writersColumn) :
    Update.field? target key value = .ok none := by
  rcases h with rfl | rfl <;> rfl

/-- The contributions of plain members set the columns that creating them stores. -/
theorem fields_sameOutcome : ∀ (members : Fields Rest),
    (∀ member ∈ members, PlainMember target member.1 member.2) →
      SameOutcome (fun columns contributions => contributions = columns.map setEntry)
        (Create.columns target members) (Update.fields target members)
  | [], _ => rfl
  | (key, value) :: rest, h => by
    have hrest := fields_sameOutcome rest fun member hm => h member (List.mem_cons_of_mem _ hm)
    have hkey := h (key, value) List.mem_cons_self
    unfold Create.columns Update.fields
    by_cases hrel : target.isRelation key value = true
    · rw [hrel, Bool.or_true, Bool.or_true]
      exact hrest
    · rw [Bool.not_eq_true] at hrel
      rw [hrel, Bool.or_false, Bool.or_false]
      by_cases hacl : key = aclKey
      · subst hacl
        exact hrest
      rw [show (key == aclKey) = false by simpa using hacl]
      cases hp : Create.isPermissionKey key with
      | true =>
        have hlist : key = readersColumn ∨ key = writersColumn := by
          simpa [Create.isPermissionKey, hacl] using hp
        simp only [field?_permission value hlist, Bool.false_eq_true, if_false, if_true]
        exact hrest.map_right fun _ _ e => e
      | false =>
        simp only [Bool.false_eq_true, if_false]
        rcases (field_sameOutcome hkey hp).cases with ⟨c, _, hc, hu, rfl⟩ | ⟨f, g, hc, hu, he⟩
        · rw [hc, hu]
          exact hrest.map fun columns _ e => by
            subst e
            cases c <;> simp
        · rw [hc, hu]
          exact he

/-! ## Whole objects -/

theorem place_setEntry (columns : Document) (entry : String × Native) :
    Update.place [(UpdateOperator.set.token, columns)] (setEntry entry) =
      [(UpdateOperator.set.token, Fields.insert columns entry.1 entry.2)] := by
  simp [Update.place, setEntry, Update.setColumn, Fields.get?, Fields.insert]

theorem foldl_setEntries : ∀ (entries columns : Document),
    (entries.map setEntry).foldl Update.place [(UpdateOperator.set.token, columns)] =
      [(UpdateOperator.set.token, Fields.insertAll columns entries)]
  | [], _ => rfl
  | entry :: entries, columns => by
    rw [List.map_cons, List.foldl_cons, place_setEntry, foldl_setEntries, Fields.insertAll_cons]

/-- The operator document that sets the columns of a document; without columns it is empty. -/
def setDocument (columns : Document) : Document :=
  if columns.isEmpty then [] else [(UpdateOperator.set.token, .document columns)]

/-- Contributions that all set are collected in one operator document. -/
theorem collect_setEntries (entries : Document) :
    (Update.collect (entries.map setEntry)).map
        (fun (token, columns) => (token, .document columns)) =
      setDocument (Fields.ofList entries) := by
  cases entries with
  | nil => rfl
  | cons entry rest =>
    have hne : Fields.ofList (entry :: rest) ≠ [] :=
      Fields.insertAll_ne_nil rest (Fields.insert_ne_nil _ _ _)
    have hcollect : Update.collect ((entry :: rest).map setEntry) =
        [(UpdateOperator.set.token, Fields.ofList (entry :: rest))] :=
      foldl_setEntries rest [(entry.1, entry.2)]
    unfold setDocument
    rw [hcollect, if_neg (by simpa using hne)]
    rfl

/-- **Updating with plain members sets what creating them stores**, the permissions first and then
the columns in the order of the request; and where one is refused, the other is refused with the
same class and message. -/
theorem update_sets_created {members : Fields Rest}
    (h : ∀ member ∈ members, PlainMember target member.1 member.2) :
    SameOutcome (fun created updated => updated = setDocument created)
      (Create.document target members) (Update.document target members) := by
  unfold Create.document Update.document Update.contributions
  cases hp : Create.permissionColumns members with
  | error failure => exact ⟨rfl, rfl⟩
  | ok permissions =>
    have hmerge : ∀ columns, Fields.insertAll permissions columns =
        Fields.ofList (permissions ++ columns) := fun columns => by
      unfold Fields.ofList
      rw [Fields.insertAll_append]
      congr 1
      exact (Fields.ofList_of_nodup (Create.nodup_permissionColumns hp)).symm
    rcases (fields_sameOutcome members h).cases with ⟨columns, _, hc, hu, rfl⟩ | ⟨f, g, hc, hu, he⟩
    · rw [hc, hu]
      show List.map _ (Update.collect _) = setDocument (Fields.insertAll permissions columns)
      rw [hmerge, ← collect_setEntries, List.map_append]
      rfl
    · rw [hc, hu]
      exact he

end

/-- A post by a user, with its date and its tags. -/
def postMembers : Fields Rest :=
  [("author", .tagged Pointer.kind [("className", .string "_User"), ("objectId", .string "u1")]),
    ("createdAt", .string "2020-01-01"), ("tags", .array [.string "a", .null])]

/-- The class of posts. -/
def postTarget : Target := ⟨"Post", .ofFields [("author", ⟨.pointer, some "_User"⟩)], .standard⟩

theorem update_sets_created_post :
    Create.document postTarget postMembers =
        .ok [("_p_author", .string "_User$u1"), ("_created_at", .date 1577836800000),
          ("tags", .array [.string "a", .null])] ∧
      SameOutcome (fun created updated => updated = setDocument created)
        (Create.document postTarget postMembers) (Update.document postTarget postMembers) := by
  refine ⟨rfl, update_sets_created fun member hm => ?_⟩
  simp only [postMembers, List.mem_cons, List.not_mem_nil, or_false] at hm
  rcases hm with rfl | rfl | rfl
  · exact ⟨by decide, by decide, by decide, by decide, by decide, rfl,
      fun h => absurd h (by decide),
      fun _ => .inr rfl, fun field hf ht => absurd ((Option.some.inj hf) ▸ rfl) ht⟩
  · exact ⟨by decide, by decide, by decide, by decide, by decide, rfl, fun _ => .inl ⟨_, rfl⟩,
      fun h => absurd h (by decide), fun field hf _ => nomatch hf⟩
  · exact ⟨by decide, by decide, by decide, by decide, by decide, rfl,
      fun h => absurd h (by decide),
      fun h => absurd h (by decide), fun field hf _ => nomatch hf⟩

end RestStore
