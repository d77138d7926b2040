import RestStore.Column
import RestStore.Failure
import RestStore.Native.Basic

/-!
# Permissions

Who may read and write an object. One set of grants is the source of three stored forms: the list
of readers, the list of writers, and an older map from ids to grants.

* `PermissionSet.ofLists` and `PermissionSet.ofAcl` build a set from id lists or from an `ACL` map.
  Each grant remembers the position of the id in its list.
* `PermissionSet.readIds`, `writeIds` and `legacy` are the stored forms; a list that was never
  declared has none, which differs from an empty list.
* `withLegacyAcl` rewrites the permissions of an object into all three.
-/

set_option autoImplicit false

namespace RestStore

/-- The field that holds permissions. -/
def aclKey : String := "ACL"

/-- The column of the older map. -/
def legacyAclColumn : String := "_acl"

/-- The grants of one id, each with its position among the grants of its kind. -/
structure PermissionEntry where
  id : String
  read : Option Nat
  write : Option Nat
deriving DecidableEq, Repr

/-- The grants of an object, and which of the two lists were declared. -/
structure PermissionSet where
  entries : List PermissionEntry
  readDeclared : Bool
  writeDeclared : Bool
deriving DecidableEq, Repr

/-- The grants of one id in an `ACL` map. -/
structure AclGrant where
  read : Bool
  write : Bool
deriving DecidableEq, Repr

namespace PermissionSet

/-- Changes the entry of an id, which is added at the end when there is none. -/
def adjust (id : String) (change : PermissionEntry → PermissionEntry) :
    List PermissionEntry → List PermissionEntry
  | [] => [change ⟨id, none, none⟩]
  | entry :: rest =>
    if entry.id = id then change entry :: rest else entry :: adjust id change rest

/-- Grants reading at a position, unless it is granted already. -/
def grantRead (rank : Nat) (entry : PermissionEntry) : PermissionEntry :=
  { entry with read := entry.read.or (some rank) }

/-- Grants writing at a position, unless it is granted already. -/
def grantWrite (rank : Nat) (entry : PermissionEntry) : PermissionEntry :=
  { entry with write := entry.write.or (some rank) }

/-- Grants to each id of a list, at its position in the list. -/
def grantList (grant : Nat → PermissionEntry → PermissionEntry) :
    Nat → List String → List PermissionEntry → List PermissionEntry
  | _, [], entries => entries
  | rank, id :: rest, entries =>
    grantList grant (rank + 1) rest (adjust id (grant rank) entries)

/-- The set of two optional id lists. The writers come first, and the readers join them. -/
def ofLists (read write : Option (List String)) : PermissionSet :=
  let writers := grantList grantWrite 0 (write.getD []) []
  ⟨grantList grantRead 0 (read.getD []) writers, read.isSome, write.isSome⟩

/-- A flag of an `ACL` grant; a flag that is left out or null is not granted. -/
def flag (id key : String) (grant : Fields Rest) : Except Failure Bool :=
  match Fields.get? grant key with
  | none | some .null => .ok false
  | some (.bool flag) => .ok flag
  | some _ => .error (.permission (.flagNotBoolean key id))

/-- The grant of one id. -/
def grantOfRest (id : String) : Rest → Except Failure AclGrant
  | .object grant =>
    match flag id "read" grant with
    | .error failure => .error failure
    | .ok read => (flag id "write" grant).map fun write => ⟨read, write⟩
  | _ => .error (.permission (.entryNotObject id))

/-- The grants of an `ACL` map in their order. -/
def grantsOfAcl : List (String × Rest) → Except Failure (Fields AclGrant)
  | [] => .ok []
  | (id, value) :: rest =>
    match grantOfRest id value with
    | .error failure => .error failure
    | .ok grant => (grantsOfAcl rest).map ((id, grant) :: ·)

/-- Records grants, counting those of each kind. -/
def recordGrants : Nat → Nat → Fields AclGrant → List PermissionEntry → List PermissionEntry
  | _, _, [], entries => entries
  | reads, writes, (id, grant) :: rest, entries =>
    let change (entry : PermissionEntry) : PermissionEntry :=
      { entry with
        read := if grant.read then some reads else entry.read
        write := if grant.write then some writes else entry.write }
    recordGrants (if grant.read then reads + 1 else reads)
      (if grant.write then writes + 1 else writes) rest (adjust id change entries)

/-- The set of an `ACL` map. Both lists count as declared. -/
def ofAcl (acl : Fields Rest) : Except Failure PermissionSet :=
  (grantsOfAcl acl).map fun grants => ⟨recordGrants 0 0 grants [], true, true⟩

/-- The texts of an array of texts. -/
def idsOfRest? : List Rest → Option (List String)
  | [] => some []
  | .string id :: rest => (idsOfRest? rest).map (id :: ·)
  | _ => none

/-- A permission list of an object. -/
def idList (members : Fields Rest) (key : String) : Except Failure (Option (List String)) :=
  match Fields.get? members key with
  | none => .ok none
  | some (.array items) =>
    match idsOfRest? items with
    | some ids => .ok (some ids)
    | none => .error (.permission (.notIdList key))
  | some _ => .error (.permission (.notIdList key))

/-- The permissions of an object: of its `ACL` map, or else of its lists; none without either. -/
def ofMembers? (members : Fields Rest) : Except Failure (Option PermissionSet) :=
  match Fields.get? members aclKey with
  | some (.object acl) => (ofAcl acl).map some
  | some _ => .error (.permission .notObject)
  | none =>
    match idList members readersColumn with
    | .error failure => .error failure
    | .ok read =>
      (idList members writersColumn).map fun write =>
        if read.isNone && write.isNone then none else some (ofLists read write)

/-! ## Stored forms -/

/-- The ids that have a grant, in the order of its positions. -/
def project (rank : PermissionEntry → Option Nat) (entries : List PermissionEntry) :
    List String :=
  let ranked := entries.filterMap fun entry => (rank entry).map fun position =>
    (position, entry.id)
  (ranked.mergeSort fun a b => decide (a.1 ≤ b.1)).map Prod.snd

/-- The list of readers, when it was declared. -/
def readIds (set : PermissionSet) : Option (List String) :=
  if set.readDeclared then some (project (·.read) set.entries) else none

/-- The list of writers, when it was declared. -/
def writeIds (set : PermissionSet) : Option (List String) :=
  if set.writeDeclared then some (project (·.write) set.entries) else none

/-- The names of the grants of an entry in the older map. -/
def grantNames (entry : PermissionEntry) : List String :=
  (if entry.write.isSome then ["w"] else []) ++ (if entry.read.isSome then ["r"] else [])

/-- The ids with at least one grant, and the names of their grants. -/
def legacyGrants (set : PermissionSet) : Fields (List String) :=
  Fields.ofList ((set.entries.map fun entry => (entry.id, grantNames entry)).filter fun entry =>
    !entry.2.isEmpty)

/-- The older map. -/
def legacy (set : PermissionSet) : Document :=
  set.legacyGrants.map fun (id, names) =>
    (id, .document (names.map fun name => (name, .bool true)))

/-- The older map as a REST value. -/
def legacyRest (set : PermissionSet) : Rest :=
  .object (set.legacyGrants.map fun (id, names) =>
    (id, .object (names.map fun name => (name, .bool true))))

/-- The columns of a set. -/
def columns (set : PermissionSet) : Document :=
  let list (key : String) (ids : Option (List String)) : Document :=
    match ids with
    | none => []
    | some ids => [(key, .array (ids.map .string))]
  list readersColumn set.readIds ++ list writersColumn set.writeIds ++
    [(legacyAclColumn, .document set.legacy)]

/-- The members that stand for a set in a REST object. -/
def members (set : PermissionSet) : Fields Rest :=
  let list (key : String) (ids : Option (List String)) : Fields Rest :=
    match ids with
    | none => []
    | some ids => [(key, .array (ids.map .string))]
  list readersColumn set.readIds ++ list writersColumn set.writeIds ++
    [(legacyAclColumn, set.legacyRest)]

end PermissionSet

/-- An object with its permissions in all three stored forms instead of an `ACL` map; an object
without permissions stays as it is. -/
def withLegacyAcl (members : Fields Rest) : Except Failure (Fields Rest) :=
  (PermissionSet.ofMembers? members).map fun permissions =>
    match permissions with
    | none => members
    | some set => Fields.insertAll (Fields.swapErase members aclKey) set.members

end RestStore
