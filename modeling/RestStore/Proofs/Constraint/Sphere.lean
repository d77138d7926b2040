import RestStore.Proofs.Constraint.Names

/-!
# Points and spheres

A query that finds orders by the distance from a point, up to the largest distance of the request; a
query that counts looks inside a sphere around that point.

* `entry_counting` — an operator that is neither the point nor a distance has the same entry in
  both.
* `entries_counting` — the entries of a count are those of the find with the point folded.
* `count_folds_first_distance` — the sphere of a count has the first distance of the constraint as
  its radius, while a find holds the last one, and an explicit region replaces the sphere. So the
  two queries look at the same places where the first distance is the last and there is no explicit
  region, and only there.
-/

set_option autoImplicit false

namespace RestStore.Constraint

/-- What a constraint is compiled for by a query that finds. -/
def Scope.finding (scope : Scope) : Scope := { scope with count := false }

/-- What a constraint is compiled for by a query that counts. -/
def Scope.counting (scope : Scope) : Scope := { scope with count := true }

/-- The distance that an operator of a constraint sets. -/
def distance? (members : Fields Rest) (operator : ConstraintOperator) :
    Option (Except Failure Native) :=
  match operator.unitsPerRadian?, Fields.get? members operator.token with
  | some units, some operand => some (radians operator units operand)
  | _, _ => none

/-- The distances of a constraint, in the order of the operators. -/
def distances (members : Fields Rest) : List (Except Failure Native) :=
  ConstraintOperator.order.filterMap (distance? members)

/-- The entry of a count for an entry of a find: a sphere for a point. -/
def foldedEntry (point distance : Native) (entry : String × Native) : String × Native :=
  if entry.1 = ConstraintOperator.nearSphere.token then
    (ConstraintOperator.geoWithin.token, .document (sphere point distance))
  else entry

/-- The entries of a find with the point and its distance replaced by a sphere. -/
def folded (point distance : Native) (found : Document) : Document :=
  (found.filter fun entry => entry.1 != ConstraintOperator.maxDistance.token).map
    (foldedEntry point distance)

section

variable {scope : Scope} {members : Fields Rest} {operator : ConstraintOperator} {operand : Rest}

/-! ## One operator -/

theorem atoms_counting (values : List Rest) :
    atoms scope.counting values = atoms scope.finding values := by
  induction values with
  | nil => rfl
  | cons value rest ih =>
    have hatom : atom scope.counting value = atom scope.finding value := rfl
    simp only [atoms, hatom, ih]

/-- **Only the point and the distances are compiled in another way for a count.** -/
theorem entry_counting (hp : operator ≠ .nearSphere) (hd : operator.isDistance = false) :
    entry? scope.counting members operator operand =
      entry? scope.finding members operator operand := by
  cases operator with
  | less | lessOrEqual | greater | greaterOrEqual | isPresent | notEqual | equal | all | regex
  | options | text | within | geoWithin | geoIntersects | select | dontSelect => rfl
  | isIn | notIn =>
    unfold entry?
    simp only [membership, atoms_counting]
  | containedBy =>
    unfold entry?
    simp only [containment, atoms_counting]
  | nearSphere => exact absurd rfl hp
  | maxDistance | maxDistanceInRadians | maxDistanceInMiles | maxDistanceInKilometers => cases hd

/-- The distances are no entries of a count. -/
theorem entry_counting_distance (hd : operator.isDistance = true) :
    entry? scope.counting members operator operand = .ok none := by
  cases operator <;> first | rfl | cases hd

theorem entry_finding_distance {units : Nat} (hu : operator.unitsPerRadian? = some units) :
    entry? scope.finding members operator operand =
      (radians operator units operand).map fun distance =>
        some (ConstraintOperator.maxDistance.token, distance) := by
  cases operator <;> first | cases hu; rfl | cases hu

theorem folded_append (point distance : Native) (first second : Document) :
    folded point distance (first ++ second) =
      folded point distance first ++ folded point distance second := by
  simp only [folded, List.filter_append, List.map_append]

/-- The entry of an operator for a count, from its entry for a find. -/
theorem folded_entry {own : Option (String × Native)} {point : GeoPoint} {first : Native}
    (hpoint : operator = .nearSphere → pointOperand .nearSphere operand = .ok point)
    (hfirst : firstDistance members ConstraintOperator.order = .ok first)
    (h : entry? scope.finding members operator operand = .ok own) :
    ∃ counted, entry? scope.counting members operator operand = .ok counted ∧
      counted.toList = folded point.toNative first own.toList := by
  obtain ⟨native, rfl⟩ := name_found rfl h
  by_cases hp : operator = .nearSphere
  · subst hp
    refine ⟨some (ConstraintOperator.geoWithin.token, .document (sphere point.toNative first)), ?_,
      rfl⟩
    unfold entry?
    simp only [near, hpoint rfl, hfirst, Scope.counting, if_true]
    rfl
  · cases hd : operator.isDistance with
    | true =>
      refine ⟨none, entry_counting_distance hd, ?_⟩
      rw [ConstraintOperator.foundName_of_isDistance hd]
      rfl
    | false =>
      refine ⟨_, (entry_counting hp hd).trans h, ?_⟩
      have hname : operator.foundName ≠ ConstraintOperator.maxDistance.token ∧
          operator.foundName ≠ ConstraintOperator.nearSphere.token := by
        cases operator <;> first | decide | exact absurd rfl hp | cases hd
      simp [folded, foldedEntry, hname.1, hname.2]

/-! ## All operators -/

/-- **The entries of a count** are those of the find, with the point and the distances folded. -/
theorem entries_counting {point : GeoPoint} {first : Native} {near : Rest}
    (hnear : Fields.get? members ConstraintOperator.nearSphere.token = some near)
    (hpoint : pointOperand .nearSphere near = .ok point)
    (hfirst : firstDistance members ConstraintOperator.order = .ok first) :
    ∀ {order : List ConstraintOperator} {owns : Document},
      entries scope.finding members order = .ok owns →
        entries scope.counting members order = .ok (folded point.toNative first owns)
  | [], _, h => by
    cases h
    rfl
  | operator :: rest, owns, h => by
    unfold entries at h
    split at h
    · rename_i hget
      simp only [entries, hget]
      exact entries_counting hnear hpoint hfirst h
    · rename_i operand hget
      split at h
      · cases h
      · rename_i own hown
        obtain ⟨later, hl, rfl⟩ := Outcome.map_eq_ok.1 h
        have hpoint' : operator = .nearSphere → pointOperand .nearSphere operand = .ok point := by
          rintro rfl
          cases hnear.symm.trans hget
          exact hpoint
        obtain ⟨counted, hc, hfold⟩ := folded_entry hpoint' hfirst hown
        simp only [entries, hget, hc, entries_counting hnear hpoint hfirst hl, Except.map,
          folded_append, hfold]

/-- The distances that a find writes, in its order. -/
theorem distances_found : ∀ {order : List ConstraintOperator} {owns : Document},
    entries scope.finding members order = .ok owns →
      order.filterMap (distance? members) =
        (owns.filter fun entry => entry.1 == ConstraintOperator.maxDistance.token).map
          fun entry => .ok entry.2
  | [], _, h => by
    cases h
    rfl
  | operator :: rest, owns, h => by
    unfold entries at h
    split at h
    · rename_i hget
      have hnone : distance? members operator = none := by
        unfold distance?
        rw [hget]
        split <;> rename_i hs <;> first | cases hs | rfl
      rw [List.filterMap_cons_none hnone, distances_found h]
    · rename_i operand hget
      split at h
      · cases h
      · rename_i own hown
        obtain ⟨later, hl, rfl⟩ := Outcome.map_eq_ok.1 h
        rw [List.filter_append, List.map_append, ← distances_found hl]
        cases hu : operator.unitsPerRadian? with
        | some units =>
          rw [entry_finding_distance hu] at hown
          obtain ⟨distance, hr, rfl⟩ := Outcome.map_eq_ok.1 hown
          have hsome : distance? members operator = some (.ok distance) := by
            simp only [distance?, hu, hget, hr]
          rw [List.filterMap_cons_some hsome]
          rfl
        | none =>
          have hnone : distance? members operator = none := by simp only [distance?, hu]
          obtain ⟨native, rfl⟩ := name_found rfl hown
          have hname : operator.foundName ≠ ConstraintOperator.maxDistance.token := by
            cases operator <;> first | decide | cases hu
          rw [List.filterMap_cons_none hnone]
          simp [hname]

theorem firstDistance_eq : ∀ order : List ConstraintOperator,
    firstDistance members order =
      ((order.filterMap (distance? members)).head?).getD
        (.error (.constraint .countWithoutDistance))
  | [] => rfl
  | operator :: rest => by
    unfold firstDistance
    split
    · rename_i units operand hu hget
      have hsome : distance? members operator = some (radians operator units operand) := by
        simp only [distance?, hu, hget]
      rw [List.filterMap_cons_some hsome]
      rfl
    · rename_i hno
      have hnone : distance? members operator = none := by
        unfold distance?
        split
        · rename_i units operand hu hget
          exact absurd hget (hno units operand hu)
        · rfl
      rw [List.filterMap_cons_none hnone]
      exact firstDistance_eq rest

/-- An operator that is a distance and occurs sets a distance. -/
theorem distances_ne_nil (hd : operator.isDistance = true)
    (hin : Fields.contains members operator.token = true) : distances members ≠ [] := by
  obtain ⟨units, hu⟩ := Option.isSome_iff_exists.1 hd
  obtain ⟨operand, hget⟩ := Option.isSome_iff_exists.1 hin
  have hsome : distance? members operator = some (radians operator units operand) := by
    simp only [distance?, hu, hget]
  exact List.ne_nil_of_mem (List.mem_filterMap.2 ⟨operator, operator.mem_order, hsome⟩)

/-- What a find holds under the name of the distances is the last of them. -/
theorem get?_found_distance {owns : Document}
    (h : entries scope.finding members ConstraintOperator.order = .ok owns) :
    (distances members).getLast? =
      (Fields.get? (Fields.ofList owns) ConstraintOperator.maxDistance.token).map .ok := by
  rw [distances, distances_found h, Fields.ofList, Fields.get?_insertAll, List.getLast?_map,
    Fields.get?_nil, Option.or_none, Option.map_map]
  rfl

/-- All distances of a find are compiled, so there is a first one and a last one. -/
theorem exists_distances {owns : Document} (hne : distances members ≠ [])
    (h : entries scope.finding members ConstraintOperator.order = .ok owns) :
    ∃ first last, (distances members).head? = some (.ok first) ∧
      (distances members).getLast? = some (.ok last) ∧
      Fields.get? (Fields.ofList owns) ConstraintOperator.maxDistance.token = some last := by
  have hlast := List.getLast?_isSome.2 hne
  rw [get?_found_distance h, Option.isSome_map] at hlast
  obtain ⟨last, hget⟩ := Option.isSome_iff_exists.1 hlast
  have hfound := distances_found h
  rw [← distances] at hfound
  rw [hfound] at hne
  obtain ⟨entry, rest, hentry⟩ :=
    List.exists_cons_of_ne_nil fun hnil => hne (List.map_eq_nil_iff.2 hnil)
  refine ⟨entry.2, last, ?_, ?_, hget⟩
  · rw [hfound, hentry]
    rfl
  · rw [get?_found_distance h, hget]
    rfl

/-- What a find holds under the name of the point is the point. -/
theorem get?_found_point {owns : Document}
    (hnear : Fields.get? members ConstraintOperator.nearSphere.token = some operand)
    (h : entries scope.finding members ConstraintOperator.order = .ok owns) :
    ∃ point, pointOperand .nearSphere operand = .ok point ∧
      Fields.get? (Fields.ofList owns) ConstraintOperator.nearSphere.token =
        some point.toNative := by
  obtain ⟨before, after, horder⟩ := List.append_of_mem ConstraintOperator.nearSphere.mem_order
  obtain ⟨native, hown, hget⟩ := holdsOperators rfl h before .nearSphere after operand horder hnear
  have hnot : ConstraintOperator.nearSphere ∉ after := by
    have hnodup : ConstraintOperator.order.Nodup := by decide
    rw [horder] at hnodup
    exact (List.nodup_cons.1 (List.nodup_append.1 hnodup).2.1).1
  have hheld := hget fun other ho _ hname =>
    hnot (ConstraintOperator.eq_of_foundName rfl hname ▸ ho)
  obtain ⟨placed, hp, he⟩ := Outcome.map_eq_ok.1 hown
  unfold near at hp
  split at hp
  · cases hp
  · rename_i point hpoint
    cases hp
    cases he
    exact ⟨point, hpoint, hheld⟩

end

/-! ## The folded entries -/

section

variable (point distance : Native) {found : Document}

/-- Folding can be done before or after the entries are written. -/
theorem folded_ofList {scope : Scope} {members : Fields Rest} {owns : Document}
    (h : entries scope.finding members ConstraintOperator.order = .ok owns) :
    folded point distance (Fields.ofList owns) = folded point distance owns := by
  have hfilter := Fields.filter_insertAll
    (fun name => name != ConstraintOperator.maxDistance.token) [] owns
  unfold folded Fields.ofList
  rw [hfilter]
  exact congrArg _ (Fields.ofList_of_nodup (nodup_entries rfl h))

theorem name_foldedEntry (entry : String × Native) :
    (foldedEntry point distance entry).1 =
      if entry.1 = ConstraintOperator.nearSphere.token then ConstraintOperator.geoWithin.token
      else entry.1 := by
  unfold foldedEntry
  split <;> rfl

/-- The sphere has a name of its own where the find has no explicit region. -/
theorem nodup_folded_iff (hn : (Fields.keys found).Nodup)
    (hnear : ConstraintOperator.nearSphere.token ∈ Fields.keys found) :
    (Fields.keys (folded point distance found)).Nodup ↔
      ConstraintOperator.geoWithin.token ∉ Fields.keys found := by
  have hkeys : Fields.keys (folded point distance found) =
      (found.filter fun entry => entry.1 != ConstraintOperator.maxDistance.token).map
        fun entry => (foldedEntry point distance entry).1 := by
    unfold folded Fields.keys
    rw [List.map_map]
    rfl
  have hmem : ∀ {name : String} {native : Native}, (name, native) ∈ found →
      name ≠ ConstraintOperator.maxDistance.token → (name, native) ∈ found.filter fun entry =>
        entry.1 != ConstraintOperator.maxDistance.token :=
    fun hm hne => List.mem_filter.2 ⟨hm, bne_iff_ne.2 hne⟩
  rw [hkeys]
  constructor
  · -- the point and an explicit region would get one name
    intro hnodup hregion
    obtain ⟨⟨_, near⟩, hm, rfl⟩ := List.mem_map.1 hnear
    obtain ⟨⟨_, region⟩, hr, rfl⟩ := List.mem_map.1 hregion
    have hsame := List.inj_on_of_nodup_map hnodup (hmem hm (by decide)) (hmem hr (by decide)) rfl
    exact absurd (congrArg Prod.fst hsame)
      (show ConstraintOperator.nearSphere.token ≠ ConstraintOperator.geoWithin.token by decide)
  · intro hregion
    refine List.Nodup.map_on ?_ ((List.Nodup.of_map _ hn).filter _)
    intro first hf second hs hname
    have hregion' : ∀ entry ∈ found.filter fun entry =>
        entry.1 != ConstraintOperator.maxDistance.token,
          entry.1 ≠ ConstraintOperator.geoWithin.token := fun entry hm he =>
      hregion (he ▸ List.mem_map_of_mem (List.mem_of_mem_filter hm))
    have hfst : first.1 = second.1 := by
      rw [name_foldedEntry, name_foldedEntry] at hname
      split at hname <;> split at hname
      · rename_i h₁ h₂
        rw [h₁, h₂]
      · exact absurd hname.symm (hregion' second hs)
      · exact absurd hname (hregion' first hf)
      · exact hname
    exact List.inj_on_of_nodup_map hn (List.mem_of_mem_filter hf) (List.mem_of_mem_filter hs) hfst

/-- The distance can be read from the folded entries. -/
theorem folded_inj {other : Native}
    (hnear : ConstraintOperator.nearSphere.token ∈ Fields.keys found) :
    folded point distance found = folded point other found ↔ distance = other := by
  constructor
  · intro h
    obtain ⟨⟨_, near⟩, hm, rfl⟩ := List.mem_map.1 hnear
    have hsame := List.map_inj_left.1 h _ (List.mem_filter.2 ⟨hm, rfl⟩)
    cases hsame
    rfl
  · rintro rfl
    rfl

/-- The entries of a count are the folded ones where the distance is the same and the sphere has a
name of its own. -/
theorem ofList_folded_iff {other : Native} (hn : (Fields.keys found).Nodup)
    (hnear : ConstraintOperator.nearSphere.token ∈ Fields.keys found) :
    Fields.ofList (folded point distance found) = folded point other found ↔
      distance = other ∧ ConstraintOperator.geoWithin.token ∉ Fields.keys found := by
  constructor
  · intro h
    have hnodup := Fields.nodup_ofList (folded point distance found)
    rw [h, nodup_folded_iff point other hn hnear] at hnodup
    rw [Fields.ofList_of_nodup ((nodup_folded_iff point distance hn hnear).2 hnodup)] at h
    exact ⟨(folded_inj point distance hnear).1 h, hnodup⟩
  · rintro ⟨rfl, hregion⟩
    exact Fields.ofList_of_nodup ((nodup_folded_iff point distance hn hnear).2 hregion)

end

/-! ## Counts and finds -/

/-- **The sphere of a count.** A constraint with a point and a distance that is compiled for a find
is compiled for a count: the point and the distance that the find holds give way to a sphere. Its
radius is the first distance of the constraint while the find holds the last one, and it stands
under the name of an explicit region, which is written after it. So the count is the find with its
own distance folded just when the first distance is the last and no region is given. -/
theorem count_folds_first_distance {scope : Scope} {members : Fields Rest} {found : Document}
    (hnear : Fields.contains members ConstraintOperator.nearSphere.token = true)
    (hdistance : ∃ operator : ConstraintOperator,
      operator.isDistance = true ∧ Fields.contains members operator.token = true)
    (hfound : compile? scope.finding (.object members) = .ok (some found)) :
    ∃ point first last counted,
      (distances members).head? = some (.ok first) ∧
      (distances members).getLast? = some (.ok last) ∧
      Fields.get? found ConstraintOperator.nearSphere.token = some point ∧
      Fields.get? found ConstraintOperator.maxDistance.token = some last ∧
      compile? scope.counting (.object members) = .ok (some counted) ∧
      counted = Fields.ofList (folded point first found) ∧
      (counted = folded point last found ↔
        first = last ∧ Fields.contains members ConstraintOperator.geoWithin.token = false) := by
  obtain ⟨hkeys, hknown, owns, howns, rfl⟩ := compile?_eq_some.1 hfound
  obtain ⟨near, hget⟩ := Option.isSome_iff_exists.1 hnear
  obtain ⟨operator, hd, hin⟩ := hdistance
  obtain ⟨point, hpoint, hheld⟩ := get?_found_point hget howns
  obtain ⟨first, last, hfirst, hlast, hdistance⟩ :=
    exists_distances (distances_ne_nil hd hin) howns
  have hradius : firstDistance members ConstraintOperator.order = .ok first := by
    rw [firstDistance_eq, ← distances, hfirst]
    rfl
  have hcounted := entries_counting hget hpoint hradius howns
  rw [← folded_ofList _ _ howns] at hcounted
  have hname : ConstraintOperator.nearSphere.token ∈ Fields.keys (Fields.ofList owns) :=
    List.mem_map_of_mem (Fields.mem_of_get? hheld)
  have hregion : Fields.contains members ConstraintOperator.geoWithin.token = false ↔
      ConstraintOperator.geoWithin.token ∉ Fields.keys (Fields.ofList owns) := by
    rw [← contains_found rfl howns .geoWithin rfl]
    exact Fields.contains_eq_false_iff
  refine ⟨point.toNative, first, last, _, hfirst, hlast, hheld, hdistance,
    compile?_eq_some.2 ⟨hkeys, hknown, _, hcounted, rfl⟩, rfl, ?_⟩
  rw [hregion]
  exact ofList_folded_iff _ _ (Fields.nodup_ofList owns) hname

/-- A constraint on an undeclared field. -/
def shoreScope : Scope := ⟨none, false, ⟨0, 0⟩, .top 64 .query⟩

/-- A point of the shore. -/
def shorePoint : Rest :=
  .object [("latitude", .number (.integer 1)), ("longitude", .number (.integer 2))]

/-- The point in the store's form. -/
def storedShorePoint : Native := .array [.int32 2, .int32 1]

/-- A point with a distance. -/
def nearShore : Fields Rest :=
  [("$maxDistance", .number (.integer 1)), ("$nearSphere", shorePoint)]

theorem count_folds_first_distance_shore :
    Fields.contains nearShore ConstraintOperator.nearSphere.token = true ∧
    (∃ operator : ConstraintOperator,
      operator.isDistance = true ∧ Fields.contains nearShore operator.token = true) ∧
    compile? shoreScope.finding (.object nearShore) =
      .ok (some [("$nearSphere", storedShorePoint), ("$maxDistance", .int32 1)]) ∧
    ∃ point first last counted,
      (distances nearShore).head? = some (.ok first) ∧
      (distances nearShore).getLast? = some (.ok last) ∧
      Fields.get? [("$nearSphere", storedShorePoint), ("$maxDistance", .int32 1)]
        ConstraintOperator.nearSphere.token = some point ∧
      Fields.get? [("$nearSphere", storedShorePoint), ("$maxDistance", .int32 1)]
        ConstraintOperator.maxDistance.token = some last ∧
      compile? shoreScope.counting (.object nearShore) = .ok (some counted) ∧
      counted = Fields.ofList
        (folded point first [("$nearSphere", storedShorePoint), ("$maxDistance", .int32 1)]) ∧
      (counted =
          folded point last [("$nearSphere", storedShorePoint), ("$maxDistance", .int32 1)] ↔
        first = last ∧
          Fields.contains nearShore ConstraintOperator.geoWithin.token = false) :=
  ⟨by decide, ⟨.maxDistance, by decide, by decide⟩, rfl,
    count_folds_first_distance (by decide) ⟨.maxDistance, by decide, by decide⟩ rfl⟩

/-- A point with two distances. -/
def nearShoreTwice : Fields Rest :=
  ("$maxDistanceInRadians", .number (.integer 2)) :: nearShore

/-- A point with a distance, and a region. -/
def nearShoreInside : Fields Rest :=
  ("$geoWithin", .object [("$centerSphere", .array [.array [.number (.integer 8),
    .number (.integer 9)], .number (.integer 3)])]) :: nearShore

/-- Of two distances the find takes one and the count the other; and beside a region the count
forgets the point. -/
theorem count_takes_other_sphere :
    (compile? shoreScope.finding (.object nearShoreTwice) =
        .ok (some [("$nearSphere", storedShorePoint), ("$maxDistance", .int32 1)]) ∧
      compile? shoreScope.counting (.object nearShoreTwice) =
        .ok (some [("$geoWithin", .document (sphere storedShorePoint (.int32 2)))]) ∧
      [("$geoWithin", Native.document (sphere storedShorePoint (.int32 2)))] ≠
        folded storedShorePoint (.int32 1)
          [("$nearSphere", storedShorePoint), ("$maxDistance", .int32 1)]) ∧
    compile? shoreScope.finding (.object nearShoreInside) =
        .ok (some [("$nearSphere", storedShorePoint), ("$maxDistance", .int32 1),
          ("$geoWithin", .document (sphere (.array [.int32 8, .int32 9]) (.int32 3)))]) ∧
      compile? shoreScope.counting (.object nearShoreInside) =
        .ok (some
          [("$geoWithin", .document (sphere (.array [.int32 8, .int32 9]) (.int32 3)))]) ∧
      [("$geoWithin", Native.document (sphere (.array [.int32 8, .int32 9]) (.int32 3)))] ≠
        folded storedShorePoint (.int32 1)
          [("$nearSphere", storedShorePoint), ("$maxDistance", .int32 1),
            ("$geoWithin", .document (sphere (.array [.int32 8, .int32 9]) (.int32 3)))] := by
  refine ⟨⟨rfl, rfl, ?_⟩, rfl, rfl, ?_⟩
  · intro h
    cases List.head_eq_of_cons_eq h
  · intro h
    cases congrArg List.length h

end RestStore.Constraint
