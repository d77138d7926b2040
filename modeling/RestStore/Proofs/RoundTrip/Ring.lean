import Mathlib.Data.List.Induction
import Mathlib.Data.List.Perm.Subperm
import RestStore.Proofs.Constraint.Region
import RestStore.Proofs.Double.Order
import RestStore.Proofs.RoundTrip.Field

/-!
# Rings both ways

A polygon is stored as a closed ring. Closing adds no point that is not there, so whether there are
three different points is a question about the vertices alone: `ring_cases`. A closed ring is closed
again by nothing, so what is read back from the store is stored as the same ring.

* `GeoPoint.same_symm`, `GeoPoint.same_trans`, `GeoPoint.same_self` — points are compared by an
  equivalence, as far as they lie on the globe.
* `three_le_distinct_iff` — picking the points that differ from all before finds three if there are
  three that differ.
* `storable_of_validate` — the store holds the coordinates of the globe exactly.
* `ring_reads_back` — when a polygon is stored, and what is stored.
-/

set_option autoImplicit false

namespace RestStore

namespace GeoPoint

variable {a b c : GeoPoint}

/-! ## Points -/

theorem same_iff : a.same b = true ↔
    a.latitude.toDouble.same b.latitude.toDouble = true ∧
      a.longitude.toDouble.same b.longitude.toDouble = true := Bool.and_eq_true_iff

theorem same_symm (h : a.same b = true) : b.same a = true := by
  obtain ⟨hlatitude, hlongitude⟩ := same_iff.1 h
  exact same_iff.2 ⟨Double.same_symm hlatitude, Double.same_symm hlongitude⟩

theorem same_trans (hab : a.same b = true) (hbc : b.same c = true) : a.same c = true := by
  obtain ⟨hlatitude, hlongitude⟩ := same_iff.1 hab
  obtain ⟨hlatitude', hlongitude'⟩ := same_iff.1 hbc
  exact same_iff.2
    ⟨Double.same_trans hlatitude hlatitude', Double.same_trans hlongitude hlongitude'⟩

/-- The greatest magnitude of a coordinate. -/
theorem magnitude_limit : (Double.ofInt 180).magnitude = 0x4066800000000000 := by decide

/-- **A coordinate on the globe is at most 180 in magnitude**, and so is no NaN. -/
theorem magnitude_le_of_validate (h : a.validate = .ok ()) :
    a.latitude.toDouble.magnitude ≤ (Double.ofInt 180).magnitude ∧
      a.longitude.toDouble.magnitude ≤ (Double.ofInt 180).magnitude := by
  unfold validate checkCoordinates at h
  split at h
  · cases h
  rename_i hnan
  split at h
  · cases h
  rename_i hsouth
  split at h
  · cases h
  rename_i hnorth
  split at h
  · cases h
  rename_i hwest
  split at h
  · cases h
  rename_i heast
  rw [Bool.not_eq_true, Bool.or_eq_false_iff] at hnan
  rw [Bool.not_eq_true] at hsouth hnorth hwest heast
  have hsouth' := Double.rank_le_of_not_lt hnan.1 (by decide) hsouth
  have hnorth' := Double.rank_le_of_not_lt (by decide) hnan.1 hnorth
  have hwest' := Double.rank_le_of_not_lt hnan.2 (by decide) hwest
  have heast' := Double.rank_le_of_not_lt (by decide) hnan.2 heast
  have hnorthRank : (Double.ofInt 90).rank = 0x4056800000000000 := by decide
  have hsouthRank : (Double.ofInt (-90)).rank = -0x4056800000000000 := by decide
  have heastRank : (Double.ofInt 180).rank = 0x4066800000000000 := by decide
  have hwestRank : (Double.ofInt (-180)).rank = -0x4066800000000000 := by decide
  rw [magnitude_limit, ← Double.natAbs_rank, ← Double.natAbs_rank]
  omega

theorem same_self (h : a.validate = .ok ()) : a.same a = true := by
  obtain ⟨hlatitude, hlongitude⟩ := magnitude_le_of_validate h
  have hlimit : (Double.ofInt 180).magnitude < Double.infinityBits := by decide
  exact same_iff.2
    ⟨Double.same_self (Double.isNaN_eq_false_of_magnitude (Nat.lt_of_le_of_lt hlatitude hlimit)),
      Double.same_self (Double.isNaN_eq_false_of_magnitude (Nat.lt_of_le_of_lt hlongitude hlimit))⟩

end GeoPoint

/-- An integer that the store cannot hold is a double far above the coordinates. -/
theorem Number.storable_of_magnitude_le {number : Number}
    (h : number.toDouble.magnitude ≤ (Double.ofInt 180).magnitude) : number.Storable := by
  rw [GeoPoint.magnitude_limit] at h
  cases number with
  | integer i =>
    by_contra hfits
    have hpower : Double.twoPow 63 = 9223372036854775808 := by decide
    have hlarge : Double.twoPow 63 ≤ i.natAbs := by
      simp only [Storable, fitsInt64, decide_eq_true_eq] at hfits
      omega
    have hmagnitude : min ((63 + 1021) * Double.leadingBit) Double.infinityBits ≤
        (Double.ofInt i).magnitude := Double.le_magnitude_ofInt hlarge
    have hbound : (Double.ofInt i).magnitude ≤ 0x4066800000000000 := h
    have hfar : 0x4066800000000000 < min ((63 + 1021) * Double.leadingBit) Double.infinityBits := by
      decide
    omega
  | double d =>
    have hbound : d.magnitude ≤ 0x4066800000000000 := h
    show decide (d.magnitude < 0x7FF0000000000000) = true
    rw [decide_eq_true_eq]
    omega

theorem GeoPoint.storable_of_validate {point : GeoPoint} (h : point.validate = .ok ()) :
    point.Storable := by
  obtain ⟨hlatitude, hlongitude⟩ := GeoPoint.magnitude_le_of_validate h
  exact ⟨Number.storable_of_magnitude_le hlatitude, Number.storable_of_magnitude_le hlongitude⟩

namespace Polygon

/-! ## Different points -/

/-- There are three points that differ from each other. -/
def ThreeApart (points : List GeoPoint) : Prop :=
  ∃ a ∈ points, ∃ b ∈ points, ∃ c ∈ points,
    a.same b = false ∧ a.same c = false ∧ b.same c = false

/-- One point more is picked just when no point that is picked is the same. -/
theorem distinct_append_one (points : List GeoPoint) (point : GeoPoint) :
    distinct (points ++ [point]) =
      if (distinct points).any (·.same point) then distinct points
      else distinct points ++ [point] := by
  unfold distinct
  rw [List.foldl_append]
  rfl

theorem mem_of_mem_distinct {points : List GeoPoint} {point : GeoPoint} :
    point ∈ distinct points → point ∈ points := by
  induction points using List.reverseRecOn with
  | nil => exact id
  | append_singleton points last ih =>
    rw [distinct_append_one]
    split
    · exact fun h => List.mem_append_left _ (ih h)
    · intro h
      rcases List.mem_append.1 h with h | h
      · exact List.mem_append_left _ (ih h)
      · exact List.mem_append_right _ h

/-- A point is picked for every point, itself or one before it. -/
theorem exists_same_distinct {points : List GeoPoint} {point : GeoPoint}
    (hself : point.same point = true) :
    point ∈ points → ∃ picked ∈ distinct points, picked.same point = true := by
  induction points using List.reverseRecOn with
  | nil => exact fun h => nomatch h
  | append_singleton points last ih =>
    intro h
    rw [distinct_append_one]
    rcases List.mem_append.1 h with h | h
    · obtain ⟨picked, hp, hsame⟩ := ih h
      split
      · exact ⟨picked, hp, hsame⟩
      · exact ⟨picked, List.mem_append_left _ hp, hsame⟩
    · obtain rfl := List.mem_singleton.1 h
      split
      · rename_i hany
        exact List.any_eq_true.1 hany
      · exact ⟨point, List.mem_append_right _ List.mem_cons_self, hself⟩

theorem distinct_pairwise (points : List GeoPoint) :
    (distinct points).Pairwise fun a b => a.same b = false := by
  induction points using List.reverseRecOn with
  | nil => exact .nil
  | append_singleton points last ih =>
    rw [distinct_append_one]
    split
    · exact ih
    · rename_i hany
      rw [Bool.not_eq_true, List.any_eq_false] at hany
      refine List.pairwise_append.2 ⟨ih, List.pairwise_singleton _ _, ?_⟩
      intro a ha b hb
      obtain rfl := List.mem_singleton.1 hb
      simpa using hany a ha

/-- **Three points are picked just when three differ.** Of those that are picked any two differ; and
for three that differ three are picked, for one that is the same as two of them would make these the
same. -/
theorem three_le_distinct_iff {points : List GeoPoint}
    (hself : ∀ point ∈ points, point.same point = true) :
    3 ≤ (distinct points).length ↔ ThreeApart points := by
  constructor
  · intro h
    have hpairwise := distinct_pairwise points
    match hpicked : distinct points with
    | [] | [_] | [_, _] =>
      rw [hpicked] at h
      exact absurd h (by simp)
    | a :: b :: c :: rest =>
      rw [hpicked] at hpairwise
      have hmem : ∀ {point : GeoPoint}, point ∈ a :: b :: c :: rest → point ∈ points :=
        fun hm => mem_of_mem_distinct (hpicked ▸ hm)
      obtain ⟨hfirst, hlater⟩ := List.pairwise_cons.1 hpairwise
      obtain ⟨hsecond, _⟩ := List.pairwise_cons.1 hlater
      exact ⟨a, hmem (by simp), b, hmem (by simp), c, hmem (by simp), hfirst b (by simp),
        hfirst c (by simp), hsecond c (by simp)⟩
  · rintro ⟨a, ha, b, hb, c, hc, hab, hac, hbc⟩
    obtain ⟨a', ha', hsa⟩ := exists_same_distinct (hself a ha) ha
    obtain ⟨b', hb', hsb⟩ := exists_same_distinct (hself b hb) hb
    obtain ⟨c', hc', hsc⟩ := exists_same_distinct (hself c hc) hc
    have apart : ∀ {p q picked : GeoPoint}, p.same q = false → picked.same p = true →
        ¬picked.same q = true := by
      intro p q picked hpq hp hq
      rw [GeoPoint.same_trans (GeoPoint.same_symm hp) hq] at hpq
      cases hpq
    have hnodup : [a', b', c'].Nodup := by
      simp only [List.nodup_cons, List.mem_cons, List.not_mem_nil, or_false, not_or,
        not_false_eq_true, List.nodup_nil, and_true]
      refine ⟨⟨?_, ?_⟩, ?_⟩
      · rintro rfl
        exact apart hab hsa hsb
      · rintro rfl
        exact apart hac hsa hsc
      · rintro rfl
        exact apart hbc hsb hsc
    have hsubset : [a', b', c'] ⊆ distinct points := by
      intro point hm
      simp only [List.mem_cons, List.not_mem_nil, or_false] at hm
      rcases hm with rfl | rfl | rfl
      · exact ha'
      · exact hb'
      · exact hc'
    exact (List.subperm_of_subset hnodup hsubset).length_le

/-! ## Closed rings -/

theorem mem_closed {points : List GeoPoint} {point : GeoPoint} :
    point ∈ closed points ↔ point ∈ points := by
  rcases closed_cases points with h | ⟨first, hfirst, h⟩
  · rw [h]
  · rw [h, List.mem_append, List.mem_singleton]
    constructor
    · rintro (hm | rfl)
      · exact hm
      · exact List.mem_of_mem_head? hfirst
    · exact .inl

theorem threeApart_closed {points : List GeoPoint} :
    ThreeApart (closed points) ↔ ThreeApart points := by
  simp only [ThreeApart, mem_closed]

/-- A closed ring starts and ends at one point, and has at most one point more: its first. -/
theorem closed_ends {points : List GeoPoint} (hself : ∀ point ∈ points, point.same point = true)
    (hne : points ≠ []) :
    ∃ first last, (closed points).head? = some first ∧ (closed points).getLast? = some last ∧
      first.same last = true ∧ (closed points = points ∨ closed points = points ++ [first]) := by
  obtain ⟨first, rest, rfl⟩ := List.exists_cons_of_ne_nil hne
  have hlast : (first :: rest).getLast? = some ((first :: rest).getLast hne) :=
    List.getLast?_eq_some_getLast hne
  unfold closed
  rw [List.head?_cons, hlast]
  dsimp only
  split
  · rename_i hsame
    exact ⟨first, _, rfl, hlast, hsame, .inl rfl⟩
  · exact ⟨first, first, rfl, List.getLast?_concat, hself first List.mem_cons_self, .inr rfl⟩

theorem closed_of_ends {points : List GeoPoint} {first last : GeoPoint}
    (hfirst : points.head? = some first) (hlast : points.getLast? = some last)
    (hsame : first.same last = true) : closed points = points := by
  unfold closed
  rw [hfirst, hlast]
  exact if_pos hsame

/-- **A polygon has a ring just when three of its vertices differ**: the closed list of them. -/
theorem ring_cases {polygon : Polygon}
    (hself : ∀ point ∈ polygon.vertices, point.same point = true) :
    ThreeApart polygon.vertices ∧ polygon.ring = .ok (closed polygon.vertices) ∨
      ¬ThreeApart polygon.vertices ∧ polygon.ring = .error (.atom .degenerateRing) := by
  have hthree : 3 ≤ (distinct (closed polygon.vertices)).length ↔ ThreeApart polygon.vertices :=
    (three_le_distinct_iff fun point hm => hself point (mem_closed.1 hm)).trans threeApart_closed
  unfold ring
  dsimp only
  split
  · rename_i hfew
    exact .inr ⟨fun h => absurd (hthree.2 h) (by omega), rfl⟩
  · rename_i hmany
    exact .inl ⟨hthree.1 (by omega), rfl⟩

/-- The same for what is stored. -/
theorem toNative_cases {polygon : Polygon}
    (hself : ∀ point ∈ polygon.vertices, point.same point = true) :
    ThreeApart polygon.vertices ∧
        polygon.toNative = .ok (documentOfRing (closed polygon.vertices)) ∨
      ¬ThreeApart polygon.vertices ∧ polygon.toNative = .error (.atom .degenerateRing) := by
  rcases ring_cases hself with ⟨hthree, hring⟩ | ⟨hfew, hring⟩
  · refine .inl ⟨hthree, ?_⟩
    rw [toNative, hring]
    rfl
  · refine .inr ⟨hfew, ?_⟩
    rw [toNative, hring]
    rfl

theorem ofNative?_closed {points : List GeoPoint}
    (hglobe : ∀ point ∈ points, point.validate = .ok ()) :
    ofNative? (documentOfRing (closed points)) = .ok (some ⟨closed points⟩) := by
  have hpoints : ∀ point ∈ (Polygon.mk (closed points)).vertices,
      point.Storable ∧ point.validate = .ok () := by
    intro point hm
    have hvalid : point.validate = .ok () := hglobe point (mem_closed.1 hm)
    exact ⟨GeoPoint.storable_of_validate hvalid, hvalid⟩
  exact ofNative?_documentOfRing hpoints

/-- A closed ring is stored as it is. -/
theorem toNative_closed {points : List GeoPoint}
    (hself : ∀ point ∈ points, point.same point = true) (hthree : ThreeApart points)
    (hclosed : closed (closed points) = closed points) :
    toNative ⟨closed points⟩ = .ok (documentOfRing (closed points)) := by
  have hself' : ∀ point ∈ (Polygon.mk (closed points)).vertices, point.same point = true :=
    fun point hm => hself point (mem_closed.1 hm)
  rcases toNative_cases hself' with ⟨_, hstored⟩ | ⟨hfew, _⟩
  · rw [hstored, hclosed]
  · exact absurd (threeApart_closed.2 hthree) hfew

/-- **A polygon on the globe is stored just when three of its vertices differ**, and is an internal
failure otherwise. Stored it is one ring of pairs with the longitude first, which starts and ends at
one point: the vertices in order, and maybe the first one again. That ring is read back with its
closing vertex, and what is read is stored as the same document. -/
theorem ring_reads_back {members : Fields Rest} {polygon : Polygon}
    (hp : ofEnvelope members = .ok polygon)
    (hglobe : ∀ point ∈ polygon.vertices, point.validate = .ok ()) :
    Fields.get? members "coordinates" = some (.array (polygon.vertices.map vertexToRest)) ∧
      ((∃ native, polygon.toNative = .ok native) ↔ ThreeApart polygon.vertices) ∧
      (∀ failure, polygon.toNative = .error failure →
        failure = .atom .degenerateRing ∧ failure.kind = .internal ∧ failure.origin = .codec) ∧
      ∀ native, polygon.toNative = .ok native → ∃ points first last,
        native = .document [("type", .string "Polygon"), ("coordinates", .array [.array
          (points.map fun point =>
            .array [.ofNumber point.longitude, .ofNumber point.latitude])])] ∧
        points.head? = some first ∧ points.getLast? = some last ∧ first.same last = true ∧
        (points = polygon.vertices ∨ points = polygon.vertices ++ [first]) ∧
        ofNative? native = .ok (some ⟨points⟩) ∧ toNative ⟨points⟩ = .ok native := by
  have hself : ∀ point ∈ polygon.vertices, point.same point = true :=
    fun point hm => GeoPoint.same_self (hglobe point hm)
  refine ⟨ofEnvelope_eq_ok hp, ?_⟩
  rcases toNative_cases hself with ⟨hthree, hstored⟩ | ⟨hfew, hrefused⟩
  · rw [hstored]
    refine ⟨⟨fun _ => hthree, fun _ => ⟨_, rfl⟩⟩, (fun _ h => nomatch h), ?_⟩
    intro native h
    obtain rfl := Except.ok.inj h
    have hne : polygon.vertices ≠ [] := by
      obtain ⟨a, ha, _⟩ := hthree
      exact List.ne_nil_of_mem ha
    obtain ⟨first, last, hfirst, hlast, hsame, hpoints⟩ := closed_ends hself hne
    have hclosed := closed_of_ends hfirst hlast hsame
    exact ⟨closed polygon.vertices, first, last, rfl, hfirst, hlast, hsame, hpoints,
      ofNative?_closed hglobe, toNative_closed hself hthree hclosed⟩
  · rw [hrefused]
    refine ⟨⟨?_, fun h => absurd h hfew⟩, ?_, fun _ h => nomatch h⟩
    · rintro ⟨_, h⟩
      cases h
    · rintro failure h
      cases h
      exact ⟨rfl, rfl, rfl⟩

/-- A meadow by its corners; the last one is the first one again, with a latitude that is a
double. -/
def meadow : Polygon :=
  ⟨[⟨.integer 10, .integer 20⟩, ⟨.integer 10, .integer 25⟩, ⟨.integer 15, .integer 25⟩,
    ⟨.double ⟨0x4024000000000000⟩, .integer 20⟩]⟩

/-- The members of the envelope of the meadow. -/
def meadowMembers : Fields Rest := [("coordinates", .array (meadow.vertices.map vertexToRest))]

theorem ring_reads_back_meadow :
    ofEnvelope meadowMembers = .ok meadow ∧
      (∀ point ∈ meadow.vertices, point.validate = .ok ()) ∧ ThreeApart meadow.vertices ∧
      ∃ native points, meadow.toNative = .ok native ∧ ofNative? native = .ok (some ⟨points⟩) ∧
        toNative ⟨points⟩ = .ok native := by
  have hglobe : ∀ point ∈ meadow.vertices, point.validate = .ok () := by
    intro point hm
    simp only [meadow, List.mem_cons, List.not_mem_nil, or_false] at hm
    rcases hm with rfl | rfl | rfl | rfl <;> rfl
  have hthree : ThreeApart meadow.vertices :=
    ⟨_, .head _, _, .tail _ (.head _), _, .tail _ (.tail _ (.head _)), rfl, rfl, rfl⟩
  have henvelope : ofEnvelope meadowMembers = .ok meadow := rfl
  obtain ⟨_, hstored, _, hback⟩ := ring_reads_back henvelope hglobe
  obtain ⟨native, hn⟩ := hstored.2 hthree
  obtain ⟨points, _, _, _, _, _, _, _, hread, hagain⟩ := hback native hn
  exact ⟨henvelope, hglobe, hthree, native, points, hn, hread, hagain⟩

end Polygon

end RestStore
