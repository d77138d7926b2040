import RestStore.Proofs.Constraint.Entries
import RestStore.Proofs.Native.Atoms
import RestStore.Proofs.Native.Given
import RestStore.Proofs.Text.Search

/-!
# Regular expressions among all the values of a list

The operand of `$all` is refused where it mixes regular expressions with other values.
`all_regexes_together` says which lists pass, and what the refusal of the others is.

* `LiteralStart` — a pattern for a literal beginning, from `^\Q` to `\E`.
* `ShowsLiteral`, `isLiteralStart_iff` — the test looks for the two marks in the pattern as it is
  shown between slashes, so that a pattern with slashes of its own passes it too.
* `Together`, `allOrNoLiteralStarts_iff` — the values are compared with the first of them. Several
  that all fail the test pass together, regular expressions or not.
* `RegexesOrNone`, `together_iff` — where neither happens, all the values are patterns for literal
  beginnings or none is a regular expression.
-/

set_option autoImplicit false

namespace RestStore.Constraint

/-- A regular expression for a literal beginning. -/
def LiteralStart (native : Native) : Prop :=
  ∃ literal : String, native = .regex ("^\\Q" ++ literal ++ "\\E") ""

/-- A regular expression that shows the marks of a literal beginning, one after the other, when it
is written between slashes with its options behind them. -/
def ShowsLiteral : Native → Prop
  | .regex pattern options => ∃ before middle after : List Char,
    '/' :: pattern.toList ++ '/' :: options.toList =
      before ++ "/^\\Q".toList ++ middle ++ "\\E/".toList ++ after
  | _ => False

/-- The values of a list that passes: no regular expression, or only such that show a literal
beginning, or several values of which none shows one. -/
def Together (natives : List Native) : Prop :=
  (∀ native ∈ natives, isRegex native = false) ∨ (∀ native ∈ natives, ShowsLiteral native) ∨
    (2 ≤ natives.length ∧ ∀ native ∈ natives, ¬ShowsLiteral native)

/-- All the values are regular expressions for literal beginnings, or none is a regular
expression. -/
def RegexesOrNone (natives : List Native) : Prop :=
  (∀ native ∈ natives, isRegex native = false) ∨ ∀ native ∈ natives, LiteralStart native

/-! ## One value -/

/-- The second mark does not overlap the first. -/
theorem finish_infix_iff {rest : List Char} :
    "\\E/".toList <:+: "/^\\Q".toList ++ rest ↔ "\\E/".toList <:+: rest := by
  rw [← occursIn_iff, ← occursIn_iff]
  rfl

theorem isLiteralStart_iff {native : Native} :
    isLiteralStart native = true ↔ ShowsLiteral native := by
  cases native with
  | regex pattern options =>
    calc isLiteralStart (.regex pattern options) = true
      _ ↔ ∃ tail, fromFirst? "/^\\Q".toList ('/' :: pattern.toList ++ '/' :: options.toList) =
            some tail ∧ occursIn "\\E/".toList tail = true := by
        unfold isLiteralStart
        dsimp only
        cases fromFirst? "/^\\Q".toList ('/' :: pattern.toList ++ '/' :: options.toList) <;> simp
      _ ↔ ∃ before rest, '/' :: pattern.toList ++ '/' :: options.toList =
            before ++ ("/^\\Q".toList ++ rest) ∧ "\\E/".toList <:+: rest := by
        rw [occursIn_fromFirst?_iff]
        simp only [finish_infix_iff]
      _ ↔ ShowsLiteral (.regex pattern options) := by
        constructor
        · rintro ⟨before, _, hs, middle, after, rfl⟩
          exact ⟨before, middle, after, by simpa using hs⟩
        · rintro ⟨before, middle, after, hs⟩
          exact ⟨before, middle ++ "\\E/".toList ++ after, by simpa using hs, middle, after, rfl⟩
  | _ => exact ⟨nofun, False.elim⟩

/-- A pattern for a literal beginning shows it. -/
theorem LiteralStart.shows {native : Native} (h : LiteralStart native) : ShowsLiteral native := by
  obtain ⟨literal, rfl⟩ := h
  exact ⟨[], literal.toList, [], by simp⟩

/-- Text between two marks, where the mark is not in the text, ends with the second of them. -/
theorem eq_of_append_mark {mark : Char} {text before after : List Char} (hno : mark ∉ text)
    (h : text ++ [mark] = before ++ mark :: after) : text = before ∧ after = [] := by
  rcases after.eq_nil_or_concat with rfl | ⟨after, last, rfl⟩
  · exact ⟨(List.append_inj' h rfl).1, rfl⟩
  · refine absurd ?_ hno
    have htext : text = before ++ mark :: after :=
      (List.append_inj' (h.trans (by simp : _ = (before ++ mark :: after) ++ [last])) rfl).1
    rw [htext]
    exact List.mem_append_right _ List.mem_cons_self

/-- A pattern without slashes shows a literal beginning only as a whole. -/
theorem literalStart_of_shows {pattern : String} (hno : '/' ∉ pattern.toList)
    (h : ShowsLiteral (.regex pattern "")) : LiteralStart (.regex pattern "") := by
  obtain ⟨before, middle, after, hs⟩ := h
  -- The first mark begins with the slash in front of the pattern.
  cases before with
  | cons c before =>
    have hin : pattern.toList ++ ['/'] =
        before ++ '/' :: ('^' :: '\\' :: 'Q' :: middle ++ "\\E/".toList ++ after) := by
      simpa using (List.cons.inj hs).2
    obtain ⟨-, hnil⟩ := eq_of_append_mark hno hin
    cases hnil
  | nil =>
    have hin : pattern.toList ++ ['/'] =
        ("^\\Q".toList ++ middle ++ "\\E".toList) ++ '/' :: after := by
      simpa using hs
    obtain ⟨hp, -⟩ := eq_of_append_mark hno hin
    refine ⟨String.ofList middle, ?_⟩
    rw [Native.regex.injEq]
    exact ⟨String.toList_inj.1 (by simpa using hp), rfl⟩

/-! ## Elements -/

theorem isRegex_ofNumber (number : Number) : isRegex (.ofNumber number) = false := by
  cases number with
  | double d => rfl
  | integer i =>
    simp only [Native.ofNumber, Native.ofInt]
    split
    · rfl
    · split <;> rfl

theorem isRegex_given (value : Rest) : isRegex (Native.given value) = false := by
  cases value with
  | number number => exact isRegex_ofNumber number
  | _ => rfl

/-- An element that is a regular expression has no options. -/
theorem options_of_element {guard : Nesting} {item : Rest} {pattern options : String}
    (h : Native.element guard item = .ok (.regex pattern options)) : options = "" := by
  rcases Native.element_cases h with ha | ⟨-, hg⟩
  · unfold Native.nestedAtom? at ha
    split at ha
    · cases ha
    · rename_i shape hs
      cases shape with
      | regex shown =>
        cases ha
        rfl
      | number number =>
        have hn := isRegex_ofNumber number
        rw [Option.some.inj (Except.ok.inj ha)] at hn
        cases hn
      | bytes bytes =>
        obtain ⟨stored, hb, he⟩ := Outcome.map_eq_ok.1 ha
        obtain ⟨payload, rfl⟩ := Native.bytes_eq_binary hb
        cases he
      | null | bool _ | string _ | pointer _ | date _ | relation _ | geoPoint _ | polygon _
      | file _ | array _ | object _ => cases ha
  · have hn := isRegex_given item
    rw [← hg] at hn
    cases hn

/-! ## All the values -/

/-- The test against the first of several values is a test of all of them against each other. -/
theorem all_beq_first_iff {α : Type} (test : α → Bool) (first : α) (rest : List α) :
    (rest.all fun value => test value == test first) = true ↔
      (∀ value ∈ first :: rest, test value = true) ∨
        ∀ value ∈ first :: rest, test value = false := by
  simp only [List.all_eq_true, beq_iff_eq, List.forall_mem_cons]
  cases htest : test first <;> simp

theorem allOrNoLiteralStarts_iff {natives : List Native} :
    allOrNoLiteralStarts natives = true ↔
      (∀ native ∈ natives, ShowsLiteral native) ∨
        (2 ≤ natives.length ∧ ∀ native ∈ natives, ¬ShowsLiteral native) := by
  simp only [← isLiteralStart_iff, Bool.not_eq_true]
  match natives with
  | [] => simp [allOrNoLiteralStarts]
  | [native] => simp [allOrNoLiteralStarts]
  | first :: second :: rest =>
    have several : 2 ≤ (first :: second :: rest).length := by simp
    simp only [several, true_and]
    exact all_beq_first_iff isLiteralStart first (second :: rest)

theorem together_iff_passes {natives : List Native} :
    Together natives ↔ (natives.any isRegex && !allOrNoLiteralStarts natives) = false := by
  rw [Bool.and_eq_false_iff, Bool.not_eq_false', allOrNoLiteralStarts_iff, List.any_eq_false]
  simp only [Bool.not_eq_true]
  rfl

/-- **The operand of `$all`** is a list whose values pass together; another list is refused. -/
theorem allOf_cases {scope : Scope} {items : List Rest} {natives : List Native}
    (h : Native.elements scope.guard items = .ok natives) :
    (allOf scope (.array items) = .ok (.array natives) ∧ Together natives) ∨
      (allOf scope (.array items) = .error (.constraint (.mixedRegexes (.array items))) ∧
        ¬Together natives) := by
  rw [together_iff_passes]
  simp only [allOf, h]
  cases natives.any isRegex && !allOrNoLiteralStarts natives
  · exact .inl ⟨rfl, rfl⟩
  · exact .inr ⟨rfl, nofun⟩

/-- What tells regular expressions from other values by the marks they show: no pattern has a slash
of its own, and several values that are not all others hold a pattern for a literal beginning. -/
structure Telling (natives : List Native) : Prop where
  no_slash : ∀ pattern options, .regex pattern options ∈ natives → '/' ∉ pattern.toList
  literal : 2 ≤ natives.length → (∃ native ∈ natives, isRegex native = true) →
    ∃ native ∈ natives, LiteralStart native

theorem together_iff {natives : List Native} (telling : Telling natives)
    (plain : ∀ pattern options, .regex pattern options ∈ natives → options = "") :
    Together natives ↔ RegexesOrNone natives := by
  have shows_iff : ∀ native ∈ natives, ShowsLiteral native ↔ LiteralStart native := by
    intro native hm
    refine ⟨fun hs => ?_, LiteralStart.shows⟩
    cases native with
    | regex pattern options =>
      cases plain pattern options hm
      exact literalStart_of_shows (telling.no_slash pattern "" hm) hs
    | _ => exact hs.elim
  constructor
  · rintro (hno | hall | ⟨several, hnone⟩)
    · exact .inl hno
    · exact .inr fun native hm => (shows_iff native hm).1 (hall native hm)
    · refine .inl fun native hm => Bool.eq_false_iff.2 fun hr => ?_
      obtain ⟨literal, hl, hs⟩ := telling.literal several ⟨native, hm, hr⟩
      exact hnone literal hl hs.shows
  · rintro (hno | hall)
    · exact .inl hno
    · exact .inr (.inl fun native hm => (hall native hm).shows)

/-- **The operator `$all` on any field**, where each item of its list is an element. It compiles
where the elements pass together, and its refusal names the list. The elements pass by the marks
that patterns show. Where the marks tell, they pass together when no element is a regular
expression or all of them are for literal beginnings. -/
theorem all_regexes_together {scope : Scope} {items : List Rest} {natives : List Native}
    (elements : List.Forall₂ (fun item native => Native.element scope.guard item = .ok native)
      items natives) :
    ((compile? scope (.object [("$all", .array items)]) = .ok (some [("$all", .array natives)]) ∧
        Together natives) ∨
      (compile? scope (.object [("$all", .array items)]) =
          .error (.constraint (.mixedRegexes (.array items))) ∧ ¬Together natives)) ∧
    (Telling natives → (Together natives ↔ RegexesOrNone natives)) := by
  constructor
  · have alone : compile? scope (.object [("$all", .array items)]) =
        (own .all (allOf scope (.array items))).map fun entry => some entry.toList :=
      compile?_alone scope .all (.array items)
    rw [alone]
    rcases allOf_cases (Native.elements_of_forall₂ elements) with ⟨h, together⟩ | ⟨h, apart⟩
    · exact .inl ⟨by rw [h]; rfl, together⟩
    · exact .inr ⟨by rw [h]; rfl, apart⟩
  · intro telling
    refine together_iff telling fun pattern options hm => ?_
    obtain ⟨i, hi, hnative⟩ := List.getElem_of_mem hm
    have hitem := elements.get (by rw [elements.length_eq]; exact hi) hi
    simp only [List.get_eq_getElem, hnative] at hitem
    exact options_of_element hitem

/-- A constraint on a field of no declared type. -/
def labelScope : Scope := ⟨none, false, ⟨0, 0⟩, .top 8 .constraint⟩

/-- A regular expression in the form of a request. -/
def pattern (text : String) : Rest := .object [("$regex", .string text)]

theorem all_regexes_together_literals :
    compile? labelScope (.object [("$all",
        .array [pattern "^\\Qa\\E", pattern "^\\Qb\\E"])]) =
      .ok (some [("$all", .array [.regex "^\\Qa\\E" "", .regex "^\\Qb\\E" ""])]) := by
  have literals : ∀ native ∈ [Native.regex "^\\Qa\\E" "", .regex "^\\Qb\\E" ""],
      LiteralStart native := by
    rintro native hm
    rcases List.mem_pair.1 hm with rfl | rfl
    · exact ⟨"a", rfl⟩
    · exact ⟨"b", rfl⟩
  have telling : Telling [Native.regex "^\\Qa\\E" "", .regex "^\\Qb\\E" ""] := {
    no_slash := by
      rintro text options hm
      rcases List.mem_pair.1 hm with h | h <;> cases h <;> decide
    literal := fun _ _ => ⟨_, List.mem_cons_self, literals _ List.mem_cons_self⟩ }
  have elements : List.Forall₂
      (fun item native => Native.element labelScope.guard item = .ok native)
      [pattern "^\\Qa\\E", pattern "^\\Qb\\E"]
      [.regex "^\\Qa\\E" "", .regex "^\\Qb\\E" ""] := .cons rfl (.cons rfl .nil)
  obtain ⟨⟨h, -⟩ | ⟨-, apart⟩, together⟩ := all_regexes_together elements
  · exact h
  · exact absurd ((together telling).2 (.inr literals)) apart

/-- A number and a regular expression pass together, and so does a regular expression whose pattern
has the marks of a literal beginning behind a slash of its own. -/
theorem all_accepts_mixed_regexes :
    (compile? labelScope (.object [("$all", .array [.number (.integer 1), pattern "^a"])]) =
        .ok (some [("$all", .array [.int32 1, .regex "^a" ""])]) ∧
      ¬RegexesOrNone [.int32 1, .regex "^a" ""]) ∧
    (compile? labelScope (.object [("$all", .array [pattern "a/^\\Qx\\E"])]) =
        .ok (some [("$all", .array [.regex "a/^\\Qx\\E" ""])]) ∧
      ¬RegexesOrNone [.regex "a/^\\Qx\\E" ""]) := by
  refine ⟨⟨rfl, ?_⟩, rfl, ?_⟩
  · rintro (hno | hall)
    · exact absurd (hno (.regex "^a" "") (by simp)) (by decide)
    · obtain ⟨literal, h⟩ := hall (.int32 1) (by simp)
      cases h
  · rintro (hno | hall)
    · exact absurd (hno _ List.mem_cons_self) (by decide)
    · obtain ⟨literal, h⟩ := hall _ List.mem_cons_self
      have hstart := congrArg String.toList (Native.regex.inj h).1
      simp at hstart

end RestStore.Constraint
