import RestStore.Text.Search

/-!
# Searching texts

Where one text is first found in another, the rest begins with it: `fromFirst?_split`. A text is
found wherever it occurs, and not after that occurrence: `fromFirst?_append`, `occursIn_iff`. So a
second text is found in that rest wherever it occurs in the rest of any: `occursIn_fromFirst?_iff`.
-/

set_option autoImplicit false

namespace RestStore

variable {needle later text tail : List Char}

theorem fromFirst?_split (h : fromFirst? needle text = some tail) :
    ∃ before after, text = before ++ tail ∧ tail = needle ++ after := by
  induction text with
  | nil =>
    unfold fromFirst? at h
    split at h
    · rename_i he
      cases h
      exact ⟨[], [], rfl, by simpa using he⟩
    · cases h
  | cons c rest ih =>
    unfold fromFirst? at h
    split at h
    · rename_i hp
      cases h
      obtain ⟨after, ha⟩ := List.isPrefixOf_iff_prefix.1 hp
      exact ⟨[], after, rfl, ha.symm⟩
    · obtain ⟨before, after, rfl, ht⟩ := ih h
      exact ⟨c :: before, after, rfl, ht⟩

/-- The first occurrence is not behind any other. -/
theorem fromFirst?_append (before after : List Char) :
    ∃ skipped, fromFirst? needle (before ++ (needle ++ after)) =
      some (skipped ++ (needle ++ after)) := by
  induction before with
  | nil =>
    refine ⟨[], ?_⟩
    rw [List.nil_append]
    cases hs : needle ++ after with
    | nil =>
      rw [List.append_eq_nil_iff] at hs
      rw [fromFirst?, hs.1]
      rfl
    | cons c rest =>
      have hp : needle.isPrefixOf (c :: rest) = true :=
        List.isPrefixOf_iff_prefix.2 ⟨after, hs⟩
      rw [fromFirst?, if_pos hp]
  | cons c before ih =>
    rw [List.cons_append, fromFirst?]
    split
    · exact ⟨c :: before, rfl⟩
    · exact ih

theorem occursIn_iff : occursIn needle text = true ↔ needle <:+: text := by
  unfold occursIn
  rw [Option.isSome_iff_exists]
  constructor
  · rintro ⟨tail, h⟩
    obtain ⟨before, after, rfl, rfl⟩ := fromFirst?_split h
    exact ⟨before, after, List.append_assoc ..⟩
  · rintro ⟨before, after, rfl⟩
    obtain ⟨skipped, h⟩ := fromFirst?_append before after
    rw [List.append_assoc]
    exact ⟨_, h⟩

theorem occursIn_fromFirst?_iff :
    (∃ tail, fromFirst? needle text = some tail ∧ occursIn later tail = true) ↔
      ∃ before after, text = before ++ (needle ++ after) ∧ later <:+: needle ++ after := by
  constructor
  · rintro ⟨tail, hf, ho⟩
    obtain ⟨before, after, rfl, rfl⟩ := fromFirst?_split hf
    exact ⟨before, after, rfl, occursIn_iff.1 ho⟩
  · rintro ⟨before, after, rfl, ho⟩
    obtain ⟨skipped, hf⟩ := fromFirst?_append before after
    -- The rest from the first occurrence ends with the rest from this one.
    exact ⟨_, hf, occursIn_iff.2 (ho.trans (List.suffix_append _ _).isInfix)⟩

end RestStore
