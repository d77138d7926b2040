import RestStore.Text.CaseData

/-!
# Lower case

The full lower-case mapping of a text. A letter maps to its lower-case letter, `İ` to `i` and a
combining dot, and `Σ` to a final sigma at the end of a word and to `σ` elsewhere; characters that
are not letters stay.
-/

set_option autoImplicit false

namespace RestStore

/-- Whether a character lies in one of the ranges. -/
def inRanges (ranges : List (Nat × Nat)) (c : Char) : Bool :=
  ranges.any fun range => decide (range.1 ≤ c.toNat ∧ c.toNat ≤ range.2)

/-- Whether the letter is one of the run's. -/
def CaseRun.covers (run : CaseRun) (c : Char) : Bool :=
  run.first ≤ c.toNat && c.toNat ≤ run.last && (c.toNat - run.first) % run.stride = 0

/-- The lower-case letter of a character, outside ASCII by the table. -/
def lowerLetter (c : Char) : Char :=
  if c.toNat < 128 then c.toLower
  else
    match caseRuns.find? fun run => run.covers c with
    | some run => Char.ofNat (c.toNat + run.shift).toNat
    | none => c

/-- Whether the nearest character that is not ignored is a cased letter. -/
def meetsCased (cs : List Char) : Bool :=
  match cs.dropWhile (inRanges caseIgnorableRanges) with
  | [] => false
  | c :: _ => inRanges casedRanges c

/-- The lower case of a text that follows the text whose reversal is `before`. -/
def lowerAfter (before : List Char) : List Char → List Char
  | [] => []
  | c :: rest =>
    let mapped :=
      if c = 'Σ' then [if meetsCased before && !meetsCased rest then 'ς' else 'σ']
      else if c = 'İ' then ['i', '\u0307']
      else [lowerLetter c]
    mapped ++ lowerAfter (c :: before) rest

/-- The lower case of a text. -/
def lowercase (cs : List Char) : List Char := lowerAfter [] cs

end RestStore
