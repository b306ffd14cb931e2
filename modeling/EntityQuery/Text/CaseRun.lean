/-!
# Tables of code points

The letters that a case mapping moves come in runs: every code point, or every second one, of an
interval is moved by the same distance. A property of characters comes in plain intervals.
-/

namespace EntityQuery.Text

/-- Code points `first`, `first + step`, …, `last`, all of them moved by `shift`. -/
structure CaseRun where
  first : Nat
  last : Nat
  step : Nat
  shift : Int

/-- Whether a code point is one of the run. -/
def CaseRun.covers (run : CaseRun) (n : Nat) : Bool :=
  decide (run.first ≤ n ∧ n ≤ run.last ∧ (n - run.first) % run.step = 0)

/-- Moves a character by the run that covers it; no run, no move. -/
def CaseRun.map (runs : List CaseRun) (c : Char) : Char :=
  match runs.find? (·.covers c.toNat) with
  | some run => Char.ofNat (c.toNat + run.shift).toNat
  | none => c

/-- The code points from `first` to `last`. -/
structure CharRange where
  first : Nat
  last : Nat

/-- Whether a character lies in one of the ranges. -/
def CharRange.anyCovers (ranges : List CharRange) (c : Char) : Bool :=
  ranges.any fun range => decide (range.first ≤ c.toNat ∧ c.toNat ≤ range.last)

end EntityQuery.Text
