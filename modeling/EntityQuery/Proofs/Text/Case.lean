import EntityQuery.Text.LowerCase
import EntityQuery.Text.Pattern

/-!
# Two ways to set case aside

Case is set aside by folding each character or by putting the whole text into lower case. The
second is a map of characters, too, on texts of plain ones (`toList_lower`): `İ` becomes two
characters, and what `Σ` becomes depends on its neighbours. Both maps are tables of runs, and these
are the same table but for the runs within `unevenRanges`, so the maps agree on the characters
outside these ranges (`map_lowerRuns_of_isEven`).
-/

namespace EntityQuery.Text

/-! ## Tables of runs -/

deriving instance DecidableEq for CaseRun

theorem CaseRun.covers_iff {run : CaseRun} {n : Nat} : run.covers n = true ↔
    run.first ≤ n ∧ n ≤ run.last ∧ (n - run.first) % run.step = 0 :=
  decide_eq_true_iff

/-- A character stays where it is or goes with a run that covers it. -/
theorem CaseRun.map_cases (runs : List CaseRun) (c : Char) : CaseRun.map runs c = c ∨
    ∃ run ∈ runs, run.covers c.toNat = true ∧
      CaseRun.map runs c = Char.ofNat (c.toNat + run.shift).toNat := by
  rw [CaseRun.map]
  split
  · next run hfind =>
    have hcovers : run.covers c.toNat = true := by simpa using List.find?_some hfind
    exact .inr ⟨run, List.mem_of_find?_eq_some hfind, hcovers, rfl⟩
  · exact .inl rfl

/-- Whether a run lies in one of the ranges. -/
def CaseRun.within (ranges : List CharRange) (run : CaseRun) : Bool :=
  ranges.any fun range => decide (range.first ≤ run.first ∧ run.last ≤ range.last)

theorem CaseRun.anyCovers_of_within {ranges : List CharRange} {run : CaseRun} {c : Char}
    (hwithin : run.within ranges = true) (hcovers : run.covers c.toNat = true) :
    CharRange.anyCovers ranges c = true := by
  obtain ⟨range, hrange, hbounds⟩ := List.any_eq_true.1 hwithin
  obtain ⟨hfirst, hlast⟩ := of_decide_eq_true hbounds
  obtain ⟨hlow, hhigh, -⟩ := CaseRun.covers_iff.1 hcovers
  exact List.any_eq_true.2 ⟨range, hrange, decide_eq_true (by omega)⟩

/-- The runs within some ranges are of no matter to a character outside. -/
theorem find?_filter_within {ranges : List CharRange} {c : Char}
    (hc : CharRange.anyCovers ranges c = false) (runs : List CaseRun) :
    (runs.filter (!·.within ranges)).find? (·.covers c.toNat) =
      runs.find? (·.covers c.toNat) := by
  induction runs with
  | nil => rfl
  | cons run runs ih =>
    rw [List.filter_cons]
    split
    · rw [List.find?_cons, List.find?_cons, ih]
    · next hkept =>
      have hwithin : run.within ranges = true := by simpa using hkept
      have hcovers : run.covers c.toNat = false := by
        rw [← Bool.not_eq_true]
        intro hcovers
        rw [CaseRun.anyCovers_of_within hwithin hcovers] at hc
        cases hc
      rw [List.find?_cons, hcovers, ih]

/-! ## Characters -/

/-- Ranges with all characters that folding and lower-casing take to different ones: small letters
that are folded all the same, such as `µ`, `ſ` and `ς`, the capitals `İ` and `Σ`, the Cherokee
letters, which fold to capitals, and letters that only the newer of the two tables has. -/
def unevenRanges : List CharRange := [
  ⟨0xB5, 0xB5⟩, ⟨0x130, 0x130⟩, ⟨0x17F, 0x17F⟩, ⟨0x345, 0x345⟩, ⟨0x3A3, 0x3A3⟩, ⟨0x3C2, 0x3C2⟩,
  ⟨0x3D0, 0x3D1⟩, ⟨0x3D5, 0x3D6⟩, ⟨0x3F0, 0x3F1⟩, ⟨0x3F5, 0x3F5⟩, ⟨0x13A0, 0x13F5⟩,
  ⟨0x13F8, 0x13FD⟩, ⟨0x1C80, 0x1C88⟩, ⟨0x1E9B, 0x1E9B⟩, ⟨0x1FBE, 0x1FBE⟩, ⟨0x1FD3, 0x1FD3⟩,
  ⟨0x1FE3, 0x1FE3⟩, ⟨0xA7CC, 0xA7DA⟩, ⟨0xAB70, 0xABBF⟩, ⟨0xFB05, 0xFB05⟩, ⟨0x16EA0, 0x16EB8⟩]

/-- A character outside the uneven ranges. -/
def IsEven (c : Char) : Prop := CharRange.anyCovers unevenRanges c = false

instance (c : Char) : Decidable (IsEven c) := inferInstanceAs (Decidable (_ = _))

/-- Outside the uneven ranges the two tables are one. -/
theorem map_lowerRuns_of_isEven {c : Char} (h : IsEven c) :
    CaseRun.map lowerRuns c = foldChar c := by
  have htables : lowerRuns.filter (!·.within unevenRanges) =
      foldRuns.filter (!·.within unevenRanges) := by decide +kernel
  rw [foldChar, CaseRun.map, CaseRun.map, ← find?_filter_within h lowerRuns, htables,
    find?_filter_within h foldRuns]

/-- A character that goes to one character in lower case, the same in every text. -/
def IsPlain (c : Char) : Prop := c ≠ '\u0130' ∧ c ≠ 'Σ'

theorem IsEven.isPlain {c : Char} (h : IsEven c) : IsPlain c := by
  constructor <;> rintro rfl <;> exact absurd h (by decide)

theorem lowerChar_of_isPlain {c : Char} (h : IsPlain c) :
    lowerChar c = [CaseRun.map lowerRuns c] :=
  if_neg h.1

/-! ## Texts -/

theorem lowerAfter_eq_map {cs : List Char} (h : ∀ c ∈ cs, IsPlain c) (before : List Char) :
    lowerAfter before cs = cs.map (CaseRun.map lowerRuns) := by
  induction cs generalizing before with
  | nil => rfl
  | cons c rest ih =>
    obtain ⟨hc, hrest⟩ := List.forall_mem_cons.1 h
    rw [lowerAfter, if_neg hc.2, lowerChar_of_isPlain hc, ih hrest, List.map_cons,
      List.singleton_append]

theorem toList_lower {text : String} (h : ∀ c ∈ text.toList, IsPlain c) :
    (lower text).toList = text.toList.map (CaseRun.map lowerRuns) := by
  rw [lower, String.toList_ofList, lowerAfter_eq_map h]

end EntityQuery.Text
