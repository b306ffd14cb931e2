import EntityQuery.Text.Dotted

/-!
# Splitting at dots and joining again

The parts of a text between its dots, joined with dots, are the text (`intercalate_dotted`), however
its dots are placed. Names joined with dots are split into the same names as long as none of them
has a dot of its own (`dotted_intercalate`).
-/

namespace EntityQuery.Text

theorem splitDots_eq_splitOn (cs : List Char) : splitDots cs = cs.splitOn '.' := by
  induction cs with
  | nil => rfl
  | cons c cs ih =>
    rw [splitDots, List.splitOn_cons_eq_if_modifyHead, ih]
    by_cases h : c = '.'
    · simp [h]
    · cases hparts : cs.splitOn '.' with
      | nil => exact absurd hparts (List.splitOn_ne_nil _ _)
      | cons part parts => simp [h]

theorem dotted_eq (text : String) :
    dotted text = (text.toList.splitOn '.').map String.ofList := by
  rw [dotted, splitDots_eq_splitOn]

theorem dotted_ne_nil (text : String) : dotted text ≠ [] := by
  rw [dotted_eq, Ne, List.map_eq_nil_iff]
  exact List.splitOn_ne_nil _ _

/-- The parts between the dots make up the text. -/
theorem intercalate_dotted (text : String) : ".".intercalate (dotted text) = text := by
  apply String.toList_injective
  have hparts : (dotted text).map String.toList = text.toList.splitOn '.' := by
    simp [dotted_eq, Function.comp_def]
  rw [String.toList_intercalate, hparts]
  exact List.intercalate_splitOn '.'

/-- Names without dots of their own are found again between the dots that join them. -/
theorem dotted_intercalate {names : List String} (hsome : names ≠ [])
    (hplain : ∀ name ∈ names, '.' ∉ name.toList) : dotted (".".intercalate names) = names := by
  have hsplit : (['.'].intercalate (names.map String.toList)).splitOn '.' =
      names.map String.toList := by
    refine List.splitOn_intercalate '.' ?_ (by simpa using hsome)
    simpa using hplain
  have hjoined : (".".intercalate names).toList = ['.'].intercalate (names.map String.toList) :=
    String.toList_intercalate
  rw [dotted_eq, hjoined, hsplit, List.map_map]
  simp [Function.comp_def]

/-- A text without dots is a single part. -/
theorem dotted_of_notMem {text : String} (h : '.' ∉ text.toList) : dotted text = [text] := by
  rw [dotted_eq, List.splitOn_eq_singleton h]
  simp

/-- What stands before a dot and what stands behind it are split each for itself. -/
theorem dotted_append (before behind : String) :
    dotted (before ++ "." ++ behind) = dotted before ++ dotted behind := by
  have hlist : (before ++ "." ++ behind).toList = before.toList ++ '.' :: behind.toList := by simp
  rw [dotted_eq, hlist, List.splitOn_append_cons_self, List.map_append, dotted_eq, dotted_eq]

end EntityQuery.Text
