import EntityQuery.Proofs.Filter.Grammar
import EntityQuery.Proofs.Filter.Vacuous

/-!
# Operators that nobody knows

An entry with a single member is a comparison when its key names an operator, or when its value is
neither object nor array. A key that names none is then reported as an unknown operator. Above an
object or an array it is not an operator at all: it is a field of the entity behind a relation. An
array is refused in the place of that field, and an object is what is asked of it
(`compileWritten_unknown`).
-/

namespace EntityQuery.Filter

/-- The predicate of the filter that a value writes. -/
def compileWritten (value : Json) : Answer Predicate := ofJson value >>= compile

/-! ## One member alone -/

theorem ofJson_single {key : String} (hkey : isGroup key = false) (value : Json) :
    ofJson (.obj [(key, value)]) =
      entryOf key value >>= fun entry => .ok (node [] [] [(key, entry)]) := by
  obtain ⟨hand, hor⟩ := isGroup_eq_false.1 hkey
  rw [ofJson, ofMembers, if_neg hand, if_neg hor]
  cases entryOf key value <;> rfl

theorem holdsComparisons_single (key : String) (value : Json) :
    holdsComparisons [(key, value)] =
      (Operator.isKnown key || !(value.isObject || value.isArray)) := by
  simp [holdsComparisons]

/-- Under a single key that is no operator, an object or an array makes the entry a filter behind a
relation. -/
theorem entryOf_nested {operator : String} (hunknown : Operator.isKnown operator = false)
    {operand : Json} (hnested : (operand.isObject || operand.isArray) = true) (field : String) :
    entryOf field (.obj [(operator, operand)]) =
      ofJson (.obj [(operator, operand)]) >>= fun sub => .ok (.relation sub) := by
  rw [entryOf, holdsComparisons_single, hunknown, hnested]
  rfl

theorem compile_relation_empty (name : String) (f : Filter) :
    (empty.relation name f).compile = f.compileAt [name] := by
  show compileAt (node [] [] [(name, .relation f)]) [] = f.compileAt ([] ++ [name])
  rw [compileAt, compileFields, compileEntry]
  cases f.compileAt ([] ++ [name]) with
  | error e => rfl
  | ok p => exact congrArg Except.ok (Predicate.always_and p)

theorem compile_compare_unknown {operator : String} (hunknown : Operator.isKnown operator = false)
    (field : String) (operand : Json) :
    (empty.compare field operator operand).compile = .error (.unknownOperator operator) := by
  have hnamed : Operator.named operator = .error (.unknownOperator operator) := by
    rw [Operator.named, Option.isSome_eq_false_iff.1 hunknown |> Option.isNone_iff_eq_none.1]
  show compileAt (node [] [] [(field, .comparisons [⟨operator, operand⟩])]) [] = _
  rw [compileAt, compileFields, compileEntry, compileComparisons, List.mapM_cons,
    Fragment.ofComparison, hnamed]
  rfl

section Entry

variable {field operator : String}

/-! ## By the kind of operand -/

theorem compileWritten_scalar (hfield : isGroup field = false)
    (hunknown : Operator.isKnown operator = false) {operand : Json}
    (hobject : operand.isObject = false) (harray : operand.isArray = false) :
    compileWritten (.obj [(field, .obj [(operator, operand)])]) =
      .error (.unknownOperator operator) := by
  have hentry : entryOf field (.obj [(operator, operand)]) =
      .ok (.comparisons [⟨operator, operand⟩]) := by
    rw [entryOf, holdsComparisons_single, hobject, harray, Bool.or_false, Bool.not_false,
      Bool.or_true]
    rfl
  rw [compileWritten, ofJson_single hfield, hentry]
  exact compile_compare_unknown hunknown field operand

theorem compileWritten_nested (hfield : isGroup field = false)
    (hunknown : Operator.isKnown operator = false) {operand : Json}
    (hnested : (operand.isObject || operand.isArray) = true) :
    compileWritten (.obj [(field, .obj [(operator, operand)])]) =
      ofJson (.obj [(operator, operand)]) >>= fun sub => sub.compileAt [field] := by
  rw [compileWritten, ofJson_single hfield, entryOf_nested hunknown hnested]
  cases ofJson (.obj [(operator, operand)]) with
  | error e => rfl
  | ok sub => exact compile_relation_empty field sub

theorem ofJson_array (hfield : isGroup field = false) (hgroup : isGroup operator = false)
    (hunknown : Operator.isKnown operator = false) (items : List Json) :
    ofJson (.obj [(field, .obj [(operator, .arr items)])]) =
      .error (.invalidFilter (.field operator (.arr items))) := by
  rw [ofJson_single hfield, entryOf_nested hunknown rfl, ofJson_single hgroup]
  rfl

/-- What stands under the key is no restriction when it is a filter that is none; comparisons always
are one. -/
theorem compileWritten_object_eq_always (hfield : isGroup field = false)
    (hgroup : isGroup operator = false) (hunknown : Operator.isKnown operator = false)
    (members : List (String × Json)) :
    compileWritten (.obj [(field, .obj [(operator, .obj members)])]) = .ok .always ↔
      ¬IsComparisons members ∧ compileWritten (.obj members) = .ok .always := by
  rw [compileWritten_nested hfield hunknown rfl, ofJson_single hgroup, entryOf, isComparisons_iff]
  cases hholds : holdsComparisons members with
  | true =>
    refine iff_of_false (fun halways => ?_) (fun hnot => hnot.1 rfl)
    have halways : compileAt (node [] [] [(operator, .comparisons (comparisonsOf members))])
        [field] = .ok .always := halways
    obtain ⟨-, -, hlists, -⟩ := parts_of_always (compileAt_eq_always.1 halways)
    have hnil : comparisonsOf members = [] := hlists operator _ (List.mem_singleton.2 rfl)
    rw [List.map_eq_nil_iff.1 hnil] at hholds
    cases hholds
  | false =>
    rw [if_neg Bool.false_ne_true, compileWritten, ofJson]
    cases ofMembers members with
    | error e => simp
    | ok sub =>
      show compileAt (empty.relation operator sub) [field] = _ ↔ _ ∧ sub.compile = _
      rw [compileAt_eq_always, compile_relation_empty, compileAt_eq_always]
      simp

end Entry

/-- **An operator that nobody knows is reported by its name above anything but an object or an
array.** Above these it is a field of the entity that the field's relation leads to: an array is
refused as what stands in this field, and an object is compiled as what is asked of it there. The
entry is no restriction exactly when this object is a filter, and not comparisons, that is no
restriction itself. -/
theorem compileWritten_unknown {field operator : String} (hfield : isGroup field = false)
    (hgroup : isGroup operator = false) (hunknown : Operator.isKnown operator = false) :
    (∀ operand : Json, operand.isObject = false → operand.isArray = false →
      compileWritten (.obj [(field, .obj [(operator, operand)])]) =
        .error (.unknownOperator operator)) ∧
    (∀ items, ofJson (.obj [(field, .obj [(operator, .arr items)])]) =
      .error (.invalidFilter (.field operator (.arr items)))) ∧
    (∀ members, compileWritten (.obj [(field, .obj [(operator, .obj members)])]) =
      ofJson (.obj [(operator, .obj members)]) >>= fun sub => sub.compileAt [field]) ∧
    ∀ operand, compileWritten (.obj [(field, .obj [(operator, operand)])]) = .ok .always ↔
      ∃ members, operand = .obj members ∧ ¬IsComparisons members ∧
        compileWritten operand = .ok .always := by
  have hscalar : ∀ operand : Json, operand.isObject = false → operand.isArray = false →
      compileWritten (.obj [(field, .obj [(operator, operand)])]) =
        .error (.unknownOperator operator) :=
    fun operand hobject harray => compileWritten_scalar hfield hunknown hobject harray
  refine ⟨hscalar, ofJson_array hfield hgroup hunknown,
    fun members => compileWritten_nested hfield hunknown rfl, fun operand => ?_⟩
  cases operand with
  | obj members =>
    rw [compileWritten_object_eq_always hfield hgroup hunknown]
    simp
  | arr items =>
    rw [compileWritten, ofJson_array hfield hgroup hunknown]
    simp
  | _ =>
    rw [hscalar _ rfl rfl]
    simp

/-- What is misspelt is found out above a text and above an array; above an object the complaint is
about what is inside. -/
theorem compileWritten_misspelt :
    (∀ key ∈ ["status", "score", "equals", "inn", "betwen"], isGroup key = false) ∧
    (∀ key ∈ ["equals", "inn", "betwen"], Operator.isKnown key = false) ∧
    compileWritten (.obj [("status", .obj [("equals", .str "open")])]) =
      .error (.unknownOperator "equals") ∧
    ofJson (.obj [("status", .obj [("inn", .arr [.str "open"])])]) =
      .error (.invalidFilter (.field "inn" (.arr [.str "open"]))) ∧
    compileWritten (.obj [("score", .obj [("betwen",
      .obj [("lower", .int 1), ("upper", .int 5)])])]) = .error (.unknownOperator "lower") := by
  have hgroup : ∀ key ∈ ["status", "score", "equals", "inn", "betwen"], isGroup key = false := by
    decide
  have hunknown : ∀ key ∈ ["equals", "inn", "betwen"], Operator.isKnown key = false := by
    decide
  obtain ⟨hscalar, -⟩ := @compileWritten_unknown "status" "equals"
    (hgroup _ (by simp)) (hgroup _ (by simp)) (hunknown _ (by simp))
  obtain ⟨-, harray, -⟩ := @compileWritten_unknown "status" "inn"
    (hgroup _ (by simp)) (hgroup _ (by simp)) (hunknown _ (by simp))
  obtain ⟨-, -, hobject, -⟩ := @compileWritten_unknown "score" "betwen"
    (hgroup _ (by simp)) (hgroup _ (by simp)) (hunknown _ (by simp))
  exact ⟨hgroup, hunknown, hscalar (.str "open") rfl rfl, harray _, (hobject _).trans rfl⟩

/-- A misspelt operator above an object without members asks for nothing. -/
theorem compileWritten_misspelt_always : isGroup "status" = false ∧ isGroup "equals" = false ∧
    Operator.isKnown "equals" = false ∧
    compileWritten (.obj [("status", .obj [("equals", .obj [])])]) = .ok .always := by
  refine ⟨by decide, by decide, by decide, rfl⟩

end EntityQuery.Filter
