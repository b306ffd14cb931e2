import EntityQuery.Json.Compare
import EntityQuery.Predicate.Lemmas
import EntityQuery.Predicate.Lowering
import Mathlib.Data.List.Basic

/-!
# What an SQL condition says of a row

Conditions are read in three-valued logic. A comparison with null on either side is unknown, and so
is membership in a list that the value is not found in but might be if a null were known. Values
that are not null compare as they do in memory. Conjunction and disjunction are Kleene's, and a row
is selected when the condition is true of it, not when it is merely not false.

No condition here negates another, so a condition is true exactly when enough of its tests are
(`truth_all_eq_yes`, `truth_any_eq_yes`), and a lowered predicate is true exactly when the predicate
holds with the truth its tests have (`truth_lower_eq_yes`).
-/

namespace EntityQuery.Sql

/-! ## Truth values -/

/-- A truth value. -/
inductive Truth
  | yes
  | no
  | unknown
deriving DecidableEq, Repr

namespace Truth

/-- What is decided one way or the other. -/
def ofBool (b : Bool) : Truth := if b then yes else no

/-- Negation; what is unknown stays so. -/
def not : Truth → Truth
  | yes => no
  | no => yes
  | unknown => unknown

/-- Negation under a flag. -/
def negate (negated : Bool) (t : Truth) : Truth := if negated then t.not else t

/-- Conjunction: one `no` settles it. -/
def and : Truth → Truth → Truth
  | no, _ => no
  | _, no => no
  | yes, yes => yes
  | _, _ => unknown

/-- Disjunction: one `yes` settles it. -/
def or : Truth → Truth → Truth
  | yes, _ => yes
  | _, yes => yes
  | no, no => no
  | _, _ => unknown

theorem and_eq_yes {s t : Truth} : s.and t = yes ↔ s = yes ∧ t = yes := by
  cases s <;> cases t <;> decide

theorem or_eq_yes {s t : Truth} : s.or t = yes ↔ s = yes ∨ t = yes := by
  cases s <;> cases t <;> decide

@[simp] theorem ofBool_eq_yes {b : Bool} : ofBool b = yes ↔ b = true := by
  cases b <;> decide

@[simp] theorem not_eq_yes {t : Truth} : t.not = yes ↔ t = no := by
  cases t <;> decide

@[simp] theorem ofBool_eq_no {b : Bool} : ofBool b = no ↔ b = false := by
  cases b <;> decide

end Truth

/-! ## Values -/

namespace Value

/-- Whether the value is null. -/
def isNull : Value → Bool
  | null => true
  | _ => false

/-- The value in memory that a value is bound from. -/
def toJson : Value → Json
  | null => .null
  | bool b => .bool b
  | signed n => .int n
  | unsigned n => .int n
  | double x => .num (.float x)
  | text s => .str s
  | json value => value

@[simp] theorem toJson_ofJson (value : Json) : (ofJson value).toJson = value := by
  match value with
  | .null | .bool _ | .str _ | .arr _ | .obj _ | .num (.float _) => rfl
  | .num (.int n) =>
    rw [ofJson]
    split <;> rfl

@[simp] theorem isNull_ofJson (value : Json) : (ofJson value).isNull = value.isNull := by
  match value with
  | .null | .bool _ | .str _ | .arr _ | .obj _ | .num (.float _) => rfl
  | .num (.int n) =>
    rw [ofJson]
    split <;> rfl

end Value

/-- A text in lower case; other values are left as they are. -/
def lowered : Json → Json
  | .str s => .str (Text.lower s)
  | value => value

/-- The comparison that a sign makes of values that are not null. -/
def Sign.test (sign : Sign) (a b : Json) : Bool :=
  match sign with
  | .eq => a.looselyEqual b
  | .ne => !a.looselyEqual b
  | .gt => a.greater b
  | .gte => a.atLeast b
  | .lt => a.less b
  | .lte => a.atMost b

/-- Unknown if one of two values is null, and otherwise what a test says of them. -/
def ofKnown (a b : Value) (test : Json → Json → Bool) : Truth :=
  if a.isNull || b.isNull then .unknown else .ofBool (test a.toJson b.toJson)

/-- Whether a value is one of a list: known when it is found, and when nothing in question is
null. -/
def memberOf (value : Value) (values : List Value) : Truth :=
  if values.any fun v => ofKnown value v Json.looselyEqual = .yes then .yes
  else if value.isNull || values.any Value.isNull then .unknown
  else .no

/-! ## Conditions -/

/-- What a row holds in its columns. -/
abbrev Row := ColumnName → Value

/-- What a test says of a row. -/
def Test.truth (row : Row) : Test → Truth
  | isNull column => .ofBool (row column).isNull
  | isNotNull column => .ofBool !(row column).isNull
  | compare column sign value => ofKnown (row column) value sign.test
  | like column lower negated pattern =>
    .negate negated (ofKnown (row column) (.text pattern) fun a b =>
      if lower then (lowered a).isLike b else a.isLike b)
  | oneOf column negated values => .negate negated (memberOf (row column) values)
  | isBool column negated b =>
    .negate negated (.ofBool ((row column).toJson.looselyEqual (.bool b)))

namespace Condition

mutual

/-- What a condition says of a row. -/
def truth (row : Row) : Condition → Truth
  | test t => t.truth row
  | all children => truthAll row children
  | any children => truthAny row children
termination_by structural condition => condition

/-- What a conjunction says of a row; without children it is true. -/
def truthAll (row : Row) : List Condition → Truth
  | [] => .yes
  | c :: cs => (truth row c).and (truthAll row cs)
termination_by structural conditions => conditions

/-- What a disjunction says of a row; without children it is false. -/
def truthAny (row : Row) : List Condition → Truth
  | [] => .no
  | c :: cs => (truth row c).or (truthAny row cs)
termination_by structural conditions => conditions

end

theorem truth_all_eq_yes {row : Row} {cs : List Condition} :
    (all cs).truth row = .yes ↔ ∀ c ∈ cs, c.truth row = .yes := by
  rw [truth]
  induction cs with
  | nil => simp [truthAll]
  | cons c cs ih => rw [truthAll, Truth.and_eq_yes, ih, List.forall_mem_cons]

theorem truth_any_eq_yes {row : Row} {cs : List Condition} :
    (any cs).truth row = .yes ↔ ∃ c ∈ cs, c.truth row = .yes := by
  rw [truth]
  induction cs with
  | nil => simp [truthAny]
  | cons c cs ih => rw [truthAny, Truth.or_eq_yes, ih, List.exists_mem_cons_iff]

end Condition

end EntityQuery.Sql

namespace EntityQuery.Predicate

open Sql

/-- What a comparison says of a row once it is lowered. -/
def Leaf.truth (naming : Naming) (row : Sql.Row) (leaf : Leaf) : Truth :=
  (lowerLeaf (naming leaf.column) leaf.op leaf.value).truth row

theorem lowerList_eq_map (naming : Naming) (ps : List Predicate) :
    lowerList naming ps = ps.map (lower naming) := by
  induction ps with
  | nil => rfl
  | cons p ps ih => rw [lowerList, ih, List.map_cons]

mutual

/-- A lowered predicate is true of a row when the predicate holds with its comparisons read on the
row. -/
theorem truth_lower_eq_yes (naming : Naming) (row : Sql.Row) :
    ∀ p : Predicate, (p.lower naming).truth row = .yes ↔ p.Holds (·.truth naming row = .yes)
  | always => by
    rw [lower, Condition.truth_all_eq_yes]
    simp
  | compare _ _ _ => Iff.rfl
  | all children => by
    rw [lower, Condition.truth_all_eq_yes, holds_all, lowerList_eq_map, List.forall_mem_map]
    exact forall₂_congr (truth_lowerList_eq_yes naming row children)
  | any children => by
    rw [lower, Condition.truth_any_eq_yes, holds_any, lowerList_eq_map]
    simp only [List.mem_map, exists_exists_and_eq_and]
    exact exists_congr fun p => and_congr_right (truth_lowerList_eq_yes naming row children p)

theorem truth_lowerList_eq_yes (naming : Naming) (row : Sql.Row) :
    ∀ ps : List Predicate, ∀ p ∈ ps,
      (p.lower naming).truth row = .yes ↔ p.Holds (·.truth naming row = .yes)
  | p :: ps, q, hq => by
    cases hq with
    | head => exact truth_lower_eq_yes naming row p
    | tail _ hq => exact truth_lowerList_eq_yes naming row ps q hq

end

end EntityQuery.Predicate
