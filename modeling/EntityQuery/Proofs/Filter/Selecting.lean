import EntityQuery.Proofs.Filter.Meaning
import EntityQuery.Proofs.Json.Equality
import EntityQuery.Proofs.Sql.Truth

/-!
# Where memory and store part

A record is decided in memory with two truth values and its row is selected by the store with three.
The two part in the negated comparisons, which hold in memory of a value that is absent while the
store calls them unknown; in lists with a null among them; and in comparisons but for case, where
memory folds case character by character and the store puts whole texts into lower case.
`Comparator.diverges` names these cases, comparison by comparison (`truth_lowerLeaf_eq_yes`). A row
is selected exactly when the predicate holds of the record with each comparison turned over that
parts (`selects_iff_holds_turned`), and memory and store agree on the record exactly when turning
them over makes no difference (`accepts_iff_selects_iff`).
-/

namespace EntityQuery

open Sql

/-! ## Rows of records -/

/-- The row that holds a record's values under their own names; what is absent is null. -/
def Sql.Row.ofRecord (record : Json) : Sql.Row := fun column =>
  .ofJson (record.getOrNull column.name)

/-- Whether the store selects the row of a record under a predicate. -/
def Predicate.Selects (p : Predicate) (record : Json) : Prop :=
  (p.lower .plain).truth (.ofRecord record) = .yes

instance (p : Predicate) (record : Json) : Decidable (p.Selects record) :=
  inferInstanceAs (Decidable (_ = _))

/-! ## Comparing with null -/

namespace Json

/-- Only values that are not null are ordered. -/
theorem isNull_of_order? {a b : Json} (h : a.order? b ≠ none) :
    a.isNull = false ∧ b.isNull = false := by
  cases a with
  | num | str =>
    cases b with
    | num | str => exact ⟨rfl, rfl⟩
    | _ => exact absurd rfl h
  | _ => exact absurd rfl h

/-- Null is like nothing. -/
theorem isLike_eq_false {a b : Json} (h : a.isNull = true) : a.isLike b = false := by
  rw [isNull_iff.1 h]
  rfl

theorem isLikeFolded_eq_false {a b : Json} (h : a.isNull = true) : a.isLikeFolded b = false := by
  rw [isNull_iff.1 h]
  rfl

/-- Whether null is among the items of a list. -/
def listsNull : Json → Bool
  | arr items => items.any isNull
  | _ => false

theorem null_isIn (value : Json) : null.isIn value = value.listsNull := by
  cases value with
  | arr items => exact congrArg items.any (funext null_looselyEqual)
  | _ => rfl

end Json

namespace Sql

theorem ofKnown_eq_yes {a b : Value} {test : Json → Json → Bool} :
    ofKnown a b test = .yes ↔
      a.isNull = false ∧ b.isNull = false ∧ test a.toJson b.toJson = true := by
  unfold ofKnown
  cases a.isNull <;> cases b.isNull <;> simp

theorem ofKnown_eq_no {a b : Value} {test : Json → Json → Bool} :
    ofKnown a b test = .no ↔
      a.isNull = false ∧ b.isNull = false ∧ test a.toJson b.toJson = false := by
  unfold ofKnown
  cases a.isNull <;> cases b.isNull <;> simp

/-- A test that only values that are not null pass says the same in the store. -/
theorem ofKnown_ofJson_eq_yes {actual value : Json} {test : Json → Json → Bool}
    (h : test actual value = true → actual.isNull = false ∧ value.isNull = false) :
    ofKnown (.ofJson actual) (.ofJson value) test = .yes ↔ test actual value = true := by
  rw [ofKnown_eq_yes, Value.isNull_ofJson, Value.isNull_ofJson, Value.toJson_ofJson,
    Value.toJson_ofJson, ← and_assoc, and_iff_right_iff_imp]
  exact h

/-- A list holds a value when memory finds it there, unless it is the value that is null. -/
theorem any_ofKnown_eq (actual : Json) (items : List Json) :
    ((items.map Value.ofJson).any fun v =>
        ofKnown (.ofJson actual) v Json.looselyEqual = .yes) =
      (!actual.isNull && actual.isIn (.arr items)) := by
  rw [Bool.eq_iff_iff, Json.isIn]
  simp only [List.any_map, List.any_eq_true, Function.comp_apply, decide_eq_true_eq,
    ofKnown_eq_yes, Value.isNull_ofJson, Value.toJson_ofJson, Bool.and_eq_true, Bool.not_eq_true']
  constructor
  · rintro ⟨item, hitem, hactual, _, heq⟩
    exact ⟨hactual, item, hitem, heq⟩
  · rintro ⟨hactual, item, hitem, heq⟩
    refine ⟨item, hitem, hactual, ?_, heq⟩
    -- a null item only equals a null value
    cases item with
    | null => rw [Json.looselyEqual_null, hactual] at heq; cases heq
    | _ => rfl

theorem memberOf_ofJson (actual : Json) (items : List Json) :
    memberOf (.ofJson actual) (items.map .ofJson) =
      if !actual.isNull && actual.isIn (.arr items) then .yes
      else if actual.isNull || (Json.arr items).listsNull then .unknown
      else .no := by
  have hnull : (items.map Value.ofJson).any Value.isNull = (Json.arr items).listsNull := by
    rw [List.any_map, Json.listsNull]
    exact congrArg items.any (funext Value.isNull_ofJson)
  rw [memberOf, any_ofKnown_eq, Value.isNull_ofJson, hnull]

theorem memberOf_eq_yes {actual : Json} {items : List Json} :
    memberOf (.ofJson actual) (items.map .ofJson) = .yes ↔
      actual.isNull = false ∧ actual.isIn (.arr items) = true := by
  rw [memberOf_ofJson]
  cases actual.isNull <;> cases actual.isIn (.arr items) <;>
    cases (Json.arr items).listsNull <;> decide

/-- That a value is not in a list is known only when neither it nor any item is null. -/
theorem memberOf_eq_no {actual : Json} {items : List Json} :
    memberOf (.ofJson actual) (items.map .ofJson) = .no ↔
      actual.isNull = false ∧ actual.isIn (.arr items) = false ∧
        (Json.arr items).listsNull = false := by
  rw [memberOf_ofJson]
  cases actual.isNull <;> cases actual.isIn (.arr items) <;>
    cases (Json.arr items).listsNull <;> decide

end Sql

/-! ## One comparison -/

/-- Whether setting case aside comes out differently by folding and by lower-casing. -/
def caseApart (actual pattern : Json) : Bool :=
  actual.isLikeFolded pattern ^^ (lowered actual).isLike (lowered pattern)

theorem isLike_lowered (actual pattern : Json) :
    (lowered actual).isLike (lowered pattern) =
      (actual.isLikeFolded pattern ^^ caseApart actual pattern) := by
  rw [caseApart, ← Bool.xor_assoc, Bool.xor_self, Bool.false_xor]

/-- Whether a comparison comes out differently in memory and in the store. -/
def Comparator.diverges (op : Comparator) (value actual : Json) : Bool :=
  match op with
  | .ne => actual.isNull && !value.isNull
  | .notLike => actual.isNull
  | .iLike => caseApart actual value
  | .notILike => actual.isNull || caseApart actual value
  | .oneOf => actual.isNull && value.listsNull
  | .noneOf => if actual.isNull then !value.listsNull else value.listsNull && !actual.isIn value
  | _ => false

/-- The negation of a test that no null passes, turned over on null: the test fails of a value that
is not null. -/
theorem not_xor_eq_true {test null : Bool} (h : null = true → test = false) :
    (!test ^^ null) = true ↔ null = false ∧ test = false := by
  cases null with
  | true => simp [h rfl]
  | false => simp

theorem truth_eq_eq_yes {row : Sql.Row} {column : ColumnName} {actual value : Json}
    (hrow : row column = .ofJson actual) :
    (Predicate.lowerLeaf column .eq value).truth row = .yes ↔ actual.looselyEqual value = true := by
  rw [Predicate.lowerLeaf]
  split
  · next hnull =>
    rw [Json.isNull_iff.1 hnull, Json.looselyEqual_null, Test.truth, hrow, Truth.ofBool_eq_yes,
      Value.isNull_ofJson]
  · next hvalue =>
    rw [Bool.not_eq_true] at hvalue
    rw [Test.truth, hrow]
    exact ofKnown_ofJson_eq_yes fun h => ⟨(Json.isNull_of_looselyEqual h).trans hvalue, hvalue⟩

theorem truth_ne_eq_yes {row : Sql.Row} {column : ColumnName} {actual value : Json}
    (hrow : row column = .ofJson actual) :
    (Predicate.lowerLeaf column .ne value).truth row = .yes ↔
      (!actual.looselyEqual value ^^ (actual.isNull && !value.isNull)) = true := by
  rw [Predicate.lowerLeaf]
  split
  · next hnull =>
    rw [Json.isNull_iff.1 hnull, Json.looselyEqual_null, Test.truth, hrow, Truth.ofBool_eq_yes,
      Value.isNull_ofJson]
    simp [Json.isNull]
  · next hvalue =>
    rw [Bool.not_eq_true] at hvalue
    have hnever : actual.isNull = true → actual.looselyEqual value = false := by
      intro hnull
      rw [Json.isNull_iff.1 hnull, Json.null_looselyEqual, hvalue]
    rw [Test.truth, hrow, ofKnown_eq_yes, hvalue, Bool.not_false, Bool.and_true,
      not_xor_eq_true hnever, Value.isNull_ofJson, Value.isNull_ofJson, hvalue]
    simp [Sign.test]

/-- A comparison by order, which no null passes, is the same in the store. -/
theorem truth_order_eq_yes {actual value : Json} {sign : Sign}
    (h : sign.test actual value = true → actual.order? value ≠ none) :
    ofKnown (.ofJson actual) (.ofJson value) sign.test = .yes ↔ sign.test actual value = true :=
  ofKnown_ofJson_eq_yes fun hpasses => Json.isNull_of_order? (h hpasses)

/-- Only a text is like a pattern, also once it is put into lower case. -/
theorem truth_like_eq_yes {row : Sql.Row} {column : ColumnName} {actual : Json}
    (hrow : row column = .ofJson actual) (lower : Bool) (text : String) :
    (Test.like column lower false text).truth row = .yes ↔
      (if lower then lowered actual else actual).isLike (.str text) = true := by
  rw [Test.truth, hrow, Truth.negate, if_neg Bool.false_ne_true, ofKnown_eq_yes,
    Value.isNull_ofJson, Value.toJson_ofJson]
  cases actual <;> cases lower <;> simp [Json.isLike, Json.isNull, lowered, Value.isNull,
    Value.toJson]

theorem truth_notLike_eq_yes {row : Sql.Row} {column : ColumnName} {actual : Json}
    (hrow : row column = .ofJson actual) (lower : Bool) (text : String) :
    (Test.like column lower true text).truth row = .yes ↔
      actual.isNull = false ∧
        (if lower then lowered actual else actual).isLike (.str text) = false := by
  rw [Test.truth, hrow]
  show Truth.not _ = .yes ↔ _
  rw [Truth.not_eq_yes, ofKnown_eq_no, Value.isNull_ofJson, Value.toJson_ofJson]
  cases lower <;> simp [Value.isNull, Value.toJson]

/-- A lowered comparison is true of a column when memory makes it of the value and does not part
from the store, or when it does not make it and parts. -/
theorem truth_lowerLeaf_eq_yes {row : Sql.Row} {column : ColumnName} {actual : Json}
    (hrow : row column = .ofJson actual) {op : Comparator} {value : Json}
    (h : Filter.Takes op value) :
    (Predicate.lowerLeaf column op value).truth row = .yes ↔
      (op.compares value actual ^^ op.diverges value actual) = true := by
  cases op with
  | eq =>
    simp only [truth_eq_eq_yes hrow, Comparator.diverges, Bool.xor_false]
    rfl
  | ne => exact truth_ne_eq_yes hrow
  | gt | gte | lt | lte =>
    simp only [Comparator.diverges, Bool.xor_false]
    rw [Predicate.lowerLeaf, Test.truth, hrow]
    refine truth_order_eq_yes fun hpasses hnone => ?_
    simp [Sign.test, Json.greater, Json.atLeast, Json.less, Json.atMost, hnone] at hpasses
  | like =>
    obtain ⟨text, rfl⟩ := h
    simp only [Comparator.diverges, Bool.xor_false]
    exact truth_like_eq_yes hrow false text
  | notLike =>
    obtain ⟨text, rfl⟩ := h
    refine (truth_notLike_eq_yes hrow false text).trans ?_
    exact (not_xor_eq_true Json.isLike_eq_false).symm
  | iLike =>
    obtain ⟨text, rfl⟩ := h
    refine (truth_like_eq_yes hrow true (Text.lower text)).trans ?_
    show (lowered actual).isLike (lowered (.str text)) = true ↔
      (actual.isLikeFolded (.str text) ^^ caseApart actual (.str text)) = true
    rw [isLike_lowered]
  | notILike =>
    obtain ⟨text, rfl⟩ := h
    refine (truth_notLike_eq_yes hrow true (Text.lower text)).trans ?_
    show actual.isNull = false ∧ (lowered actual).isLike (lowered (.str text)) = false ↔
      (!actual.isLikeFolded (.str text) ^^
        (actual.isNull || caseApart actual (.str text))) = true
    rw [isLike_lowered]
    cases hnull : actual.isNull with
    | true => simp [Json.isLikeFolded_eq_false hnull]
    | false => simp
  | oneOf =>
    obtain ⟨items, rfl⟩ := h
    show memberOf (row column) (items.map .ofJson) = .yes ↔
      (actual.isIn (.arr items) ^^ (actual.isNull && (Json.arr items).listsNull)) = true
    rw [hrow, memberOf_eq_yes]
    cases hnull : actual.isNull with
    | true => simp [Json.isNull_iff.1 hnull, Json.null_isIn]
    | false => simp
  | noneOf =>
    obtain ⟨items, rfl⟩ := h
    show Truth.not (memberOf (row column) (items.map .ofJson)) = .yes ↔
      (!actual.isIn (.arr items) ^^ if actual.isNull then !(Json.arr items).listsNull
        else (Json.arr items).listsNull && !actual.isIn (.arr items)) = true
    rw [hrow, Truth.not_eq_yes, memberOf_eq_no]
    cases hnull : actual.isNull with
    | true => simp [Json.isNull_iff.1 hnull, Json.null_isIn]
    | false => cases actual.isIn (.arr items) <;> simp
  | is =>
    simp only [Comparator.diverges, Bool.xor_false]
    rcases h with rfl | ⟨b, rfl⟩
    · show Truth.ofBool (row column).isNull = .yes ↔ actual.looselyEqual .null = true
      rw [hrow, Truth.ofBool_eq_yes, Value.isNull_ofJson, Json.looselyEqual_null]
    · show Truth.ofBool ((row column).toJson.looselyEqual (.bool b)) = .yes ↔
        actual.looselyEqual (.bool b) = true
      rw [hrow, Truth.ofBool_eq_yes, Value.toJson_ofJson]
  | isNot =>
    simp only [Comparator.diverges, Bool.xor_false]
    rcases h with rfl | ⟨b, rfl⟩
    · show Truth.ofBool (!(row column).isNull) = .yes ↔ (!actual.looselyEqual .null) = true
      rw [hrow, Truth.ofBool_eq_yes, Value.isNull_ofJson, Json.looselyEqual_null]
    · show (Truth.ofBool ((row column).toJson.looselyEqual (.bool b))).not = .yes ↔
        (!actual.looselyEqual (.bool b)) = true
      rw [hrow, Truth.not_eq_yes, Truth.ofBool_eq_no, Value.toJson_ofJson, Bool.not_eq_true']

/-! ## Whole predicates -/

/-- Whether a comparison of a record's column comes out differently in memory and in the store. -/
def Predicate.Leaf.Diverges (leaf : Predicate.Leaf) (record : Json) : Prop :=
  leaf.op.diverges leaf.value (leaf.column.read record) = true

/-- A column of the entity itself is read from the record's row. -/
theorem ofRecord_plain {column : Column} (h : column.path = []) (record : Json) :
    Sql.Row.ofRecord record (Naming.plain column) = .ofJson (column.read record) := by
  rw [Sql.Row.ofRecord, Naming.plain, Column.read, h]
  rfl

/-- Whether the store makes a comparison: where it parts from memory, memory does not. -/
def Predicate.Leaf.HoldsTurned (leaf : Predicate.Leaf) (record : Json) : Prop :=
  Xor (leaf.HoldsOn record) (leaf.Diverges record)

theorem Predicate.Leaf.holdsTurned_of_not_diverges {leaf : Predicate.Leaf} {record : Json}
    (h : ¬leaf.Diverges record) : leaf.HoldsTurned record ↔ leaf.HoldsOn record := by
  simp [HoldsTurned, Xor, h]

namespace Filter

/-- A row is selected when the predicate holds of the record with each comparison turned over on
which memory and store part. -/
theorem selects_iff_holds_turned {f : Filter} {p : Predicate} (hcompile : f.compile = .ok p)
    (hflat : f.Flat) (record : Json) :
    p.Selects record ↔ p.Holds (·.HoldsTurned record) := by
  rw [Predicate.Selects, Predicate.truth_lower_eq_yes]
  apply Predicate.holds_congr
  intro leaf hleaf
  obtain ⟨hpath, htakes⟩ := takes_of_mem_leaves hcompile hflat hleaf
  rw [Predicate.Leaf.truth, truth_lowerLeaf_eq_yes (ofRecord_plain hpath record) htakes,
    Predicate.Leaf.HoldsTurned, Predicate.Leaf.HoldsOn, Predicate.Leaf.Diverges]
  cases leaf.op.compares leaf.value (leaf.column.read record) <;>
    cases leaf.op.diverges leaf.value (leaf.column.read record) <;> simp [Xor]

/-- **A record is accepted in memory exactly when the store selects its row**, if turning over the
comparisons on which the two part makes no difference to the predicate; in particular if they part
on none. -/
theorem accepts_iff_selects_iff {f : Filter} {p : Predicate} (hcompile : f.compile = .ok p)
    (hflat : f.Flat) (record : Json) :
    ((f.accepts record = .ok true ↔ p.Selects record) ↔
      (p.HoldsOn record ↔ p.Holds (·.HoldsTurned record))) ∧
    ((∀ leaf ∈ p.leaves, ¬leaf.Diverges record) →
      (f.accepts record = .ok true ↔ p.Selects record)) := by
  have haccepts : f.accepts record = .ok true ↔ p.HoldsOn record := by
    obtain ⟨hyes, hno⟩ := accepts_iff_holdsOn hcompile (hflat.readsObjects record)
    constructor
    · intro h
      by_contra hnot
      rw [hno hnot] at h
      cases h
    · exact hyes
  rw [haccepts, selects_iff_holds_turned hcompile hflat]
  refine ⟨Iff.rfl, fun hnone => ?_⟩
  apply Predicate.holds_congr
  intro leaf hleaf
  exact (Predicate.Leaf.holdsTurned_of_not_diverges (hnone leaf hleaf)).symm

/-- What is not closed, asked for in two ways of which one lists a null. -/
def notClosed : Filter :=
  .node [] [.node [] [] [("status", .comparisons [⟨"notIn", .arr [.str "closed", .null]⟩])],
    .node [] [] [("status", .comparisons [⟨"neq", .str "closed"⟩])]] []

/-- The store cannot tell that an open record is not in the list, and selects it all the same. -/
theorem selects_notClosed :
    notClosed.Flat ∧ notClosed.accepts (.obj [("status", .str "open")]) = .ok true ∧
      ∃ p, notClosed.compile = .ok p ∧ (∃ leaf ∈ p.leaves, leaf.Diverges
        (.obj [("status", .str "open")])) ∧ p.Selects (.obj [("status", .str "open")]) := by
  have hflat : notClosed.Flat := by
    refine .node (by simp) ?_ (by simp)
    simp only [List.forall_mem_cons]
    refine ⟨.node (by simp) (by simp) (by simp), .node (by simp) (by simp) (by simp), by simp⟩
  have haccepts : notClosed.accepts (.obj [("status", .str "open")]) = .ok true := rfl
  refine ⟨hflat, haccepts, _, rfl, ⟨_, List.mem_cons_self, rfl⟩, ?_⟩
  apply ((accepts_iff_selects_iff rfl hflat _).1.2 ?_).1 haccepts
  -- the second alternative holds without being turned over
  constructor
  · intro _
    exact Or.inr (Or.inl (Or.inl ⟨rfl, Bool.false_ne_true⟩))
  · intro _
    exact Or.inr (Or.inl rfl)

/-- What is absent differs from a value in memory; the store does not select it. -/
theorem accepts_absent :
    (empty.compare "status" "neq" (.str "closed")).accepts (.obj []) = .ok true ∧
      ∃ p, (empty.compare "status" "neq" (.str "closed")).compile = .ok p ∧
        ¬p.Selects (.obj []) := by
  refine ⟨rfl, _, rfl, ?_⟩
  decide

end Filter

end EntityQuery
