import EntityQuery.Proofs.Filter.Selecting

/-!
# Lists and equality in a store

A store that reads conditions in three-valued logic may have its own idea of which values are equal,
but not of null: a comparison with null is unknown, and a list is the disjunction of its equalities
(`ThreeValued`; the reading by which rows are selected is one, `threeValued_truth`). Equality with
null is lowered to a test for null, while a list is lowered item by item. So a list holds what one
of its items equals, but a null in it is found in no column, and one that is ruled out with others
rules out every row (`lists_lowered`).
-/

namespace EntityQuery

namespace Sql

/-! ## Disjunctions of truth values -/

namespace Truth

/-- The disjunction of several truth values; without any it is `no`. -/
def disjunction (ts : List Truth) : Truth := ts.foldr or no

theorem or_eq_no {s t : Truth} : s.or t = no ↔ s = no ∧ t = no := by
  cases s <;> cases t <;> decide

theorem disjunction_eq_yes {ts : List Truth} : disjunction ts = yes ↔ ∃ t ∈ ts, t = yes := by
  induction ts with
  | nil => simp [disjunction]
  | cons t ts ih =>
    rw [List.exists_mem_cons_iff, ← ih]
    exact or_eq_yes

theorem disjunction_eq_no {ts : List Truth} : disjunction ts = no ↔ ∀ t ∈ ts, t = no := by
  induction ts with
  | nil => simp [disjunction]
  | cons t ts ih =>
    rw [List.forall_mem_cons, ← ih]
    exact or_eq_no

/-- Two truth values are equal that are `yes` alike and `no` alike. -/
theorem eq_of_iff {s t : Truth} (hyes : s = yes ↔ t = yes) (hno : s = no ↔ t = no) : s = t := by
  cases s <;> cases t <;> simp_all

end Truth

/-! ## Three-valued readings -/

/-- What a store finds for the conditions on a row in three-valued logic, whichever values it takes
for equal. Nulls are told apart from all else, a comparison with null is unknown, and a value is one
of a list when it equals some item. -/
structure ThreeValued (row : Row) (verdict : Condition → Truth) : Prop where
  isNull : ∀ column, verdict (.test (.isNull column)) = .ofBool (row column).isNull
  isNotNull : ∀ column, verdict (.test (.isNotNull column)) = .ofBool !(row column).isNull
  eq_null : ∀ column value, ((row column).isNull || value.isNull) = true →
    verdict (.test (.compare column .eq value)) = .unknown
  ne : ∀ column value, verdict (.test (.compare column .ne value)) =
    (verdict (.test (.compare column .eq value))).not
  oneOf : ∀ column values, values ≠ [] → verdict (.test (.oneOf column false values)) =
    .disjunction (values.map fun value => verdict (.test (.compare column .eq value)))
  noneOf : ∀ column values, values ≠ [] → verdict (.test (.oneOf column true values)) =
    (verdict (.test (.oneOf column false values))).not

namespace ThreeValued

variable {row : Row} {verdict : Condition → Truth} {column : ColumnName}

theorem oneOf_eq_yes (h : ThreeValued row verdict) {values : List Value} (hne : values ≠ []) :
    verdict (.test (.oneOf column false values)) = .yes ↔
      ∃ value ∈ values, verdict (.test (.compare column .eq value)) = .yes := by
  rw [h.oneOf column values hne, Truth.disjunction_eq_yes]
  simp

/-- That a value is none of a list is known when it is known to differ from every item. -/
theorem noneOf_eq_yes (h : ThreeValued row verdict) {values : List Value} (hne : values ≠ []) :
    verdict (.test (.oneOf column true values)) = .yes ↔
      ∀ value ∈ values, verdict (.test (.compare column .ne value)) = .yes := by
  rw [h.noneOf column values hne, Truth.not_eq_yes, h.oneOf column values hne,
    Truth.disjunction_eq_no, List.forall_mem_map]
  simp only [h.ne, Truth.not_eq_yes]

/-- Where a comparison is known, neither side of it is null. -/
theorem isNull_of_known (h : ThreeValued row verdict) {value : Value}
    (hknown : verdict (.test (.compare column .eq value)) ≠ .unknown) :
    (row column).isNull = false ∧ value.isNull = false := by
  rw [← Bool.or_eq_false_iff, ← Bool.not_eq_true]
  exact fun hnull => hknown (h.eq_null column value hnull)

theorem known_of_eq_yes {value : Value}
    (hyes : verdict (.test (.compare column .eq value)) = .yes) :
    verdict (.test (.compare column .eq value)) ≠ .unknown := by
  rw [hyes]
  decide

theorem known_of_ne_yes (h : ThreeValued row verdict) {value : Value}
    (hyes : verdict (.test (.compare column .ne value)) = .yes) :
    verdict (.test (.compare column .eq value)) ≠ .unknown := by
  rw [h.ne, Truth.not_eq_yes] at hyes
  rw [hyes]
  decide

end ThreeValued

/-! ## The reading by which rows are selected -/

theorem ofKnown_not (a b : Value) (test : Json → Json → Bool) :
    (ofKnown a b fun x y => !test x y) = (ofKnown a b test).not := by
  unfold ofKnown
  split
  · rfl
  · show Truth.ofBool (!test a.toJson b.toJson) = (Truth.ofBool (test a.toJson b.toJson)).not
    cases test a.toJson b.toJson <;> rfl

/-- That a value is none of a list is known when it is neither null nor compared with null. -/
theorem forall_ofKnown_eq_no {value : Value} {values : List Value} (hne : values ≠ [])
    (hnone : ¬∃ v ∈ values, ofKnown value v Json.looselyEqual = .yes) :
    (∀ v ∈ values, ofKnown value v Json.looselyEqual = .no) ↔
      (value.isNull || values.any Value.isNull) = false := by
  rw [Bool.or_eq_false_iff, List.any_eq_false]
  constructor
  · intro hno
    obtain ⟨first, hfirst⟩ := List.exists_mem_of_ne_nil values hne
    refine ⟨(ofKnown_eq_no.1 (hno first hfirst)).1, fun v hv => ?_⟩
    simp [(ofKnown_eq_no.1 (hno v hv)).2.1]
  · rintro ⟨hvalue, hvalues⟩ v hv
    have hv' : v.isNull = false := by simpa using hvalues v hv
    refine ofKnown_eq_no.2 ⟨hvalue, hv', ?_⟩
    rw [← Bool.not_eq_true]
    exact fun hequal => hnone ⟨v, hv, ofKnown_eq_yes.2 ⟨hvalue, hv', hequal⟩⟩

/-- Unless the list is empty, membership is the disjunction of equalities. -/
theorem memberOf_eq_disjunction (value : Value) {values : List Value} (hne : values ≠ []) :
    memberOf value values =
      .disjunction (values.map fun v => ofKnown value v Json.looselyEqual) := by
  have hany : (values.any fun v => ofKnown value v Json.looselyEqual = .yes) = true ↔
      ∃ v ∈ values, ofKnown value v Json.looselyEqual = .yes := by
    simp
  have hyes : memberOf value values = .yes ↔
      ∃ v ∈ values, ofKnown value v Json.looselyEqual = .yes := by
    rw [← hany, memberOf]
    split
    · next hfound => exact iff_of_true rfl hfound
    · next hfound => split <;> exact iff_of_false (by decide) hfound
  have hno : memberOf value values = .no ↔
      ∀ v ∈ values, ofKnown value v Json.looselyEqual = .no := by
    by_cases hfound : ∃ v ∈ values, ofKnown value v Json.looselyEqual = .yes
    · rw [hyes.2 hfound]
      obtain ⟨v, hv, hequal⟩ := hfound
      refine iff_of_false (by decide) fun hno => ?_
      rw [hno v hv] at hequal
      cases hequal
    · rw [forall_ofKnown_eq_no hne hfound, memberOf, if_neg (mt hany.1 hfound)]
      cases (value.isNull || values.any Value.isNull) <;> simp
  refine Truth.eq_of_iff ?_ ?_
  · rw [hyes, Truth.disjunction_eq_yes]
    simp
  · rw [hno, Truth.disjunction_eq_no, List.forall_mem_map]

theorem threeValued_truth (row : Row) : ThreeValued row (Condition.truth row) where
  isNull _ := rfl
  isNotNull _ := rfl
  eq_null _ _ hnull := if_pos hnull
  ne column value := ofKnown_not (row column) value Json.looselyEqual
  oneOf column _ hne := memberOf_eq_disjunction (row column) hne
  noneOf _ _ _ := rfl

end Sql

/-! ## What lists are lowered to -/

/-- Whether a store finds what an operator with its operand is lowered to on a column true. -/
def Operator.IsTrue (op : Operator) (verdict : Sql.Condition → Sql.Truth) (naming : Naming)
    (column : Column) (operand : Json) : Prop :=
  verdict (((op.fragment operand).bind column).lower naming) = .yes

namespace Sql.ThreeValued

variable {row : Row} {verdict : Condition → Truth} {naming : Naming} {column : Column}

theorem isTrue_eq_null (h : ThreeValued row verdict) :
    Operator.eq.IsTrue verdict naming column .null ↔ (row (naming column)).isNull = true := by
  show verdict (.test (.isNull (naming column))) = .yes ↔ _
  rw [h.isNull, Truth.ofBool_eq_yes]

theorem isTrue_neq_null (h : ThreeValued row verdict) :
    Operator.neq.IsTrue verdict naming column .null ↔ (row (naming column)).isNull = false := by
  show verdict (.test (.isNotNull (naming column))) = .yes ↔ _
  rw [h.isNotNull, Truth.ofBool_eq_yes, Bool.not_eq_true']

theorem isTrue_eq_of_ne_null {value : Json} (hvalue : value ≠ .null) :
    Operator.eq.IsTrue verdict naming column value ↔
      verdict (.test (.compare (naming column) .eq (.ofJson value))) = .yes := by
  cases value with
  | null => exact absurd rfl hvalue
  | _ => rfl

theorem isTrue_neq_of_ne_null {value : Json} (hvalue : value ≠ .null) :
    Operator.neq.IsTrue verdict naming column value ↔
      verdict (.test (.compare (naming column) .ne (.ofJson value))) = .yes := by
  cases value with
  | null => exact absurd rfl hvalue
  | _ => rfl

/-- A listed value is found when it is not null and equality with it is true. -/
theorem isTrue_oneOf (h : ThreeValued row verdict) {items : List Json} (hne : items ≠ []) :
    Operator.oneOf.IsTrue verdict naming column (.arr items) ↔
      ∃ item ∈ items, item ≠ .null ∧ Operator.eq.IsTrue verdict naming column item := by
  show verdict (.test (.oneOf (naming column) false (items.map .ofJson))) = .yes ↔ _
  rw [h.oneOf_eq_yes (by simpa using hne)]
  simp only [List.mem_map, exists_exists_and_eq_and]
  refine exists_congr fun item => and_congr_right fun _ => ?_
  constructor
  · intro hyes
    have hitem : item ≠ .null := by
      rintro rfl
      exact absurd (h.isNull_of_known (known_of_eq_yes hyes)).2 (by decide)
    exact ⟨hitem, (isTrue_eq_of_ne_null hitem).2 hyes⟩
  · rintro ⟨hitem, hyes⟩
    exact (isTrue_eq_of_ne_null hitem).1 hyes

/-- A list is ruled out when it lists no null and every inequality is true. -/
theorem isTrue_noneOf (h : ThreeValued row verdict) {items : List Json} (hne : items ≠ []) :
    Operator.noneOf.IsTrue verdict naming column (.arr items) ↔
      .null ∉ items ∧ ∀ item ∈ items, Operator.neq.IsTrue verdict naming column item := by
  show verdict (.test (.oneOf (naming column) true (items.map .ofJson))) = .yes ↔ _
  rw [h.noneOf_eq_yes (by simpa using hne), List.forall_mem_map]
  constructor
  · intro hyes
    have hnull : .null ∉ items := fun hmem =>
      absurd (h.isNull_of_known (h.known_of_ne_yes (hyes _ hmem))).2 (by decide)
    refine ⟨hnull, fun item hmem => ?_⟩
    exact (isTrue_neq_of_ne_null (ne_of_mem_of_not_mem hmem hnull)).2 (hyes item hmem)
  · rintro ⟨hnull, hyes⟩ item hmem
    exact (isTrue_neq_of_ne_null (ne_of_mem_of_not_mem hmem hnull)).1 (hyes item hmem)

/-- A list agrees with its equalities unless it lists null and the column is null. -/
theorem isTrue_oneOf_iff_exists (h : ThreeValued row verdict) {items : List Json}
    (hne : items ≠ []) :
    (Operator.oneOf.IsTrue verdict naming column (.arr items) ↔
        ∃ item ∈ items, Operator.eq.IsTrue verdict naming column item) ↔
      ¬(.null ∈ items ∧ (row (naming column)).isNull = true) := by
  rw [h.isTrue_oneOf hne]
  constructor
  · rintro hagree ⟨hmem, hnull⟩
    -- nothing but null equals a null column, and what is found in the list is not null
    obtain ⟨item, -, hitem, hyes⟩ := hagree.2 ⟨.null, hmem, h.isTrue_eq_null.2 hnull⟩
    have hknown := known_of_eq_yes ((isTrue_eq_of_ne_null hitem).1 hyes)
    rw [(h.isNull_of_known hknown).1] at hnull
    cases hnull
  · intro hnot
    refine exists_congr fun item => and_congr_right fun hmem => ?_
    refine and_iff_right_of_imp ?_
    rintro hyes rfl
    exact hnot ⟨hmem, h.isTrue_eq_null.1 hyes⟩

/-- Inequality with all items of which one is null says that the column is not null, and differs
from the others. -/
theorem forall_isTrue_neq (h : ThreeValued row verdict) {items : List Json}
    (hmem : .null ∈ items) :
    (∀ item ∈ items, Operator.neq.IsTrue verdict naming column item) ↔
      (row (naming column)).isNull = false ∧
        ∀ item ∈ items, item ≠ .null → Operator.neq.IsTrue verdict naming column item := by
  constructor
  · intro hyes
    exact ⟨h.isTrue_neq_null.1 (hyes _ hmem), fun item hitem _ => hyes item hitem⟩
  · rintro ⟨hnull, hyes⟩ item hitem
    by_cases hitemNull : item = .null
    · rw [hitemNull, h.isTrue_neq_null]
      exact hnull
    · exact hyes item hitem hitemNull

/-- A negated list agrees with its inequalities unless it lists null and these are all true. -/
theorem isTrue_noneOf_iff_forall (h : ThreeValued row verdict) {items : List Json}
    (hne : items ≠ []) :
    (Operator.noneOf.IsTrue verdict naming column (.arr items) ↔
        ∀ item ∈ items, Operator.neq.IsTrue verdict naming column item) ↔
      ¬(.null ∈ items ∧ (row (naming column)).isNull = false ∧
        ∀ item ∈ items, item ≠ .null → Operator.neq.IsTrue verdict naming column item) := by
  rw [h.isTrue_noneOf hne]
  by_cases hmem : .null ∈ items
  · -- the negated list is never true here, so the two agree where the inequalities fail
    rw [and_iff_right hmem, ← h.forall_isTrue_neq hmem]
    simp [hmem]
  · simp [hmem]

end Sql.ThreeValued

/-- **A list is lowered like equality with its items, but for null.** The condition of a list, which
is accepted, is true when equality is with some item other than null, and that of its negation when
null is not listed and inequality is true of all items. So the first parts from the equalities
exactly where null is listed and the column is null, and the second from the inequalities exactly
where null is listed and the column, not being null, differs from all other items. -/
theorem lists_lowered {row : Sql.Row} {verdict : Sql.Condition → Sql.Truth}
    (h : Sql.ThreeValued row verdict) (naming : Naming) (column : Column) {items : List Json}
    (hne : items ≠ []) :
    (Operator.oneOf.fault? (.arr items) = none ∧ Operator.noneOf.fault? (.arr items) = none) ∧
    (Operator.oneOf.IsTrue verdict naming column (.arr items) ↔
      ∃ item ∈ items, item ≠ .null ∧ Operator.eq.IsTrue verdict naming column item) ∧
    (Operator.noneOf.IsTrue verdict naming column (.arr items) ↔
      .null ∉ items ∧ ∀ item ∈ items, Operator.neq.IsTrue verdict naming column item) ∧
    ((Operator.oneOf.IsTrue verdict naming column (.arr items) ↔
        ∃ item ∈ items, Operator.eq.IsTrue verdict naming column item) ↔
      ¬(.null ∈ items ∧ (row (naming column)).isNull = true)) ∧
    ((Operator.noneOf.IsTrue verdict naming column (.arr items) ↔
        ∀ item ∈ items, Operator.neq.IsTrue verdict naming column item) ↔
      ¬(.null ∈ items ∧ (row (naming column)).isNull = false ∧
        ∀ item ∈ items, item ≠ .null → Operator.neq.IsTrue verdict naming column item)) := by
  refine ⟨?_, h.isTrue_oneOf hne, h.isTrue_noneOf hne, h.isTrue_oneOf_iff_exists hne,
    h.isTrue_noneOf_iff_forall hne⟩
  cases items with
  | nil => exact absurd rfl hne
  | cons item items => exact ⟨rfl, rfl⟩

/-- The post whose status is open, in its row. -/
def openRow : Sql.Row := Sql.Row.ofRecord (.obj [("status", .str "open")])

/-- A null in the list does not keep an open post from being found in it, but it keeps the post from
being known to be none of the others. -/
theorem lists_lowered_open : Sql.ThreeValued openRow (Sql.Condition.truth openRow) ∧
    Operator.oneOf.IsTrue (Sql.Condition.truth openRow) .plain (.ofField "status")
      (.arr [.null, .str "open"]) ∧
    ¬Operator.noneOf.IsTrue (Sql.Condition.truth openRow) .plain (.ofField "status")
      (.arr [.null, .str "closed"]) := by
  have hread := Sql.threeValued_truth openRow
  obtain ⟨-, hone, -⟩ := @lists_lowered _ _ hread .plain (.ofField "status")
    [.null, .str "open"] (by simp)
  obtain ⟨-, -, hnone, -⟩ := @lists_lowered _ _ hread .plain (.ofField "status")
    [.null, .str "closed"] (by simp)
  refine ⟨hread, hone.2 ⟨.str "open", by simp, nofun, ?_⟩, fun h => (hnone.1 h).1 (by simp)⟩
  rfl

/-- An open post is neither closed nor without a status, but it is not known to be none of the
two. A post without a status has the one that is asked for, but is not found. -/
theorem lists_lowered_null :
    (∀ item ∈ [Json.str "closed", .null],
      Operator.neq.IsTrue (Sql.Condition.truth openRow) .plain (.ofField "status") item) ∧
    ¬Operator.noneOf.IsTrue (Sql.Condition.truth openRow) .plain (.ofField "status")
      (.arr [.str "closed", .null]) ∧
    Operator.eq.IsTrue (Sql.Condition.truth (.ofRecord (.obj []))) .plain (.ofField "status")
      .null ∧
    ¬Operator.oneOf.IsTrue (Sql.Condition.truth (.ofRecord (.obj []))) .plain (.ofField "status")
      (.arr [.str "open", .null]) := by
  refine ⟨List.forall_mem_cons.2 ⟨rfl, List.forall_mem_singleton.2 rfl⟩, ?_, rfl, ?_⟩
  · exact nofun
  · exact nofun

end EntityQuery
