import EntityQuery.Dict.Lemmas
import EntityQuery.Proofs.Filter.Combining

/-!
# What an entry for a relation finds

A relation leads to one object, or to an array of which every item is looked at. An entry for it
accepts a record when its filter holds of something that the relation leads to
(`accepts_relation_empty`). A filter looks at a value by its fields alone (`decides_congr`), so an
item that is no object passes as the object without members would. On its own such a value is
nothing that a relation leads to. That is the one difference between a value and an array of it
alone, and it shows when the filter holds of the object without members
(`acceptsBehind_one_and_many`).
-/

namespace EntityQuery

namespace Json

/-- What is there to be looked at when a relation leads to the value: the items of an array, or an
object itself. -/
def related : Json → List Json
  | arr items => items
  | obj members => [obj members]
  | _ => []

/-- The value as far as its fields go; what is no object has none. -/
def asObject : Json → Json
  | obj members => obj members
  | _ => obj []

theorem getOrNull_asObject (value : Json) (key : String) :
    value.asObject.getOrNull key = value.getOrNull key := by
  cases value <;> rfl

theorem asObject_of_not_isObject {value : Json} (h : value.isObject = false) :
    value.asObject = obj [] := by
  cases value with
  | obj members => cases h
  | _ => rfl

theorem related_of_isObject {value : Json} (h : value.isObject = true) :
    value.related = [value] := by
  cases value with
  | obj members => rfl
  | _ => cases h

theorem related_eq_nil {value : Json} (harray : value.isArray = false)
    (hobject : value.isObject = false) : value.related = [] := by
  cases value with
  | arr items => cases harray
  | obj members => cases hobject
  | _ => rfl

end Json

namespace Filter

/-! ## Looking at fields alone -/

section Fields

variable {record other : Json}

mutual

/-- A filter does not tell apart two values with the same fields. -/
theorem decides_congr (h : ∀ key, record.getOrNull key = other.getOrNull key) :
    ∀ f : Filter, f.decides record = f.decides other
  | node all any fields => by
    rw [decides, decides, decidesAll_congr h all, decidesAny_congr h any, decidesFields_eq,
      decidesFields_eq]
    simp only [h]

theorem decidesAll_congr (h : ∀ key, record.getOrNull key = other.getOrNull key) :
    ∀ fs : List Filter, decidesAll fs record = decidesAll fs other
  | [] => rfl
  | f :: fs => by rw [decidesAll, decidesAll, decides_congr h f, decidesAll_congr h fs]

theorem decidesAny_congr (h : ∀ key, record.getOrNull key = other.getOrNull key) :
    ∀ fs : List Filter, decidesAny fs record = decidesAny fs other
  | [] => rfl
  | f :: fs => by rw [decidesAny, decidesAny, decides_congr h f, decidesAny_congr h fs]

end

theorem decides_asObject (f : Filter) (value : Json) : f.decides value.asObject = f.decides value :=
  decides_congr value.getOrNull_asObject f

/-- What is no object passes as the object without members. -/
theorem decides_of_not_isObject (f : Filter) {value : Json} (hobject : value.isObject = false) :
    f.decides value = f.decides (.obj []) := by
  rw [← decides_asObject, Json.asObject_of_not_isObject hobject]

end Fields

/-! ## One entry -/

theorem relatedPasses_eq (test : Json → Bool) (value : Json) :
    relatedPasses test value = value.related.any test := by
  cases value with
  | obj members => exact (Bool.or_false _).symm
  | _ => rfl

theorem check_relation_empty (name : String) (f : Filter) :
    (empty.relation name f).check = f.check :=
  checkFields_single name (.relation f)

theorem decides_relation_empty (name : String) (f : Filter) (record : Json) :
    (empty.relation name f).decides record = (record.getOrNull name).related.any f.decides := by
  rw [← relatedPasses_eq]
  exact decidesFields_single name (.relation f) record

variable {f : Filter}

/-- An entry for a relation accepts a record when its filter holds of something that the relation
leads to. -/
theorem accepts_relation_empty (h : ∃ p, f.compile = .ok p) (name : String) (record : Json) :
    (empty.relation name f).accepts record =
      .ok ((record.getOrNull name).related.any f.decides) := by
  rw [accepts_eq, check_relation_empty, check_eq_ok_iff.2 h, decides_relation_empty]
  rfl

/-- Whether an entry for a relation accepts the record in which the relation leads to the value. -/
def acceptsBehind (f : Filter) (name : String) (value : Json) : Answer Bool :=
  (empty.relation name f).accepts (.obj [(name, value)])

theorem acceptsBehind_eq (h : ∃ p, f.compile = .ok p) (name : String) (value : Json) :
    f.acceptsBehind name value = .ok (value.related.any f.decides) := by
  have hvalue : (Json.obj [(name, value)]).getOrNull name = value := by
    simp [Json.getOrNull, Json.get?, Dict.get?_cons]
  rw [acceptsBehind, accepts_relation_empty h, hvalue]

theorem acceptsBehind_of_isObject (h : ∃ p, f.compile = .ok p) (name : String) {value : Json}
    (hobject : value.isObject = true) : f.acceptsBehind name value = .ok (f.decides value) := by
  rw [acceptsBehind_eq h, Json.related_of_isObject hobject]
  exact congrArg Except.ok (Bool.or_false _)

/-- On its own, what is neither object nor array is nothing that a relation leads to. -/
theorem acceptsBehind_of_not_isObject (h : ∃ p, f.compile = .ok p) (name : String) {value : Json}
    (harray : value.isArray = false) (hobject : value.isObject = false) :
    f.acceptsBehind name value = .ok false := by
  rw [acceptsBehind_eq h, Json.related_eq_nil harray hobject]
  rfl

theorem acceptsBehind_single (h : ∃ p, f.compile = .ok p) (name : String) (value : Json) :
    f.acceptsBehind name (.arr [value]) = .ok (f.decides value) := by
  rw [acceptsBehind_eq h]
  exact congrArg Except.ok (Bool.or_false _)

theorem acceptsBehind_array (h : ∃ p, f.compile = .ok p) (name : String) (items : List Json) :
    f.acceptsBehind name (.arr items) = .ok true ↔ ∃ item ∈ items, f.decides item = true := by
  rw [acceptsBehind_eq h, Except.ok.injEq]
  exact List.any_eq_true

/-- **One related value and an array of it alone come to the same where the value is an object**, or
where the filter does not hold of the object without members. For any other value that is no array
they part: on its own it is not accepted, and as an item it is accepted like the object without
members. An array is accepted for each item in this way; where no item is of that kind it is
accepted exactly for what would be accepted on its own. -/
theorem acceptsBehind_one_and_many (h : ∃ p, f.compile = .ok p) (name : String) :
    (∀ value : Json, value.isArray = false →
      (f.acceptsBehind name value = f.acceptsBehind name (.arr [value]) ↔
        value.isObject = true ∨ f.acceptsBehind name (.obj []) = .ok false)) ∧
    (∀ value : Json, value.isArray = false → value.isObject = false →
      f.acceptsBehind name value = .ok false ∧
        f.acceptsBehind name (.arr [value]) = f.acceptsBehind name (.obj [])) ∧
    (∀ items : List Json, f.acceptsBehind name (.arr items) = .ok true ↔
      ∃ item ∈ items, f.acceptsBehind name item.asObject = .ok true) ∧
    ∀ items : List Json, (∀ item ∈ items, item.isArray = false) →
      ((∀ item ∈ items, item.isObject = true) ∨ f.acceptsBehind name (.obj []) = .ok false) →
      (f.acceptsBehind name (.arr items) = .ok true ↔
        ∃ item ∈ items, f.acceptsBehind name item = .ok true) := by
  have hfieldless : f.acceptsBehind name (.obj []) = .ok (f.decides (.obj [])) :=
    acceptsBehind_of_isObject h name rfl
  refine ⟨fun value harray => ?_,
    fun value harray hobject => ⟨acceptsBehind_of_not_isObject h name harray hobject, ?_⟩,
    fun items => ?_, fun items harrays hagree => ?_⟩
  · rw [acceptsBehind_single h]
    cases hobject : value.isObject with
    | true => simp [acceptsBehind_of_isObject h name hobject]
    | false =>
      rw [acceptsBehind_of_not_isObject h name harray hobject, f.decides_of_not_isObject hobject,
        hfieldless, or_iff_right Bool.false_ne_true]
      exact eq_comm
  · rw [acceptsBehind_single h, f.decides_of_not_isObject hobject, hfieldless]
  · rw [acceptsBehind_array h]
    refine exists_congr fun item => and_congr_right fun _ => ?_
    have hobject : item.asObject.isObject = true := by cases item <;> rfl
    rw [acceptsBehind_of_isObject h name hobject, decides_asObject, Except.ok.injEq]
  · rw [acceptsBehind_array h]
    refine exists_congr fun item => and_congr_right fun hmem => ?_
    cases hobject : item.isObject with
    | true => rw [acceptsBehind_of_isObject h name hobject, Except.ok.injEq]
    | false =>
      rw [acceptsBehind_of_not_isObject h name (harrays item hmem) hobject,
        f.decides_of_not_isObject hobject]
      rcases hagree with hobjects | hrefused
      · rw [hobjects item hmem] at hobject
        cases hobject
      · rw [hfieldless] at hrefused
        simp [Except.ok.inj hrefused]

/-- Those who are not deleted, as far as one can tell. -/
def notDeleted : Filter := empty.compare "deleted" "is" .null

/-- Of three authors in an array the one without any fields is accepted, and none that has been
deleted. -/
theorem acceptsBehind_authors : (∃ p, notDeleted.compile = .ok p) ∧
    notDeleted.acceptsBehind "author"
      (.arr [.obj [("deleted", .bool true)], .str "ann", .obj [("deleted", .int 7)]]) = .ok true ∧
    notDeleted.acceptsBehind "author" (.str "ann") = .ok false := by
  have hcompile : ∃ p, notDeleted.compile = .ok p := ⟨_, rfl⟩
  obtain ⟨-, halone, hmany, -⟩ := acceptsBehind_one_and_many hcompile "author"
  exact ⟨hcompile, (hmany _).2 ⟨.str "ann", by simp, rfl⟩, (halone (.str "ann") rfl rfl).1⟩

/-- No author is nobody who is not deleted, but an array of no author has one. -/
theorem acceptsBehind_null : notDeleted.acceptsBehind "author" .null = .ok false ∧
    notDeleted.acceptsBehind "author" (.arr [.null]) = .ok true := ⟨rfl, rfl⟩

end Filter

end EntityQuery
