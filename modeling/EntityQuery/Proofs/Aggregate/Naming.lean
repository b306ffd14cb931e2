import EntityQuery.Aggregate.Column

/-!
# Reading the names of aggregate columns

The name of a column reads back as the column, whatever its field is (`ofName?_name`). What makes
the first parts unambiguous is that no two of them begin with the same two letters
(`initials_injective`): a name that begins with one of them is none of the others, however its field
goes on. So different columns have different names (`name_injective`).
-/

namespace EntityQuery.AggregateColumn

/-- The function whose bucket the column belongs to; none for groups. -/
def slot : AggregateColumn → Option AggregateFunction
  | group _ => none
  | apply function _ => some function

/-- The column of a field in a slot. -/
def ofSlot : Option AggregateFunction → String → AggregateColumn
  | none => group
  | some function => apply function

@[simp] theorem slot_ofSlot (s : Option AggregateFunction) (field : String) :
    (ofSlot s field).slot = s := by
  cases s <;> rfl

@[simp] theorem field_ofSlot (s : Option AggregateFunction) (field : String) :
    (ofSlot s field).field = field := by
  cases s <;> rfl

theorem ofSlot_slot_field (c : AggregateColumn) : ofSlot c.slot c.field = c := by
  cases c <;> rfl

/-- The first two letters of a text, small. -/
def initials (cs : List Char) : List Char := (Text.lowerAscii cs).take 2

/-- The first parts of the names of columns: that of groups, then those of functions. -/
def part : Option AggregateFunction → String
  | none => groupName
  | some function => function.name

theorem initials_injective {s t : Option AggregateFunction}
    (h : initials (part s).toList = initials (part t).toList) : s = t := by
  revert h
  cases s with
  | none => cases t with
    | none => decide
    | some g => cases g <;> decide
  | some f => cases t with
    | none => cases f <;> decide
    | some g => cases f <;> cases g <;> decide

theorem two_le_length_part (s : Option AggregateFunction) : 2 ≤ (part s).toList.length := by
  cases s with
  | none => decide
  | some f => cases f <;> decide

/-- What follows the first part is read to the end. -/
theorem afterPart?_append (first : String) (field : List Char) :
    afterPart? first (first.toList ++ '_' :: field) = some (String.ofList field) := by
  rw [afterPart?]
  simp

/-- A name that begins with the first part in some case begins with its letters. -/
theorem initials_of_afterPart? {s : Option AggregateFunction} {cs : List Char} {field : String}
    (h : afterPart? (part s) cs = some field) : initials cs = initials (part s).toList := by
  rw [afterPart?] at h
  split at h
  · next heq =>
    rw [beq_iff_eq] at heq
    have hlong := two_le_length_part s
    calc initials cs
        = initials (cs.take (part s).toList.length) := by
          rw [initials, initials, Text.lowerAscii, Text.lowerAscii, List.map_take, List.take_take,
            Nat.min_eq_left hlong]
      _ = initials (part s).toList := by rw [initials, heq, initials]
  · cases h

theorem toList_name (c : AggregateColumn) :
    c.name.toList = (part c.slot).toList ++ '_' :: c.field.toList := by
  cases c <;> simp [name, part, slot, field]

theorem afterPart?_name (c : AggregateColumn) :
    afterPart? (part c.slot) c.name.toList = some c.field := by
  rw [toList_name, afterPart?_append, String.ofList_toList]

/-- A name begins with one first part at most. -/
theorem slot_eq_of_afterPart? {s t : Option AggregateFunction} {cs : List Char}
    {field more : String}
    (hs : afterPart? (part s) cs = some field) (ht : afterPart? (part t) cs = some more) : s = t :=
  initials_injective ((initials_of_afterPart? hs).symm.trans (initials_of_afterPart? ht))

/-- A name is read as the column whose first part it begins with. -/
theorem ofName?_eq_some_iff_afterPart? {name : String} {c : AggregateColumn} :
    ofName? name = some c ↔ afterPart? (part c.slot) name.toList = some c.field := by
  constructor
  · intro h
    rw [ofName?] at h
    split at h
    · next field hgroup =>
      cases h
      exact hgroup
    · obtain ⟨function, -, hfunction⟩ := List.exists_of_findSome?_eq_some h
      obtain ⟨field, hfield, rfl⟩ := Option.map_eq_some_iff.1 hfunction
      exact hfield
  · intro h
    cases c with
    | group field =>
      have hgroup : afterPart? groupName name.toList = some field := h
      rw [ofName?, hgroup]
    | apply function field =>
      have hgroup : afterPart? groupName name.toList = none := by
        refine Option.eq_none_iff_forall_ne_some.2 fun more hmore => ?_
        cases slot_eq_of_afterPart? (s := none) hmore h
      have hthis : applied? name.toList function = some (apply function field) := by
        have hown : afterPart? function.name name.toList = some field := h
        rw [applied?, hown, Option.map_some]
      have hother : ∀ g ≠ function, applied? name.toList g = none := by
        intro g hg
        rw [applied?, Option.map_eq_none_iff]
        refine Option.eq_none_iff_forall_ne_some.2 fun more hmore => hg ?_
        exact Option.some.inj (slot_eq_of_afterPart? (s := some g) hmore h)
      rw [ofName?, hgroup]
      cases function <;> simp [AggregateFunction.functions, hthis, hother]

/-- **A name reads back as the column it was made for.** -/
theorem ofName?_name (c : AggregateColumn) : ofName? c.name = some c :=
  ofName?_eq_some_iff_afterPart?.2 (afterPart?_name c)

theorem name_injective {c d : AggregateColumn} (h : c.name = d.name) : c = d := by
  have hc := ofName?_name c
  rw [h, ofName?_name d] at hc
  exact (Option.some.inj hc).symm

end EntityQuery.AggregateColumn
