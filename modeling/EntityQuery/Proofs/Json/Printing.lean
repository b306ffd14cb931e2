import EntityQuery.Proofs.Json.Quoting
import EntityQuery.Schema.Wire

/-!
# Compact text reads back

The compact text of a value without numbers is the text of one document, the value itself with its
members in the order they are given in (`parse?_text`). Two steps for each character are enough fuel
(`Legible`): an item or a member takes one step more than its value, and the comma or the bracket
behind it pays for that.
-/

namespace EntityQuery

namespace Json

mutual

/-- No number stands anywhere inside the value. -/
def Numberless : Json → Prop
  | num _ => False
  | arr xs => NumberlessItems xs
  | obj ms => NumberlessMembers ms
  | _ => True
termination_by structural value => value

/-- No item holds a number. -/
def NumberlessItems : List Json → Prop
  | [] => True
  | x :: xs => Numberless x ∧ NumberlessItems xs
termination_by structural items => items

/-- No member holds a number. -/
def NumberlessMembers : List (String × Json) → Prop
  | [] => True
  | (_, x) :: ms => Numberless x ∧ NumberlessMembers ms
termination_by structural members => members

end

theorem numberless_arr {xs : List Json} (h : ∀ x ∈ xs, x.Numberless) : (arr xs).Numberless := by
  have hitems : NumberlessItems xs := by
    induction xs with
    | nil => trivial
    | cons x xs ih => exact ⟨h x List.mem_cons_self, ih fun y hy => h y (List.mem_cons_of_mem _ hy)⟩
  exact hitems

theorem numberless_obj {ms : List (String × Json)} (h : ∀ m ∈ ms, m.2.Numberless) :
    (obj ms).Numberless := by
  have hmembers : NumberlessMembers ms := by
    induction ms with
    | nil => trivial
    | cons m ms ih => exact ⟨h m List.mem_cons_self, ih fun n hn => h n (List.mem_cons_of_mem _ hn)⟩
  exact hmembers

theorem numberless_ofTexts (texts : List String) : (ofTexts texts).Numberless := by
  refine numberless_arr fun x hx => ?_
  obtain ⟨text, -, rfl⟩ := List.mem_map.1 hx
  trivial

theorem numberless_ofText? (text : Option String) : (ofText? text).Numberless := by
  cases text <;> trivial

end Json

namespace Document

mutual

/-- The document that a value is, with its members in the order they are given in. -/
def ofJson : Json → Document
  | .null => null
  | .bool b => bool b
  | .num n => num (some n)
  | .str s => str (some s)
  | .arr items => arr (ofItems items)
  | .obj members => obj (ofMembers members)
termination_by structural value => value

/-- The documents that items are. -/
def ofItems : List Json → List Document
  | [] => []
  | x :: xs => ofJson x :: ofItems xs
termination_by structural items => items

/-- The members of a document that members are. -/
def ofMembers : List (String × Json) → List (Option String × Document)
  | [] => []
  | (k, x) :: ms => (some k, ofJson x) :: ofMembers ms
termination_by structural members => members

end

/-- No document begins with what closes a list. -/
theorem read_eq_none_of_closed {cs rest : List Char} (h : skipBlanks cs = ']' :: rest)
    (fuel depth : Nat) : read fuel depth cs = none := by
  cases fuel with
  | zero => rfl
  | succ fuel =>
    rw [read, h]
    rfl

/-! ## Items and members -/

section

variable {fuel depth : Nat} {cs rest : List Char} {value : Document}

theorem readItems_last (h : read fuel depth cs = some (value, ']' :: rest)) :
    readItems (fuel + 1) depth cs = some ([value], rest) := by
  rw [readItems, h]
  rfl

theorem readItems_next {more : List Char} {values : List Document}
    (h : read fuel depth cs = some (value, ',' :: more))
    (hmore : readItems fuel depth more = some (values, rest)) :
    readItems (fuel + 1) depth cs = some (value :: values, rest) := by
  have hcomma : skipBlanks (',' :: more) = ',' :: more := rfl
  rw [readItems, h]
  simp [hcomma, hmore]

theorem readMembers_last {key : String} (h : read fuel depth cs = some (value, '\x7d' :: rest)) :
    readMembers (fuel + 1) depth ((Json.quote key).toList ++ ':' :: cs) =
      some ([(some key, value)], rest) := by
  obtain ⟨elements, hquote, hscan, htext⟩ := Quoted.exists_scan_quote key (':' :: cs)
  have hquoted : ∀ cs, skipBlanks ('"' :: cs) = '"' :: cs := fun _ => rfl
  have hcolon : skipBlanks (':' :: cs) = ':' :: cs := rfl
  have hbrace : skipBlanks ('\x7d' :: rest) = '\x7d' :: rest := rfl
  rw [hquote, readMembers, hquoted]
  simp [hscan, hcolon, h, hbrace, htext]

theorem readMembers_next {key : String} {more : List Char}
    {members : List (Option String × Document)}
    (h : read fuel depth cs = some (value, ',' :: more))
    (hmore : readMembers fuel depth more = some (members, rest)) :
    readMembers (fuel + 1) depth ((Json.quote key).toList ++ ':' :: cs) =
      some ((some key, value) :: members, rest) := by
  obtain ⟨elements, hquote, hscan, htext⟩ := Quoted.exists_scan_quote key (':' :: cs)
  have hquoted : ∀ cs, skipBlanks ('"' :: cs) = '"' :: cs := fun _ => rfl
  have hcolon : skipBlanks (':' :: cs) = ':' :: cs := rfl
  have hcomma : skipBlanks (',' :: more) = ',' :: more := rfl
  rw [hquote, readMembers, hquoted]
  simp [hscan, hcolon, h, hcomma, hmore, htext]

end

/-! ## Values -/

/-- The text of the value reads back, with two steps for each of its characters and as deeply nested
as it is long. -/
def Legible (x : Json) : Prop := ∀ (fuel depth : Nat) (rest : List Char),
  2 * x.text.toList.length ≤ fuel → x.text.toList.length ≤ depth →
    read fuel depth (x.text.toList ++ rest) = some (ofJson x, rest)

theorem legible_of_succ {x : Json} (hpos : 0 < x.text.toList.length)
    (h : ∀ (fuel depth : Nat) (rest : List Char), 2 * x.text.toList.length ≤ fuel + 1 →
      x.text.toList.length ≤ depth + 1 →
        read (fuel + 1) (depth + 1) (x.text.toList ++ rest) = some (ofJson x, rest)) :
    Legible x := by
  intro fuel depth rest hfuel hdepth
  obtain ⟨fuel, rfl⟩ : ∃ n, fuel = n + 1 := ⟨fuel - 1, by omega⟩
  obtain ⟨depth, rfl⟩ : ∃ n, depth = n + 1 := ⟨depth - 1, by omega⟩
  exact h fuel depth rest hfuel hdepth

theorem legible_null : Legible .null :=
  legible_of_succ (by decide) fun _ _ _ _ _ => rfl

theorem legible_bool (b : Bool) : Legible (.bool b) := by
  cases b with
  | false => exact legible_of_succ (by decide) fun _ _ _ _ _ => rfl
  | true => exact legible_of_succ (by decide) fun _ _ _ _ _ => rfl

theorem legible_str (s : String) : Legible (.str s) := by
  have hpos : 0 < (Json.str s).text.toList.length := by simp [Json.text, Json.quote]
  refine legible_of_succ hpos fun fuel depth rest _ _ => ?_
  obtain ⟨elements, hquote, hscan, htext⟩ := Quoted.exists_scan_quote s rest
  have hquoted : ∀ cs, skipBlanks ('"' :: cs) = '"' :: cs := fun _ => rfl
  rw [Json.text, hquote, read, hquoted]
  simp [readLeaf, hscan, htext, ofJson]

/-- Items read back up to the closing bracket. -/
theorem readItems_text (xs : List Json) : ∀ (x : Json), (∀ y ∈ x :: xs, Legible y) →
    ∀ (fuel depth : Nat) (rest : List Char),
      2 * (x.text.toList.length + (Json.itemsText xs).toList.length) < fuel →
      x.text.toList.length + (Json.itemsText xs).toList.length ≤ depth →
        readItems fuel depth (x.text.toList ++ ((Json.itemsText xs).toList ++ ']' :: rest)) =
          some (ofItems (x :: xs), rest) := by
  induction xs with
  | nil =>
    intro x h fuel depth rest hfuel hdepth
    obtain ⟨fuel, rfl⟩ : ∃ n, fuel = n + 1 := ⟨fuel - 1, by omega⟩
    exact readItems_last (h x List.mem_cons_self fuel depth _ (by omega) (by omega))
  | cons y ys ih =>
    intro x h fuel depth rest hfuel hdepth
    obtain ⟨fuel, rfl⟩ : ∃ n, fuel = n + 1 := ⟨fuel - 1, by omega⟩
    obtain ⟨hx, hrest⟩ := List.forall_mem_cons.1 h
    have htext : (Json.itemsText (y :: ys)).toList =
        ',' :: (y.text.toList ++ (Json.itemsText ys).toList) := by
      simp [Json.itemsText]
    rw [htext, List.length_cons, List.length_append] at hfuel hdepth
    rw [htext, List.cons_append, List.append_assoc]
    exact readItems_next (hx fuel depth _ (by omega) (by omega))
      (ih y hrest fuel depth rest (by omega) (by omega))

theorem legible_arr {xs : List Json} (h : ∀ x ∈ xs, Legible x) : Legible (.arr xs) := by
  cases xs with
  | nil => exact legible_of_succ (by decide) fun _ _ _ _ _ => rfl
  | cons x xs =>
    have htext : (Json.arr (x :: xs)).text.toList =
        '[' :: (x.text.toList ++ ((Json.itemsText xs).toList ++ [']'])) := by
      simp [Json.text]
    refine legible_of_succ (by simp [htext]) fun fuel depth rest hfuel hdepth => ?_
    simp only [htext, List.length_cons, List.length_append, List.length_nil] at hfuel hdepth
    have hitems := readItems_text xs x h fuel depth rest (by omega) (by omega)
    have hopen : ∀ cs, skipBlanks ('[' :: cs) = '[' :: cs := fun _ => rfl
    have happend : x.text.toList ++ ((Json.itemsText xs).toList ++ [']']) ++ rest =
        x.text.toList ++ ((Json.itemsText xs).toList ++ ']' :: rest) := by
      simp
    rw [htext, List.cons_append, happend, read]
    simp only [hopen]
    split
    · next hclosed =>
      have hx := h x List.mem_cons_self fuel depth ((Json.itemsText xs).toList ++ ']' :: rest)
        (by omega) (by omega)
      rw [read_eq_none_of_closed hclosed] at hx
      cases hx
    · rw [hitems]
      rfl

/-- Members read back up to the closing brace. -/
theorem readMembers_text (ms : List (String × Json)) : ∀ (k : String) (x : Json),
    (∀ m ∈ (k, x) :: ms, Legible m.2) → ∀ (fuel depth : Nat) (rest : List Char),
      2 * ((Json.quote k).toList.length + 1 + x.text.toList.length +
        (Json.membersText ms).toList.length) < fuel →
      (Json.quote k).toList.length + 1 + x.text.toList.length +
        (Json.membersText ms).toList.length ≤ depth →
        readMembers fuel depth ((Json.quote k).toList ++ ':' :: (x.text.toList ++
          ((Json.membersText ms).toList ++ '\x7d' :: rest))) =
            some (ofMembers ((k, x) :: ms), rest) := by
  induction ms with
  | nil =>
    intro k x h fuel depth rest hfuel hdepth
    obtain ⟨fuel, rfl⟩ : ∃ n, fuel = n + 1 := ⟨fuel - 1, by omega⟩
    have hx : Legible x := h (k, x) List.mem_cons_self
    exact readMembers_last (hx fuel depth _ (by omega) (by omega))
  | cons m ms ih =>
    obtain ⟨l, y⟩ := m
    intro k x h fuel depth rest hfuel hdepth
    obtain ⟨fuel, rfl⟩ : ∃ n, fuel = n + 1 := ⟨fuel - 1, by omega⟩
    have hx : Legible x := h (k, x) List.mem_cons_self
    have htext : (Json.membersText ((l, y) :: ms)).toList =
        ',' :: ((Json.quote l).toList ++ ':' :: (y.text.toList ++
          (Json.membersText ms).toList)) := by
      simp [Json.membersText]
    rw [htext] at hfuel hdepth
    simp only [List.length_cons, List.length_append] at hfuel hdepth
    have happend : (Json.membersText ((l, y) :: ms)).toList ++ '\x7d' :: rest =
        ',' :: ((Json.quote l).toList ++ ':' :: (y.text.toList ++
          ((Json.membersText ms).toList ++ '\x7d' :: rest))) := by
      simp [htext]
    rw [happend]
    exact readMembers_next (hx fuel depth _ (by omega) (by omega))
      (ih l y (List.forall_mem_cons.1 h).2 fuel depth rest (by omega) (by omega))

theorem legible_obj {ms : List (String × Json)} (h : ∀ m ∈ ms, Legible m.2) :
    Legible (.obj ms) := by
  cases ms with
  | nil => exact legible_of_succ (by decide) fun _ _ _ _ _ => rfl
  | cons m ms =>
    obtain ⟨k, x⟩ := m
    have htext : (Json.obj ((k, x) :: ms)).text.toList =
        '\x7b' :: ((Json.quote k).toList ++ ':' :: (x.text.toList ++
          ((Json.membersText ms).toList ++ ['\x7d']))) := by
      simp [Json.text]
    refine legible_of_succ (by simp [htext]) fun fuel depth rest hfuel hdepth => ?_
    simp only [htext, List.length_cons, List.length_append, List.length_nil] at hfuel hdepth
    have hmembers := readMembers_text ms k x h fuel depth rest (by omega) (by omega)
    have hopen : ∀ cs, skipBlanks ('\x7b' :: cs) = '\x7b' :: cs := fun _ => rfl
    have hquoted : ∀ cs, skipBlanks ('"' :: cs) = '"' :: cs := fun _ => rfl
    have happend : (Json.quote k).toList ++ ':' :: (x.text.toList ++
        ((Json.membersText ms).toList ++ ['\x7d'])) ++ rest =
          (Json.quote k).toList ++ ':' :: (x.text.toList ++
            ((Json.membersText ms).toList ++ '\x7d' :: rest)) := by
      simp
    rw [htext, List.cons_append, happend, read, hopen]
    obtain ⟨elements, hquote, -, -⟩ := Quoted.exists_scan_quote k (':' :: (x.text.toList ++
      ((Json.membersText ms).toList ++ '\x7d' :: rest)))
    rw [hquote] at hmembers ⊢
    simp [hquoted, hmembers, ofJson]

mutual

/-- Every value without numbers reads back from its text. -/
theorem legible_of_numberless : ∀ {x : Json}, x.Numberless → Legible x
  | .null, _ => legible_null
  | .bool b, _ => legible_bool b
  | .num _, h => h.elim
  | .str s, _ => legible_str s
  | .arr _, h => legible_arr (legible_of_numberlessItems h)
  | .obj _, h => legible_obj (legible_of_numberlessMembers h)

theorem legible_of_numberlessItems : ∀ {xs : List Json}, Json.NumberlessItems xs →
    ∀ x ∈ xs, Legible x
  | [], _ => by simp
  | _ :: _, h => List.forall_mem_cons.2
    ⟨legible_of_numberless h.1, legible_of_numberlessItems h.2⟩

theorem legible_of_numberlessMembers : ∀ {ms : List (String × Json)},
    Json.NumberlessMembers ms → ∀ m ∈ ms, Legible m.2
  | [], _ => by simp
  | (_, _) :: _, h => List.forall_mem_cons.2
    ⟨legible_of_numberless h.1, legible_of_numberlessMembers h.2⟩

end

/-- **The compact text of a value without numbers is a whole text that holds the value.** -/
theorem parse?_text {x : Json} (h : x.Numberless) :
    parse? x.text.length x.text = some (ofJson x) := by
  have hread := legible_of_numberless h (2 * x.text.toList.length + 2) x.text.length []
    (by omega) (Nat.le_of_eq (String.length_toList))
  rw [List.append_nil] at hread
  simp [parse?, parseFront?, hread, skipBlanks]

end Document

end EntityQuery
