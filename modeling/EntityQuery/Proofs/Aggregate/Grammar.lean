import EntityQuery.Proofs.Aggregate.Naming
import EntityQuery.Proofs.Answer
import EntityQuery.Proofs.Dict.Entries
import EntityQuery.Proofs.Text.Alphabets

/-!
# The grammar of the names of aggregate columns

A name spells a column when it is one of the six first parts in any case of its ASCII letters, an
underscore, and the field as it is (`Spells`). Exactly such names are read, each in one way
(`ofName?_eq_some_iff`, `Spells.unique`), and the column's own name differs from them by the
capitals of the first part (`Spells.name_eq`). Whoever looks for the first part with an expression
that sets aside all case, and for its meaning among the names in ASCII, reads the same columns
(`found?_eq_ofName?`): letters outside ASCII that fold to those of a first part get past the
expression and no further.
-/

namespace EntityQuery

namespace Text

theorem sameAscii_iff {a b : String} :
    sameAscii a b = true ↔ lowerAscii a.toList = lowerAscii b.toList := beq_iff_eq

theorem sameAscii_comm (a b : String) : sameAscii a b = sameAscii b a :=
  Bool.eq_iff_iff.2 (sameAscii_iff.trans (eq_comm.trans sameAscii_iff.symm))

/-- A map that takes the capitals of ASCII to what it takes their small letters to does not see
whether a character is in lower case. -/
theorem apply_toLower {f : Char → Char}
    (hcapitals : ∀ n < 91, 65 ≤ n → f (Char.ofNat n).toLower = f (Char.ofNat n)) (c : Char) :
    f c.toLower = f c := by
  by_cases h : c.val ≥ 'A'.val ∧ c.val ≤ 'Z'.val
  · obtain ⟨hlow, hhigh⟩ : 65 ≤ c.toNat ∧ c.toNat ≤ 90 := by
      simpa [UInt32.le_iff_toNat_le] using h
    have hcapital := hcapitals c.toNat (by omega) hlow
    rwa [Char.ofNat_toNat] at hcapital
  · have hsmall : c.toLower = c := dif_neg h
    rw [hsmall]

theorem foldChar_toLower (c : Char) : foldChar c.toLower = foldChar c :=
  apply_toLower (by decide +kernel) c

theorem toUpper_toLower (c : Char) : c.toLower.toUpper = c.toUpper :=
  apply_toLower (by decide) c

/-- Texts that are the same but for the case of ASCII letters are the same but for case. -/
theorem foldCase_eq_of_sameAscii {a b : String} (h : sameAscii a b = true) :
    foldCase a = foldCase b := by
  have hfold : ∀ cs : List Char, (lowerAscii cs).map foldChar = cs.map foldChar := by
    intro cs
    rw [lowerAscii, List.map_map]
    exact List.map_congr_left fun c _ => foldChar_toLower c
  rw [foldCase, foldCase, ← hfold a.toList, sameAscii_iff.1 h, hfold]

end Text

namespace AggregateColumn

variable {name first other : String} {c d : AggregateColumn} {s t : Option AggregateFunction}

/-! ## Names that spell a column -/

/-- The name is the first part of the column in some case, an underscore, and the field. -/
structure Spells (name first : String) (c : AggregateColumn) : Prop where
  split : name = first ++ "_" ++ c.field
  same : Text.sameAscii first (part c.slot) = true

theorem Spells.toList (h : Spells name first c) :
    name.toList = first.toList ++ '_' :: c.field.toList := by
  simp [h.split]

theorem afterPart?_eq_some {field : String} : afterPart? (part s) name.toList = some field ↔
    ∃ first, Spells name first (ofSlot s field) := by
  constructor
  · intro h
    rw [afterPart?] at h
    split at h
    · next heq =>
      rw [beq_iff_eq] at heq
      refine ⟨String.ofList (name.toList.take (part s).toList.length), ⟨?_, ?_⟩⟩
      · apply String.toList_injective
        split at h
        · next rest hdrop =>
          cases h
          simp [← hdrop]
        · cases h
      · rw [Text.sameAscii_iff, String.toList_ofList, slot_ofSlot, heq]
    · cases h
  · rintro ⟨first, h⟩
    have hsame := Text.sameAscii_iff.1 h.same
    rw [slot_ofSlot] at hsame
    have hlength : first.toList.length = (part s).toList.length := by
      simpa [Text.lowerAscii] using congrArg List.length hsame
    rw [afterPart?, h.toList, ← hlength]
    simp [hsame]

/-- Exactly the names that spell a column are read. -/
theorem ofName?_eq_some_iff : ofName? name = some c ↔ ∃ first, Spells name first c := by
  rw [ofName?_eq_some_iff_afterPart?, afterPart?_eq_some, ofSlot_slot_field]

/-- A name spells one column, and in one way. -/
theorem Spells.unique (h : Spells name first c) (h' : Spells name other d) :
    first = other ∧ c = d := by
  have hsame : some c = some d :=
    (ofName?_eq_some_iff.2 ⟨first, h⟩).symm.trans (ofName?_eq_some_iff.2 ⟨other, h'⟩)
  obtain rfl := Option.some.inj hsame
  have hlists : first.toList ++ '_' :: c.field.toList = other.toList ++ '_' :: c.field.toList :=
    h.toList.symm.trans h'.toList
  exact ⟨String.toList_injective (List.append_cancel_right hlists), rfl⟩

theorem toList_toUpper (text : String) :
    text.toUpper.toList = (Text.lowerAscii text.toList).map Char.toUpper := by
  rw [String.toUpper, String.toList_map, Text.lowerAscii, List.map_map]
  exact List.map_congr_left fun c _ => (Text.toUpper_toLower c).symm

theorem toUpper_part (s : Option AggregateFunction) : (part s).toUpper = part s := by
  apply String.toList_injective
  rw [toList_toUpper]
  cases s with
  | none => decide
  | some f => cases f <;> decide

/-- A first part in capitals is the one of the column. -/
theorem Spells.toUpper_eq (h : Spells name first c) : first.toUpper = part c.slot := by
  apply String.toList_injective
  rw [toList_toUpper, Text.sameAscii_iff.1 h.same, ← toList_toUpper, toUpper_part]

/-- The column's own name is the one that spells it in capitals. -/
theorem Spells.name_eq (h : Spells name first c) : c.name = first.toUpper ++ "_" ++ c.field := by
  apply String.toList_injective
  rw [toList_name, h.toUpper_eq]
  simp

/-! ## Reading in two steps -/

/-- What stands before the underscore and what stands behind it, if the name begins with a first
part but for case. -/
def capture? (name : List Char) (s : Option AggregateFunction) : Option (String × String) :=
  let size := (part s).toList.length
  if (name.take size).map Text.foldChar = (part s).toList.map Text.foldChar then
    match name.drop size with
    | c :: field =>
      if Text.foldChar c = Text.foldChar '_' then
        some (String.ofList (name.take size), String.ofList field)
      else none
    | [] => none
  else none

/-- The first step: the first parts are tried one after the other, and all case is set aside. -/
def captured? (name : String) : Option (String × String) :=
  [some .avg, some .sum, some .count, some .max, some .min, none].findSome? (capture? name.toList)

/-- The second step: what was found is looked up, and the case of ASCII letters is set aside. -/
def found? (name : String) : Option AggregateColumn := do
  let (first, field) ← captured? name
  if Text.sameAscii first groupName then return group field
  else return apply (← AggregateFunction.ofName? first) field

variable {field : String}

theorem capture?_eq_some : capture? name.toList s = some (first, field) ↔
    name = first ++ "_" ++ field ∧ Text.foldCase first = Text.foldCase (part s) := by
  constructor
  · intro h
    rw [capture?] at h
    split at h
    · next hfold =>
      split at h
      · next c rest hdrop =>
        split at h
        · next hc =>
          cases h
          -- no other character folds to the underscore
          obtain rfl : c = '_' := Text.keepsWildcards_foldChar.one.1
            (hc.trans (Text.keepsWildcards_foldChar.one.2 rfl))
          refine ⟨?_, ?_⟩
          · apply String.toList_injective
            simp [← hdrop]
          · simpa [Text.foldCase] using hfold
        · cases h
      · cases h
    · cases h
  · rintro ⟨rfl, hfold⟩
    have hlength : first.toList.length = (part s).toList.length := by
      simpa [Text.foldCase] using congrArg List.length hfold
    have htoList : (first ++ "_" ++ field).toList = first.toList ++ '_' :: field.toList := by simp
    rw [Text.foldCase, Text.foldCase] at hfold
    rw [capture?, htoList, ← hlength]
    simp [hfold]

/-- Up to all case, too, the first two letters tell the first parts apart. -/
theorem take_foldCase_injective
    (h : (Text.foldCase (part s)).take 2 = (Text.foldCase (part t)).take 2) : s = t := by
  revert h
  cases s with
  | none => cases t with
    | none => decide
    | some g => cases g <;> decide +kernel
  | some f => cases t with
    | none => cases f <;> decide +kernel
    | some g => cases f <;> cases g <;> decide +kernel

theorem take_foldCase_of_captured (h : name = first ++ "_" ++ field)
    (hfold : Text.foldCase first = Text.foldCase (part s)) :
    (Text.foldCase name).take 2 = (Text.foldCase (part s)).take 2 := by
  have hname : Text.foldCase name = Text.foldCase first ++ Text.foldCase ("_" ++ field) := by
    simp [h, Text.foldCase]
  have hlong : 2 ≤ (Text.foldCase (part s)).length := by
    simpa [Text.foldCase] using two_le_length_part s
  rw [hname, hfold, List.take_append_of_le_length hlong]

/-- The first step finds what is a first part up to all case. -/
theorem captured?_eq_some : captured? name = some (first, field) ↔
    name = first ++ "_" ++ field ∧ ∃ s, Text.foldCase first = Text.foldCase (part s) := by
  constructor
  · intro h
    obtain ⟨s, -, hs⟩ := List.exists_of_findSome?_eq_some h
    obtain ⟨hname, hfold⟩ := capture?_eq_some.1 hs
    exact ⟨hname, s, hfold⟩
  · rintro ⟨hname, s, hfold⟩
    have hthis := capture?_eq_some.2 ⟨hname, hfold⟩
    have hmem : s ∈ [some .avg, some .sum, some .count, some .max, some .min, none] := by
      cases s with
      | none => decide
      | some f => cases f <;> decide
    cases hcaptured : captured? name with
    | none => exact absurd hthis (by simp [List.findSome?_eq_none_iff.1 hcaptured s hmem])
    | some found =>
      obtain ⟨t, -, ht⟩ := List.exists_of_findSome?_eq_some hcaptured
      obtain ⟨hother, hotherFold⟩ := capture?_eq_some.1 ht
      obtain rfl : s = t := take_foldCase_injective
        ((take_foldCase_of_captured hname hfold).symm.trans
          (take_foldCase_of_captured hother hotherFold))
      rw [← ht, hthis]

theorem ofName?_function_eq_some {text : String} {f : AggregateFunction} :
    AggregateFunction.ofName? text = some f ↔ Text.sameAscii f.name text = true := by
  constructor
  · intro h
    rw [AggregateFunction.ofName?] at h
    simpa using List.find?_some h
  · intro h
    have hmem : f ∈ AggregateFunction.functions := by cases f <;> decide
    cases hfound : AggregateFunction.ofName? text with
    | none => exact absurd h (by simpa using List.find?_eq_none.1 hfound f hmem)
    | some g =>
      have hsame : Text.sameAscii g.name text = true := by
        rw [AggregateFunction.ofName?] at hfound
        simpa using List.find?_some hfound
      have hinitials : initials (part (some g)).toList = initials (part (some f)).toList :=
        congrArg (List.take 2) ((Text.sameAscii_iff.1 hsame).trans (Text.sameAscii_iff.1 h).symm)
      rw [initials_injective hinitials]

theorem Spells.captured?_eq (h : Spells name first c) : captured? name = some (first, c.field) :=
  captured?_eq_some.2 ⟨h.split, c.slot, Text.foldCase_eq_of_sameAscii h.same⟩

/-- The two steps read the columns that names spell. -/
theorem found?_eq_some_iff : found? name = some c ↔ ∃ first, Spells name first c := by
  constructor
  · intro h
    obtain ⟨⟨first, field⟩, hcaptured, h⟩ := Option.bind_eq_some_iff.1 h
    obtain ⟨hname, -⟩ := captured?_eq_some.1 hcaptured
    refine ⟨first, ?_⟩
    by_cases hgroup : Text.sameAscii first groupName = true
    · obtain rfl : group field = c := by simpa [hgroup] using h
      exact ⟨hname, hgroup⟩
    · obtain ⟨f, hf, rfl⟩ : ∃ f, AggregateFunction.ofName? first = some f ∧ apply f field = c := by
        simpa [hgroup, Option.bind_eq_some_iff] using h
      exact ⟨hname, (Text.sameAscii_comm _ _).trans (ofName?_function_eq_some.1 hf)⟩
  · rintro ⟨first, h⟩
    rw [found?, h.captured?_eq]
    cases c with
    | group field =>
      have hgroup : Text.sameAscii first groupName = true := h.same
      simp [hgroup, AggregateColumn.field]
    | apply f field =>
      have hnot : Text.sameAscii first groupName ≠ true := fun hgroup =>
        AggregateColumn.noConfusion (h.unique (d := group field) ⟨h.split, hgroup⟩).2
      have hf : AggregateFunction.ofName? first = some f :=
        ofName?_function_eq_some.2 ((Text.sameAscii_comm _ _).trans h.same)
      simp [hnot, hf, AggregateColumn.field]

theorem found?_eq_ofName? (name : String) : found? name = ofName? name :=
  Option.ext fun _ => found?_eq_some_iff.trans ofName?_eq_some_iff.symm

/-- A first part only up to the case of other letters gets past the first step, and no further. -/
theorem ofName?_of_foldCase (hfold : Text.foldCase first = Text.foldCase (part s))
    (hnot : Text.sameAscii first (part s) = false) (field : String) :
    captured? (first ++ "_" ++ field) = some (first, field) ∧
      ofName? (first ++ "_" ++ field) = none := by
  have hcaptured : captured? (first ++ "_" ++ field) = some (first, field) :=
    captured?_eq_some.2 ⟨rfl, s, hfold⟩
  refine ⟨hcaptured, Option.eq_none_iff_forall_ne_some.2 fun c hc => ?_⟩
  obtain ⟨other, h⟩ := ofName?_eq_some_iff.1 hc
  obtain ⟨rfl, -⟩ := Prod.mk.inj (Option.some.inj (hcaptured.symm.trans h.captured?_eq))
  have hslot : s = c.slot := take_foldCase_injective
    (congrArg (List.take 2) (hfold.symm.trans (Text.foldCase_eq_of_sameAscii h.same)))
  rw [hslot, h.same] at hnot
  cases hnot

/-! ## Names that spell none -/

/-- The name spells some column. -/
def Spelled (name : String) : Prop := ∃ first c, Spells name first c

theorem named_eq_ok : named name = .ok c ↔ ∃ first, Spells name first c := by
  rw [← ofName?_eq_some_iff, named]
  cases ofName? name <;> simp

theorem exists_named_eq_ok : (∃ c, named name = .ok c) ↔ Spelled name := by
  rw [Spelled, exists_comm]
  exact exists_congr fun c => named_eq_ok

theorem named_eq_error {e : QueryError} :
    named name = .error e ↔ ¬Spelled name ∧ e = .unknownAggregate name := by
  rw [← exists_named_eq_ok, named]
  cases ofName? name <;> simp [eq_comm]

end AggregateColumn

/-! ## Rows -/

namespace AggregateResponse

open AggregateColumn (Spelled named)

/-- A row comes out as its names do, read one after the other. -/
theorem outcome_putAll (entries : List (String × Json)) :
    ∀ r : AggregateResponse,
      Answer.outcome (r.putAll entries) =
        Answer.outcome ((entries.map Prod.fst).mapM named) := by
  induction entries with
  | nil =>
    intro r
    rfl
  | cons entry entries ih =>
    intro r
    rw [putAll, List.map_cons, List.mapM_cons]
    cases named entry.1 with
    | error e => rfl
    | ok c =>
      rw [Answer.ok_bind, Answer.ok_bind, ih]
      cases (entries.map Prod.fst).mapM named <;> rfl

/-- The complaint about a row is the one about the smallest of its names that spell no column. -/
theorem ofRow_eq_error {row : Dict Json} (h : row.Sorted) {e : QueryError} :
    ofRow row = .error e ↔ ∃ name ∈ row.keys, ¬Spelled name ∧
      (∀ other ∈ row.keys, other < name → Spelled other) ∧ e = .unknownAggregate name := by
  rw [ofRow, ← Answer.outcome_eq_error, outcome_putAll, Answer.outcome_eq_error,
    Answer.mapM_eq_error]
  simp only [AggregateColumn.exists_named_eq_ok, AggregateColumn.named_eq_error]
  constructor
  · rintro ⟨before, name, after, hkeys, hbefore, hname, rfl⟩
    have hmem : name ∈ row.keys := by
      rw [Dict.keys, hkeys]
      simp
    refine ⟨name, hmem, hname, fun other hother hlt => ?_, rfl⟩
    have hsorted : (before ++ name :: after).Pairwise (· < ·) := hkeys ▸ h
    obtain ⟨-, hafter, -⟩ := List.pairwise_append.1 hsorted
    rw [Dict.keys, hkeys] at hother
    rcases List.mem_append.1 hother with hother | hother
    · exact hbefore other hother
    · rcases List.mem_cons.1 hother with rfl | hother
      · exact absurd hlt (String.lt_irrefl _)
      · have hgt := (List.pairwise_cons.1 hafter).1 other hother
        exact absurd (String.lt_trans hlt hgt) (String.lt_irrefl _)
  · rintro ⟨name, hmem, hname, hsmaller, rfl⟩
    obtain ⟨before, after, hkeys⟩ := List.append_of_mem hmem
    have hsorted : (before ++ name :: after).Pairwise (· < ·) := hkeys ▸ h
    refine ⟨before, name, after, hkeys, fun other hother => ?_, hname, rfl⟩
    have hlt := (List.pairwise_append.1 hsorted).2.2 other hother name List.mem_cons_self
    refine hsmaller other ?_ hlt
    rw [hkeys]
    exact List.mem_append_left _ hother

/-- A row is read when all its names spell columns. -/
theorem exists_ofRow_eq_ok {row : Dict Json} :
    (∃ r, ofRow row = .ok r) ↔ ∀ name ∈ row.keys, Spelled name := by
  rw [ofRow, ← Answer.outcome_eq_ok, outcome_putAll, Answer.outcome_eq_ok,
    Answer.exists_mapM_eq_ok]
  simp only [AggregateColumn.exists_named_eq_ok, Dict.keys]

/-- A row fails when one of its names spells no column. -/
theorem ofRow_fails_iff {row : Dict Json} :
    (∃ e, ofRow row = .error e) ↔ ∃ name ∈ row.keys, ¬Spelled name := by
  have hsplit : (∃ e, ofRow row = .error e) ↔ ¬∃ r, ofRow row = .ok r := by
    cases ofRow row <;> simp
  rw [hsplit, exists_ofRow_eq_ok]
  simp

end AggregateResponse

namespace AggregateColumn

/-- **A name is read exactly when it spells a column.** It is then one of the six first parts in any
case of its letters, an underscore and the column's field, in one way only, and the column's own
name is the same with the first part in capitals. Every other name is complained about as it is,
also one that an expression for the first parts captures because letters outside ASCII fold to
theirs. A row fails exactly when one of its names spells no column, and the complaint is about the
first in key order. -/
theorem named_follows_grammar :
    (∀ name c, named name = .ok c ↔ ∃ first, Spells name first c) ∧
    (∀ name e, named name = .error e ↔
      (¬∃ first c, Spells name first c) ∧ e = .unknownAggregate name) ∧
    (∀ name first other c d, Spells name first c → Spells name other d → first = other ∧ c = d) ∧
    (∀ name first c, Spells name first c → c.name = first.toUpper ++ "_" ++ c.field) ∧
    (∀ name, found? name = ofName? name) ∧
    (∀ first s field, Text.foldCase first = Text.foldCase (part s) →
      Text.sameAscii first (part s) = false →
      captured? (first ++ "_" ++ field) = some (first, field) ∧
        named (first ++ "_" ++ field) = .error (.unknownAggregate (first ++ "_" ++ field))) ∧
    ∀ row : Dict Json, row.Sorted →
      ((∃ e, AggregateResponse.ofRow row = .error e) ↔ ∃ name ∈ row.keys, ¬Spelled name) ∧
      ∀ e, AggregateResponse.ofRow row = .error e ↔ ∃ name ∈ row.keys, ¬Spelled name ∧
        (∀ other ∈ row.keys, other < name → Spelled other) ∧ e = .unknownAggregate name := by
  refine ⟨fun _ _ => named_eq_ok, fun _ _ => named_eq_error, fun _ _ _ _ _ => Spells.unique,
    fun _ _ _ => Spells.name_eq, found?_eq_ofName?, fun first s field hfold hnot => ?_,
    fun row h => ⟨AggregateResponse.ofRow_fails_iff, fun e => AggregateResponse.ofRow_eq_error h⟩⟩
  obtain ⟨hcaptured, hnone⟩ := ofName?_of_foldCase hfold hnot field
  exact ⟨hcaptured, by rw [named, hnone]⟩

/-- A name with a line break in its field, one whose first letter only folds to that of a first
part, and a row of both. -/
theorem named_follows_grammar_sums :
    named "sUm_a\nb_c" = .ok (apply .sum "a\nb_c") ∧
    (captured? "ſum_a" = some ("ſum", "a") ∧
      named "ſum_a" = .error (.unknownAggregate "ſum_a")) ∧
    AggregateResponse.ofRow [("sUm_a", .null), ("ſum_a", .null)] =
      .error (.unknownAggregate "ſum_a") := by
  obtain ⟨hread, hfail, -, -, -, hfold, hrow⟩ := named_follows_grammar
  have hmixed : Spells "sUm_a\nb_c" "sUm" (apply .sum "a\nb_c") := ⟨by decide, by decide⟩
  have hfolded := hfold "ſum" (some .sum) "a" (by decide +kernel) (by decide)
  have hsorted : Dict.Sorted [("sUm_a", Json.null), ("ſum_a", Json.null)] :=
    List.pairwise_pair.2 (by decide)
  refine ⟨(hread _ _).2 ⟨_, hmixed⟩, hfolded, ((hrow _ hsorted).2 _).2 ?_⟩
  refine ⟨"ſum_a", by decide, ((hfail _ _).1 hfolded.2).1, fun other hother hlt => ?_, rfl⟩
  rcases List.mem_pair.1 hother with rfl | rfl
  · exact ⟨"sUm", apply .sum "a", by decide, by decide⟩
  · exact absurd hlt (String.lt_irrefl _)

end AggregateColumn

end EntityQuery
