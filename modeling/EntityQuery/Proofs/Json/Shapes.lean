import EntityQuery.Proofs.Dict.Entries
import EntityQuery.Proofs.Pairing
import EntityQuery.Schema.Wire
import Mathlib.Data.List.Perm.Basic

/-!
# Typed shapes of what was written

A record is written from its fields, those without a value left out, and read field by field
(`Json.fields?_ofMembers`). What stands for a value, be it the value itself or a document that
denotes it, is read as the value is: `Renders` lists what the shapes ask for, and records, texts,
lists and dictionaries that were written are read back from there. A value stands for itself
(`renders_eq`).
-/

namespace EntityQuery

/-! ## Fields of a record -/

namespace Json

/-- The member for a field, if it has a value. -/
def member? (field : String × Option Json) : List (String × Json) :=
  (field.2.map fun value => (field.1, value)).toList

theorem keys_member? (fields : List (String × Option Json)) :
    ((fields.flatMap member?).map Prod.fst).Sublist (fields.map Prod.fst) := by
  induction fields with
  | nil => simp
  | cons field fields ih =>
    obtain ⟨name, value⟩ := field
    cases value with
    | none => exact ih.cons name
    | some value => exact ih.cons_cons name

theorem get?_member? {fields : List (String × Option Json)} (h : (fields.map Prod.fst).Nodup) :
    ∀ field ∈ fields, Dict.get? (fields.flatMap member?) field.1 = field.2 := by
  induction fields with
  | nil => simp
  | cons first fields ih =>
    obtain ⟨name, value⟩ := first
    obtain ⟨hname, hrest⟩ := List.nodup_cons.1 h
    have hlater : Dict.get? (fields.flatMap member?) name = none :=
      Dict.get?_eq_none fun hmem => hname ((keys_member? fields).subset hmem)
    have hcons : ∀ (value : Json) (key : String),
        Dict.get? (member? (name, some value) ++ fields.flatMap member?) key =
          if key = name then some value else Dict.get? (fields.flatMap member?) key :=
      fun value key => Dict.get?_cons name key value _
    intro field hfield
    rw [List.flatMap_cons]
    rcases List.mem_cons.1 hfield with rfl | hmem
    · cases value with
      | none => exact hlater
      | some value => rw [hcons, if_pos rfl]
    · have hne : field.1 ≠ name := by
        intro heq
        have hkey : field.1 ∈ fields.map Prod.fst := List.mem_map_of_mem hmem
        exact hname (heq ▸ hkey)
      cases value with
      | none => exact ih hrest field hmem
      | some value => rw [hcons, if_neg hne, ih hrest field hmem]

/-- **What a record is written from is what is read for its fields.** -/
theorem fields?_ofMembers (names : List String) (hkeys : names.Nodup)
    {fields : List (String × Option Json)} (hnames : fields.map Prod.fst = names) :
    Readable.fields? names (ofMembers (fields.flatMap member?)) = some (fields.map Prod.snd) := by
  subst hnames
  have hnodup : ((fields.flatMap member?).map Prod.fst).Nodup := (keys_member? fields).nodup hkeys
  refine congrArg some ?_
  rw [List.map_map]
  refine List.map_congr_left fun field hfield => ?_
  rw [Function.comp_apply, Dict.get?_ofEntries_of_nodup hnodup, get?_member? hkeys field hfield]

end Json

/-! ## What stands for a value -/

/-- The shapes read what stands for a value as they read the value. -/
structure Renders {α : Type} [Readable α] (Stands : α → Json → Prop) : Prop where
  isNull : ∀ {a v}, Stands a v → Readable.isNull a = v.isNull
  text? : ∀ {a s}, Stands a (.str s) → Readable.text? a = some s
  bool? : ∀ {a b}, Stands a (.bool b) → Readable.bool? a = some b
  items? : ∀ {a vs}, Stands a (.arr vs) →
    ∃ items, Readable.items? a = some items ∧ List.Forall₂ Stands items vs
  entries? : ∀ {a ms}, Stands a (.obj ms) →
    ∃ entries ordered, Readable.entries? a = some entries ∧ entries.Perm ordered ∧
      List.Forall₂ (fun entry m => entry.1 = m.1 ∧ Stands entry.2 m.2) ordered ms
  fields? : ∀ {a ms}, Stands a (.obj ms) → ∃ get : String → Option α,
    (∀ names, Readable.fields? names a = some (names.map get)) ∧
      ∀ {name v}, Dict.get? ms name = some v → ∃ b, get name = some b ∧ Stands b v

/-- A value stands for itself. -/
theorem renders_eq : Renders (@Eq Json) where
  isNull := by
    rintro a v rfl
    rfl
  text? := by
    rintro a s rfl
    rfl
  bool? := by
    rintro a b rfl
    rfl
  items? := by
    rintro a vs rfl
    exact ⟨vs, rfl, List.forall₂_refl vs⟩
  entries? := by
    rintro a ms rfl
    exact ⟨ms, ms, rfl, .refl ms, List.forall₂_same.2 fun _ _ => ⟨rfl, rfl⟩⟩
  fields? := by
    rintro a ms rfl
    exact ⟨Dict.get? ms, fun _ => rfl, fun h => ⟨_, h, rfl⟩⟩

namespace Renders

variable {α : Type} [Readable α] {Stands : α → Json → Prop} {a : α} {o : Option α} {v : Json}
  {β : Type} {read : α → Option β} {write : β → Json}

theorem list (h : Renders Stands) {xs : List β}
    (hread : ∀ x ∈ xs, ∀ {a}, Stands a (write x) → read a = some x)
    (ha : Stands a (.arr (xs.map write))) : Shape.list read a = some xs := by
  obtain ⟨items, hitems, hstands⟩ := h.items? ha
  rw [Shape.list, hitems]
  have hmem := Pairing.with_mem (List.forall₂_map_right_iff.1 hstands).flip
  exact Pairing.mapM_eq_some.2 (hmem.flip.imp fun _ x hx => hread x hx.1 hx.2)

/-- What stands for a record has something for each of its fields. -/
theorem record (h : Renders Stands) (names : List String) (hkeys : names.Nodup)
    {members : List (String × Json)} (hnames : members.map Prod.fst = names)
    (ha : Stands a (.ofMembers members)) :
    ∃ parts, Readable.fields? names a = some (parts.map some) ∧
      List.Forall₂ Stands parts (members.map Prod.snd) := by
  subst hnames
  obtain ⟨get, hfields, hget⟩ := h.fields? ha
  have hparts : ∀ ms ⊆ members, ∃ parts : List α,
      (ms.map Prod.fst).map get = parts.map some ∧
        List.Forall₂ Stands parts (ms.map Prod.snd) := by
    intro ms
    induction ms with
    | nil => exact fun _ => ⟨[], rfl, .nil⟩
    | cons m ms ih =>
      intro hsub
      obtain ⟨hm, hrest⟩ := List.cons_subset.1 hsub
      obtain ⟨parts, hparts, hstands⟩ := ih hrest
      have hvalue : Dict.get? (Dict.ofEntries members) m.1 = some m.2 := by
        rw [Dict.get?_ofEntries_of_nodup hkeys, Dict.get?_of_mem hkeys hm]
      obtain ⟨b, hb, hbStands⟩ := hget hvalue
      exact ⟨b :: parts, by simp [hb, ← hparts], .cons hbStands hstands⟩
  obtain ⟨parts, hparts, hstands⟩ := hparts members (List.Subset.refl members)
  exact ⟨parts, by rw [hfields, hparts], hstands⟩

theorem texts (h : Renders Stands) {texts : List String} (ha : Stands a (.ofTexts texts)) :
    Shape.texts a = some texts :=
  h.list (fun _ _ => h.text?) ha

theorem optional (h : Renders Stands) {text : Option String} (ha : Stands a (.ofText? text)) :
    Shape.optional Readable.text? (some a) = some text := by
  rw [Shape.optional, h.isNull ha]
  cases text with
  | none => rfl
  | some s => 
    rw [h.text? ha]
    rfl

theorem choice (h : Renders Stands) {name : String} (ha : Stands a (.str name))
    (ofName? : String → Option β) : Shape.choice ofName? a = ofName? name := by
  rw [Shape.choice, h.text? ha]

theorem dict (h : Renders Stands) {d : Dict β} (hd : d.Sorted)
    (hread : ∀ {a x}, Stands a (write x) → read a = some x)
    (ha : Stands a (.obj (d.map fun entry => (entry.1, write entry.2)))) :
    Shape.dict read a = some d := by
  obtain ⟨entries, ordered, hentries, hperm, hstands⟩ := h.entries? ha
  have hordered : List.Forall₂ (fun entry x => (read entry.2).map (entry.1, ·) = some x)
      ordered d := by
    refine (List.forall₂_map_right_iff.1 hstands).imp fun entry x hx => ?_
    rw [hread hx.2, hx.1]
    rfl
  obtain ⟨ds, hds, hsame⟩ := List.perm_comp_forall₂ hperm hordered
  rw [Shape.dict, hentries]
  simp [Pairing.mapM_eq_some.2 hds, Dict.ofEntries_of_perm hsame hd]

end Renders

end EntityQuery
