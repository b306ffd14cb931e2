import EntityQuery.Dict.Lemmas
import EntityQuery.Relation.Tree

/-!
# Trees of relation names as sets of paths

A union has the paths of both trees (`has_merge`), a tree with one more path has that path and what
leads to it (`has_insertPath`), and ordered trees with the same paths are the same (`ext_of_has`).
-/

namespace EntityQuery.JoinTree

/-! ## Order -/

theorem ordered_empty : Ordered empty := ⟨Dict.sorted_nil, trivial⟩

theorem orderedBelow_get? {children : List (String × JoinTree)} (h : OrderedBelow children)
    {name : String} {below : JoinTree} (hg : Dict.get? children name = some below) :
    Ordered below := by
  induction children with
  | nil => cases hg
  | cons entry rest ih =>
    obtain ⟨k, t⟩ := entry
    rw [Dict.get?_cons] at hg
    split at hg
    · cases hg
      exact h.1
    · exact ih h.2 hg

theorem Ordered.get? {t : JoinTree} (h : t.Ordered) {name : String} {below : JoinTree}
    (hg : t.get? name = some below) : Ordered below := by
  cases t with
  | node children => exact orderedBelow_get? h.2 hg

theorem Ordered.sorted {t : JoinTree} (h : t.Ordered) : Dict.Sorted t.children := by
  cases t with
  | node children => exact h.1

theorem orderedBelow_alter {children : Dict JoinTree} (h : OrderedBelow children) (name : String)
    {f : Option JoinTree → JoinTree} (hnone : Ordered (f none))
    (hsome : ∀ t, Ordered t → Ordered (f (some t))) :
    OrderedBelow (Dict.alter name f children) := by
  induction children with
  | nil => exact ⟨hnone, trivial⟩
  | cons entry rest ih =>
    obtain ⟨k, t⟩ := entry
    simp only [Dict.alter]
    split
    · exact ⟨hnone, h⟩
    · split
      · exact ⟨hsome t h.1, h.2⟩
      · exact ⟨h.1, ih h.2⟩

mutual

theorem ordered_merge {a : JoinTree} : {b : JoinTree} → a.Ordered → b.Ordered →
    (a.merge b).Ordered
  | node bs, ha, hb => by
    cases a with
    | node as =>
      have ⟨hs, ho⟩ := ordered_mergeInto ha.1 ha.2 hb.2
      exact ⟨hs, ho⟩

theorem ordered_mergeInto {as : Dict JoinTree} : {bs : List (String × JoinTree)} →
    Dict.Sorted as → OrderedBelow as → OrderedBelow bs →
    Dict.Sorted (mergeInto as bs) ∧ OrderedBelow (mergeInto as bs)
  | [], hs, ho, _ => ⟨hs, ho⟩
  | (name, b) :: rest, hs, ho, hb => by
    have hnone : Ordered (merge empty b) := ordered_merge ordered_empty hb.1
    have hsome (t : JoinTree) (ht : Ordered t) : Ordered (merge t b) := ordered_merge ht hb.1
    let more := Dict.alter name (fun found => merge (found.getD empty) b) as
    show Dict.Sorted (mergeInto more rest) ∧ OrderedBelow (mergeInto more rest)
    exact ordered_mergeInto (Dict.sorted_alter hs name _) (orderedBelow_alter ho name hnone hsome)
      hb.2

end

/-! ## Paths of a union -/

theorem get?_mergeInto {as : Dict JoinTree} {bs : List (String × JoinTree)} (ha : Dict.Sorted as)
    (hb : Dict.Sorted bs) (name : String) :
    Dict.get? (mergeInto as bs) name =
      match Dict.get? bs name with
      | some b => some (merge ((Dict.get? as name).getD empty) b)
      | none => Dict.get? as name := by
  induction bs generalizing as with
  | nil => rfl
  | cons entry rest ih =>
    obtain ⟨k, b⟩ := entry
    have ⟨_, hrest⟩ := Dict.sorted_cons.1 hb
    rw [mergeInto, ih (Dict.sorted_alter ha _ _) hrest, Dict.get?_alter ha, Dict.get?_cons]
    by_cases hk : name = k
    · subst hk
      simp [Dict.get?_of_sorted_cons hb]
    · simp [hk]

theorem get?_merge {a b : JoinTree} (ha : a.Ordered) (hb : b.Ordered) (name : String) :
    (a.merge b).get? name =
      match b.get? name with
      | some t => some (merge ((a.get? name).getD empty) t)
      | none => a.get? name := by
  cases b with
  | node bs => exact get?_mergeInto ha.sorted hb.sorted name

@[simp] theorem has_nil (t : JoinTree) : t.Has [] := trivial

theorem has_empty {path : List String} : empty.Has path ↔ path = [] := by
  cases path with
  | nil => simp [Has]
  | cons name rest => simp [Has, get?, children, empty]

/-- A union has the paths of both trees and no others. -/
theorem has_merge {a b : JoinTree} (ha : a.Ordered) (hb : b.Ordered) {path : List String} :
    (a.merge b).Has path ↔ a.Has path ∨ b.Has path := by
  induction path generalizing a b with
  | nil => simp [Has]
  | cons name rest ih =>
    simp only [Has, get?_merge ha hb]
    cases hbn : b.get? name with
    | none => simp
    | some t =>
      have ht := hb.get? hbn
      cases han : a.get? name with
      | none =>
        have hroot : rest = [] → t.Has rest := fun h => h ▸ has_nil t
        simpa [ih ordered_empty ht, has_empty] using hroot
      | some u => simp [ih (ha.get? han) ht]

/-! ## Adding paths -/

theorem ordered_ofPath (path : List String) : Ordered (ofPath path) := by
  induction path with
  | nil => exact ordered_empty
  | cons name rest ih => exact ⟨by simp [Dict.Sorted, Dict.keys], ih, trivial⟩

/-- A path has what leads to its end, and no more. -/
theorem has_ofPath {path other : List String} : (ofPath path).Has other ↔ other <+: path := by
  induction path generalizing other with
  | nil => simp [ofPath, has_empty]
  | cons name rest ih =>
    cases other with
    | nil => simp [Has]
    | cons first others =>
      simp only [Has, ofPath, get?, children, Dict.get?_cons, List.cons_prefix_cons]
      by_cases h : first = name <;> simp [h, ih]

theorem insert_eq_merge (t : JoinTree) (name : String) (below : JoinTree) :
    t.insert name below = t.merge (node [(name, below)]) := rfl

theorem insertPath_eq_merge (t : JoinTree) (path : List String) :
    t.insertPath path = t.merge (ofPath path) := by
  cases path with
  | nil => cases t; rfl
  | cons name rest => rfl

theorem Ordered.insert {t below : JoinTree} (h : t.Ordered) (hb : below.Ordered) (name : String) :
    (t.insert name below).Ordered :=
  insert_eq_merge t name below ▸
    ordered_merge h ⟨by simp [Dict.Sorted, Dict.keys], hb, trivial⟩

theorem Ordered.insertPath {t : JoinTree} (h : t.Ordered) (path : List String) :
    (t.insertPath path).Ordered :=
  insertPath_eq_merge t path ▸ ordered_merge h (ordered_ofPath path)

/-- Beside the paths it had, a tree has the path that was added and what leads to its end. -/
theorem has_insertPath {t : JoinTree} (h : t.Ordered) {path other : List String} :
    (t.insertPath path).Has other ↔ t.Has other ∨ other <+: path := by
  rw [insertPath_eq_merge, has_merge h (ordered_ofPath path), has_ofPath]

/-! ## Trees with the same paths -/

mutual

/-- Ordered trees with the same paths are the same. -/
theorem ext_of_has : {a b : JoinTree} → a.Ordered → b.Ordered →
    (∀ path, a.Has path ↔ b.Has path) → a = b
  | node as, node bs, ha, hb, h => by
    refine congrArg node (Dict.ext ha.1 hb.1 fun name => ?_)
    exact get?_eq_of_has as bs ha.2 hb.2 name fun rest => h (name :: rest)

theorem get?_eq_of_has : (as : List (String × JoinTree)) → (bs : Dict JoinTree) →
    OrderedBelow as → OrderedBelow bs → (name : String) →
    (∀ rest, (∃ t, Dict.get? as name = some t ∧ t.Has rest) ↔
      ∃ t, Dict.get? bs name = some t ∧ t.Has rest) →
    Dict.get? as name = Dict.get? bs name
  | [], bs, _, _, name, h => by
    cases hb : Dict.get? bs name with
    | none => rfl
    | some t => simpa [hb, Has] using h []
  | (k, a) :: as, bs, ha, hb, name, h => by
    by_cases hk : name = k
    · simp only [Dict.get?_cons, if_pos hk] at h ⊢
      cases hbn : Dict.get? bs name with
      | none => simpa [hbn, Has] using h []
      | some b =>
        rw [ext_of_has ha.1 (orderedBelow_get? hb hbn) fun path => by simpa [hbn] using h path]
    · simp only [Dict.get?_cons, if_neg hk] at h ⊢
      exact get?_eq_of_has as bs ha.2 hb name h

end

end EntityQuery.JoinTree
