import EntityQuery.Filter.Operator
import EntityQuery.Predicate.Lemmas

/-!
# Predicates behind further relations

`Predicate.under before` puts the relations of `before` in front of every column of a predicate and
leaves the rest as it is. Simplification looks at no column, so it makes no difference whether the
relations are put in front before simplifying or afterwards (`under_allOf`, `under_anyOf`).
-/

namespace EntityQuery

/-- The column behind further relations, which come first on its path. -/
def Column.under (before : List String) (column : Column) : Column :=
  ⟨before ++ column.path, column.field⟩

namespace Predicate

mutual

/-- The predicate with every column behind further relations. -/
def under (before : List String) : Predicate → Predicate
  | always => always
  | all children => all (underOf before children)
  | any children => any (underOf before children)
  | compare column op value => compare (column.under before) op value
termination_by structural predicate => predicate

/-- Several predicates with every column behind further relations. -/
def underOf (before : List String) : List Predicate → List Predicate
  | [] => []
  | p :: ps => p.under before :: underOf before ps
termination_by structural predicates => predicates

end

variable {before : List String}

theorem underOf_eq_map (ps : List Predicate) : underOf before ps = ps.map (under before) := by
  induction ps with
  | nil => rfl
  | cons p ps ih => rw [underOf, ih, List.map_cons]

theorem isAlways_under (p : Predicate) : (p.under before).isAlways = p.isAlways := by
  cases p <;> rfl

theorem under_eq_always {p : Predicate} : p.under before = always ↔ p = always := by
  rw [← isAlways_iff, isAlways_under, isAlways_iff]

/-- What is kept of a conjunction does not depend on where its columns are. -/
theorem filter_map_under (ps : List Predicate) :
    (ps.map (under before)).filter (!·.isAlways) =
      (ps.filter (!·.isAlways)).map (under before) := by
  rw [List.filter_map]
  congr 2
  funext p
  show (!(p.under before).isAlways) = !p.isAlways
  rw [isAlways_under]

theorem under_allOf (ps : List Predicate) :
    (allOf ps).under before = allOf (ps.map (under before)) := by
  unfold allOf
  rw [filter_map_under]
  generalize ps.filter (!·.isAlways) = kept
  match kept with
  | [] => rfl
  | [p] => rfl
  | p :: q :: rest =>
    show all (underOf before (p :: q :: rest)) = all ((p :: q :: rest).map (under before))
    rw [underOf_eq_map]

theorem under_anyOf (ps : List Predicate) :
    (anyOf ps).under before = anyOf (ps.map (under before)) := by
  have hany : (ps.map (under before)).any isAlways = ps.any isAlways := by
    rw [List.any_map]
    congr 1
    funext p
    exact isAlways_under p
  unfold anyOf
  rw [hany]
  split
  · rfl
  · match ps with
    | [] => rfl
    | [p] => rfl
    | p :: q :: rest =>
      show any (underOf before (p :: q :: rest)) = any ((p :: q :: rest).map (under before))
      rw [underOf_eq_map]

end Predicate

namespace Fragment

variable {before : List String} {column : Column}

mutual

/-- A fragment bound to a column behind further relations is the bound fragment behind them. -/
theorem bind_under :
    ∀ fragment : Fragment, fragment.bind (column.under before) = (fragment.bind column).under before
  | compare op value => rfl
  | all parts => by rw [bind, bind, Predicate.under_allOf, bindList_under parts]
  | any parts => by rw [bind, bind, Predicate.under_anyOf, bindList_under parts]

theorem bindList_under : ∀ parts : List Fragment,
    bindList (column.under before) parts = (bindList column parts).map (Predicate.under before)
  | [] => rfl
  | part :: parts => by
    rw [bindList, bindList, List.map_cons, bind_under part, bindList_under parts]

end

end Fragment

end EntityQuery
