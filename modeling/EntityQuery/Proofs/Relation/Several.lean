import EntityQuery.Proofs.Predicate.Alike
import EntityQuery.Proofs.Predicate.Simplified

/-!
# Linking several sources at once

The condition for several sources is the disjunction of their own conditions, of which equal ones
are kept once. It is refused when one of these is, for the reason of the first source that is
(`linkAny_eq_error_iff`), and otherwise holds of a row exactly when the condition of some source
does (`holds_of_linkAny_iff`). What is kept for equal conditions is one of them, so this is said for
every truth of comparisons that equal comparisons share. Hence neither the order of the sources nor
their repetition makes a difference to the rows selected (`linkAny_unites_links`).
-/

namespace EntityQuery.Schema

variable {schema : Schema} {entity relation : String} {found : Relation} {sources : List Json}
  {truth : Predicate.Leaf → Prop} {e : QueryError} {p : Predicate}

/-! ## Sources one after the other -/

/-- What is kept so far has no part in whether a source is refused. -/
theorem linkDistinct_eq_error_iff {linked : List Predicate} :
    linkDistinct schema entity found sources linked = .error e ↔
      sources.mapM (found.link schema entity) = .error e := by
  induction sources generalizing linked with
  | nil =>
    rw [linkDistinct, List.mapM_nil]
    constructor <;> intro h <;> cases h
  | cons source sources ih =>
    rw [linkDistinct, List.mapM_cons]
    cases found.link schema entity source with
    | error d => exact Iff.rfl
    | ok condition =>
      rw [Answer.ok_bind, Answer.ok_bind, ih]
      cases sources.mapM (found.link schema entity) <;> simp

theorem linkAny_of_declared (hfound : schema.relation? entity relation = some found)
    (hne : sources ≠ []) : schema.linkAny entity sources relation =
      (fun conditions => some (.anyOf conditions)) <$>
        linkDistinct schema entity found sources [] := by
  have hsome : sources.isEmpty = false := List.isEmpty_eq_false_iff.2 hne
  rw [linkAny, relation_eq_ok.2 hfound, Answer.ok_bind, hsome, if_neg Bool.false_ne_true]
  cases linkDistinct schema entity found sources [] <;> rfl

theorem linkAny_nil (hfound : schema.relation? entity relation = some found) :
    schema.linkAny entity [] relation = .ok none := by
  rw [linkAny, relation_eq_ok.2 hfound]
  rfl

theorem linkAny_undeclared (h : schema.relation? entity relation = none) (sources : List Json) :
    schema.linkAny entity sources relation = .error (.relationNotFound entity relation) := by
  rw [linkAny, relation_eq_error h]
  rfl

/-! ## The error and the condition -/

/-- The first source that cannot be linked is the one reported. -/
theorem linkAny_eq_error_iff (hfound : schema.relation? entity relation = some found)
    (hne : sources ≠ []) : schema.linkAny entity sources relation = .error e ↔
      ∃ before source after, sources = before ++ source :: after ∧
        (∀ other ∈ before, ∃ q, schema.link entity other relation = .ok q) ∧
        schema.link entity source relation = .error e := by
  have herror : schema.linkAny entity sources relation = .error e ↔
      linkDistinct schema entity found sources [] = .error e := by
    rw [linkAny_of_declared hfound hne]
    cases linkDistinct schema entity found sources [] <;> simp
  rw [herror, linkDistinct_eq_error_iff, Answer.mapM_eq_error]
  simp only [link_of_declared hfound]

theorem exists_linkAny (hfound : schema.relation? entity relation = some found)
    (hne : sources ≠ [])
    (hlink : ∀ source ∈ sources, ∃ q, schema.link entity source relation = .ok q) :
    ∃ p, schema.linkAny entity sources relation = .ok (some p) := by
  cases hany : schema.linkAny entity sources relation with
  | error e =>
    obtain ⟨before, source, after, rfl, -, herror⟩ := (linkAny_eq_error_iff hfound hne).1 hany
    obtain ⟨q, hq⟩ := hlink source (List.mem_append_right _ List.mem_cons_self)
    rw [herror] at hq
    cases hq
  | ok answer =>
    rw [linkAny_of_declared hfound hne] at hany
    obtain ⟨conditions, -, rfl⟩ := Answer.map_eq_ok.1 hany
    exact ⟨_, rfl⟩

theorem holds_of_linkAny_iff (h : schema.linkAny entity sources relation = .ok (some p))
    (respects : Predicate.Respects truth) : p.Holds truth ↔
      ∃ source ∈ sources, ∃ q, schema.link entity source relation = .ok q ∧ q.Holds truth := by
  obtain ⟨found, conditions, hfound, hdistinct, hne, rfl⟩ := linkAny_eq_some h
  obtain ⟨-, horigin, hkept⟩ := linkDistinct_eq_ok hdistinct
  rw [Predicate.holds_anyOf hne]
  constructor
  · rintro ⟨q, hq, hholds⟩
    rcases horigin q hq with hnil | ⟨source, hsource, hlink⟩
    · cases hnil
    · exact ⟨source, hsource, q, (link_of_declared hfound source).trans hlink, hholds⟩
  · rintro ⟨source, hsource, q, hlink, hholds⟩
    rw [link_of_declared hfound] at hlink
    -- the condition of the source is kept, or an equal one in its place
    obtain ⟨own, hown, kept, hmem, hsame⟩ := hkept source hsource
    rw [hlink] at hown
    cases hown
    refine ⟨kept, hmem, ?_⟩
    rcases hsame with rfl | hsame
    · exact hholds
    · exact (Predicate.holds_of_same respects hsame).2 hholds

/-- **Several sources are linked to what each of them is linked to.** An undeclared relation is
refused for any sources, and no sources have no condition. The first source that cannot be linked
gives the error; when all can be, the condition holds of a row exactly when that of some source
does, so other sources that are the same but for order and repetition select the same rows. -/
theorem linkAny_unites_links (schema : Schema) (entity relation : String) :
    (schema.relation? entity relation = none → ∀ sources,
      schema.linkAny entity sources relation = .error (.relationNotFound entity relation)) ∧
    ∀ found, schema.relation? entity relation = some found →
      schema.linkAny entity [] relation = .ok none ∧
      ∀ sources, sources ≠ [] →
        (∀ e, schema.linkAny entity sources relation = .error e ↔
          ∃ before source after, sources = before ++ source :: after ∧
            (∀ other ∈ before, ∃ q, schema.link entity other relation = .ok q) ∧
            schema.link entity source relation = .error e) ∧
        ((∀ source ∈ sources, ∃ q, schema.link entity source relation = .ok q) →
          ∃ p, schema.linkAny entity sources relation = .ok (some p) ∧
            (∀ truth, Predicate.Respects truth → (p.Holds truth ↔ ∃ source ∈ sources, ∃ q,
              schema.link entity source relation = .ok q ∧ q.Holds truth)) ∧
            ∀ others, (∀ source, source ∈ others ↔ source ∈ sources) →
              ∃ r, schema.linkAny entity others relation = .ok (some r) ∧
                ∀ truth, Predicate.Respects truth → (r.Holds truth ↔ p.Holds truth)) := by
  refine ⟨linkAny_undeclared, fun found hfound => ⟨linkAny_nil hfound, fun sources hne =>
    ⟨fun e => linkAny_eq_error_iff hfound hne, fun hlink => ?_⟩⟩⟩
  obtain ⟨p, hp⟩ := exists_linkAny hfound hne hlink
  refine ⟨p, hp, fun truth respects => holds_of_linkAny_iff hp respects, fun others hsame => ?_⟩
  have hnonempty : others ≠ [] := by
    obtain ⟨source, hsource⟩ := List.exists_mem_of_ne_nil sources hne
    exact List.ne_nil_of_mem ((hsame source).2 hsource)
  obtain ⟨r, hr⟩ := exists_linkAny hfound hnonempty fun source hsource =>
    hlink source ((hsame source).1 hsource)
  refine ⟨r, hr, fun truth respects => ?_⟩
  rw [holds_of_linkAny_iff hr respects, holds_of_linkAny_iff hp respects]
  simp only [hsame]

/-- Two orders, one of them twice: a line of the seventh is selected, in whatever order they come.
An order without a number is reported before one without anything. -/
theorem linkAny_unites_links_orders :
    (∃ p, shops.linkAny "Order" [seventhOrder, eighthOrder, seventhOrder] "lines" =
        .ok (some p) ∧
      p.HoldsOn lineOfSeventh ∧ ¬p.HoldsOn strayLine ∧
      ∃ r, shops.linkAny "Order" [eighthOrder, seventhOrder] "lines" = .ok (some r) ∧
        r.HoldsOn lineOfSeventh) ∧
    shops.linkAny "Order" [seventhOrder, .obj [("shop", .str "north")], .obj []] "lines" =
      .error (.missingPrimaryKey "Order" "number") ∧
    shops.linkAny "Order" [] "customer" = .error (.relationNotFound "Order" "customer") := by
  obtain ⟨-, hdeclared⟩ := linkAny_unites_links shops "Order" "lines"
  obtain ⟨hundeclared, -⟩ := linkAny_unites_links shops "Order" "customer"
  obtain ⟨-, hsources⟩ := hdeclared _ orderOfLine.backward_declared
  refine ⟨?_, ?_, hundeclared rfl []⟩
  · obtain ⟨-, hunites⟩ := hsources [seventhOrder, eighthOrder, seventhOrder]
      (List.cons_ne_nil _ _)
    have hlink : ∀ source ∈ [seventhOrder, eighthOrder, seventhOrder],
        ∃ q, shops.link "Order" source "lines" = .ok q := by
      intro source hsource
      simp only [List.mem_cons, List.not_mem_nil, or_false] at hsource
      rcases hsource with rfl | rfl | rfl <;> exact ⟨_, rfl⟩
    obtain ⟨p, hp, hholds, hothers⟩ := hunites hlink
    obtain ⟨r, hr, hsame⟩ := hothers [eighthOrder, seventhOrder] (by
      intro source
      simp only [List.mem_cons, List.not_mem_nil, or_false]
      tauto)
    have hline : p.HoldsOn lineOfSeventh := by
      refine (hholds _ (Predicate.respects_holdsOn lineOfSeventh)).2
        ⟨seventhOrder, List.mem_cons_self, _, rfl, ?_⟩
      exact (Relation.holdsOn_equalities rfl lineOfSeventh).2 (.cons rfl (.cons rfl .nil))
    have hstray : ¬p.HoldsOn strayLine := by
      intro h
      obtain ⟨source, hsource, q, hq, hrow⟩ :=
        (hholds _ (Predicate.respects_holdsOn strayLine)).1 h
      simp only [List.mem_cons, List.not_mem_nil, or_false] at hsource
      -- the number of its order is null, and no order has that
      rcases hsource with rfl | rfl | rfl <;> cases hq <;>
        · obtain _ | ⟨-, _ | ⟨hnumber, -⟩⟩ := (Relation.holdsOn_equalities rfl strayLine).1 hrow
          cases hnumber
    exact ⟨p, hp, hline, hstray, r, hr, (hsame _ (Predicate.respects_holdsOn _)).2 hline⟩
  · obtain ⟨herror, -⟩ := hsources [seventhOrder, .obj [("shop", .str "north")], .obj []]
      (List.cons_ne_nil _ _)
    refine (herror _).2 ⟨[seventhOrder], _, _, rfl, ?_, rfl⟩
    intro other hother
    obtain rfl := List.mem_singleton.1 hother
    exact ⟨_, rfl⟩

end EntityQuery.Schema
