import EntityQuery.Proofs.Filter.Listing
import EntityQuery.Proofs.Filter.Relating

/-!
# Filters that are no restriction

A filter that compiles to the predicate that always holds makes no comparison it has to pass: those
of its parts that have to hold are no restriction either, and neither is one of its alternatives
(`parts_of_always`). In memory it still asks that the relations it names lead somewhere. `Leads`
says of a record that they do. There the filter is accepted, and where an entry of its own leads to
nothing it is not (`accepts_of_always`).
-/

namespace EntityQuery.Filter

/-! ## What is no restriction -/

theorem ne_always_of_compilesTo {column : Column} {c : Comparison} {p : Predicate}
    (h : CompilesTo column c p) : p ≠ .always := by
  obtain ⟨op, -, -, rfl⟩ := h
  cases op <;> exact nofun

/-- Comparisons are a restriction unless there are none. -/
theorem eq_nil_of_compileComparisons {column : Column} {list : List Comparison}
    (h : compileComparisons column list = .ok .always) : list = [] := by
  obtain ⟨ps, hps, halways⟩ := compileComparisons_eq_ok.1 h
  cases hps with
  | nil => rfl
  | cons hfirst _ =>
    have hp := Predicate.allOf_eq_always_iff.1 halways.symm _ List.mem_cons_self
    exact absurd hp (ne_always_of_compilesTo hfirst)

/-- Where a filter is no restriction, its parts are none, and one of its alternatives. -/
theorem parts_of_always {all any : List Filter} {fields : List (String × FieldFilter)}
    (h : (node all any fields).compile = .ok .always) :
    (∀ f ∈ all, f.compile = .ok .always) ∧
    (any = [] ∨ ∃ f ∈ any, f.compile = .ok .always) ∧
    (∀ name list, (name, FieldFilter.comparisons list) ∈ fields → list = []) ∧
    ∀ name sub, (name, FieldFilter.relation sub) ∈ fields → sub.compile = .ok .always := by
  obtain ⟨ps, qs, rs, hps, hqs, hrs, heq⟩ := compileAt_eq_ok.1 h
  have halways := Predicate.allOf_eq_always_iff.1 heq.symm
  rw [List.forall_mem_cons, List.forall_mem_cons, Predicate.allOf_eq_always_iff,
    Predicate.anyOf_eq_always_iff] at halways
  obtain ⟨hall, hany, hentries⟩ := halways
  have hentry : ∀ entry ∈ fields, compileEntry entry.2 [] entry.1 = .ok .always := by
    intro entry hmem
    obtain ⟨r, hr, hcompile⟩ := Pairing.exists_of_mem_right hrs.flip hmem
    rwa [hentries r hr] at hcompile
  refine ⟨fun f hf => ?_, ?_, fun name list hmem => ?_, fun name sub hmem => ?_⟩
  · obtain ⟨p, hp, hcompile⟩ := Pairing.exists_of_mem_right hps.flip hf
    rwa [hall p hp] at hcompile
  · rcases hany with rfl | hmem
    · cases hqs
      exact Or.inl rfl
    · exact Or.inr (Pairing.exists_of_mem_right hqs hmem)
  · exact eq_nil_of_compileComparisons (hentry _ hmem)
  · exact compileAt_eq_always.1 (hentry _ hmem)

/-! ## Where relations lead -/

mutual

/-- Every relation that the filter enters leads to an object, or to an array with an object in it,
in which the filter behind the relation leads on. Of alternatives that goes for one that is no
restriction, unless one that is a restriction is met. -/
def Leads : Filter → Json → Prop
  | node all any fields, record =>
    LeadAll all record ∧ (any = [] ∨ LeadsSome any record) ∧ LeadFields fields record
termination_by structural filter => filter

/-- Every one of the filters leads on. -/
def LeadAll : List Filter → Json → Prop
  | [], _ => True
  | f :: fs, record => Leads f record ∧ LeadAll fs record
termination_by structural filters => filters

/-- One of the filters is no restriction and leads on, or is a restriction and met. -/
def LeadsSome : List Filter → Json → Prop
  | [], _ => False
  | f :: fs, record =>
    (f.compile = .ok .always ∧ Leads f record ∨
      f.compile ≠ .ok .always ∧ f.accepts record = .ok true) ∨ LeadsSome fs record
termination_by structural filters => filters

/-- What an entry enters leads on from the value of its field. -/
def EntryLeads : FieldFilter → Json → Prop
  | .comparisons _, _ => True
  | .relation f, actual => ∃ item ∈ actual.related, item.isObject = true ∧ Leads f item
termination_by structural entry => entry

/-- What the entries enter leads on from the values of their fields. -/
def LeadFields : List (String × FieldFilter) → Json → Prop
  | [], _ => True
  | (field, entry) :: rest, record =>
    EntryLeads entry (record.getOrNull field) ∧ LeadFields rest record
termination_by structural fields => fields

end

section Node

variable {all any : List Filter} {fields : List (String × FieldFilter)} {record : Json}

theorem leadAll_iff {fs : List Filter} : LeadAll fs record ↔ ∀ f ∈ fs, f.Leads record := by
  induction fs with
  | nil => simp [LeadAll]
  | cons f fs ih => rw [LeadAll, List.forall_mem_cons, ih]

theorem leadsSome_iff {fs : List Filter} :
    LeadsSome fs record ↔ ∃ f ∈ fs, f.compile = .ok .always ∧ f.Leads record ∨
      f.compile ≠ .ok .always ∧ f.accepts record = .ok true := by
  induction fs with
  | nil => simp [LeadsSome]
  | cons f fs ih => rw [LeadsSome, List.exists_mem_cons_iff, ih]

theorem leadFields_iff :
    LeadFields fields record ↔
      ∀ entry ∈ fields, EntryLeads entry.2 (record.getOrNull entry.1) := by
  induction fields with
  | nil => simp [LeadFields]
  | cons entry fields ih => rw [LeadFields, List.forall_mem_cons, ih]

theorem leads_node : (node all any fields).Leads record ↔
    (∀ f ∈ all, f.Leads record) ∧
    (any = [] ∨ ∃ f ∈ any, f.compile = .ok .always ∧ f.Leads record ∨
      f.compile ≠ .ok .always ∧ f.accepts record = .ok true) ∧
    ∀ entry ∈ fields, EntryLeads entry.2 (record.getOrNull entry.1) := by
  rw [Leads, leadAll_iff, leadsSome_iff, leadFields_iff]

end Node

/-- Without relations there is nothing to enter. -/
theorem Flat.leads {f : Filter} (hflat : f.Flat) (h : f.compile = .ok .always) (record : Json) :
    f.Leads record := by
  induction hflat with
  | @node all any fields _ _ hnone ihall ihany =>
    obtain ⟨hall, hany, -, -⟩ := parts_of_always h
    refine leads_node.2 ⟨fun f hf => ihall f hf (hall f hf), ?_, ?_⟩
    · refine hany.imp id ?_
      rintro ⟨f, hf, hfree⟩
      exact ⟨f, hf, Or.inl ⟨hfree, ihany f hf hfree⟩⟩
    · rintro ⟨name, entry⟩ hmem
      cases entry with
      | comparisons list => trivial
      | relation sub => exact absurd hmem (hnone name sub)

/-! ## What memory makes of it -/

theorem decides_of_accepts {f : Filter} {record : Json} (h : f.accepts record = .ok true) :
    f.decides record = true := by
  rw [accepts_eq] at h
  obtain ⟨_, -, hverdict⟩ := Answer.bind_eq_ok.1 h
  exact Except.ok.inj hverdict

/-- A filter that is no restriction holds where its relations lead somewhere. -/
theorem decides_of_leads {f : Filter} : ∀ {record : Json}, f.compile = .ok .always →
    f.Leads record → f.decides record = true := by
  induction f using partsInduction with
  | node all any fields ihall ihany ihfields =>
    intro record h hleads
    obtain ⟨hall, -, hlists, hsubs⟩ := parts_of_always h
    obtain ⟨lall, lany, lfields⟩ := leads_node.1 hleads
    have hall : all.all (decides · record) = true :=
      List.all_eq_true.2 fun f hf => ihall f hf (hall f hf) (lall f hf)
    have hany : (any.isEmpty || any.any (decides · record)) = true := by
      rcases lany with rfl | ⟨f, hf, ⟨hfree, hlead⟩ | ⟨-, hmet⟩⟩
      · rfl
      · rw [List.any_eq_true.2 ⟨f, hf, ihany f hf hfree hlead⟩, Bool.or_true]
      · rw [List.any_eq_true.2 ⟨f, hf, decides_of_accepts hmet⟩, Bool.or_true]
    have hfields : (fields.all fun entry =>
        decidesEntry entry.2 (record.getOrNull entry.1)) = true := by
      refine List.all_eq_true.2 ?_
      rintro ⟨name, entry⟩ hmem
      cases entry with
      | comparisons list =>
        obtain rfl := hlists name list hmem
        rfl
      | relation sub =>
        obtain ⟨item, hitem, -, hlead⟩ := lfields _ hmem
        rw [decidesEntry, relatedPasses_eq]
        exact List.any_eq_true.2
          ⟨item, hitem, ihfields name sub hmem (hsubs name sub hmem) hlead⟩
    rw [decides_node, hall, hany, hfields]
    rfl

/-- No filter holds where an entry of its own leads to nothing. -/
theorem decides_of_related_eq_nil {f : Filter} {name : String} {sub : Filter} {record : Json}
    (hentry : (name, FieldFilter.relation sub) ∈ f.fields)
    (hnothing : (record.getOrNull name).related = []) : f.decides record = false := by
  obtain ⟨all, any, fields⟩ := f
  have hfields : (fields.all fun entry =>
      decidesEntry entry.2 (record.getOrNull entry.1)) = false := by
    refine List.all_eq_false.2 ⟨_, hentry, ?_⟩
    rw [decidesEntry, relatedPasses_eq, hnothing]
    exact Bool.false_ne_true
  rw [decides_node, hfields, Bool.and_false]

/-- **A filter that is no restriction accepts every record in which its relations lead somewhere**,
and without relations every record. An entry of its own for a relation still asks that there is
something behind it: where there is neither an object nor an item of an array, the record is not
accepted. -/
theorem accepts_of_always {f : Filter} (h : f.compile = .ok .always) (record : Json) :
    (f.Leads record → f.accepts record = .ok true) ∧
    (f.Flat → f.accepts record = .ok true) ∧
    ∀ name sub, (name, FieldFilter.relation sub) ∈ f.fields →
      (record.getOrNull name).related = [] → f.accepts record = .ok false := by
  have hleads : f.Leads record → f.accepts record = .ok true := by
    intro hlead
    rw [accepts_of_compile h, decides_of_leads h hlead]
  refine ⟨hleads, fun hflat => hleads (hflat.leads h record), fun name sub hentry hnothing => ?_⟩
  rw [accepts_of_compile h, decides_of_related_eq_nil hentry hnothing]

/-- Tagged posts that are open or have an author. -/
def taggedPosts : Filter :=
  .node [] [empty.compare "status" "eq" (.str "open"), empty.relation "author" empty]
    [("tags", .relation empty)]

/-- The alternative that asks for an author and no more does away with the other one. A post with a
tag and an author is accepted, and a post without tags is not. -/
theorem accepts_taggedPosts : taggedPosts.compile = .ok .always ∧
    taggedPosts.accepts
      (.obj [("author", .obj []), ("tags", .arr [.null, .obj [("label", .str "maps")]])]) =
        .ok true ∧
    taggedPosts.accepts (.obj [("author", .obj []), ("tags", .arr [])]) = .ok false := by
  have halways : taggedPosts.compile = .ok .always := rfl
  have hempty (record : Json) : empty.Leads record := by
    simp [empty, leads_node]
  have hauthor : (empty.relation "author" empty).Leads
      (.obj [("author", .obj []), ("tags", .arr [.null, .obj [("label", .str "maps")]])]) := by
    refine leads_node.2 ⟨by simp [empty, Filter.all], Or.inl rfl, ?_⟩
    exact List.forall_mem_singleton.2 ⟨_, List.mem_cons_self, rfl, hempty _⟩
  refine ⟨halways, (accepts_of_always halways _).1 (leads_node.2 ⟨by simp, ?_, ?_⟩),
    (accepts_of_always halways _).2.2 "tags" empty (by simp [taggedPosts, fields]) rfl⟩
  · exact Or.inr ⟨empty.relation "author" empty, by simp, Or.inl ⟨rfl, hauthor⟩⟩
  · exact List.forall_mem_singleton.2
      ⟨_, List.mem_cons_of_mem _ List.mem_cons_self, rfl, hempty _⟩

/-- Asking for an author and no more is no restriction, but not every record has one. -/
theorem accepts_without_author : (empty.relation "author" empty).compile = .ok .always ∧
    (empty.relation "author" empty).accepts (.obj []) = .ok false := ⟨rfl, rfl⟩

end EntityQuery.Filter
