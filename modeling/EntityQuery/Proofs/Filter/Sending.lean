import EntityQuery.Proofs.Filter.Deciding
import EntityQuery.Proofs.Filter.Surviving
import Mathlib.Data.List.Induction

/-!
# Sending filters that were built

A filter that is built by asking for one comparison after the other keeps all of them, field by
field in the order of asking (`built_eq`). Its written form has room for one comparison of each
operator on a field: of several the last one is written (`ofJson_toJson_listed`). So what is read
back asks for the comparisons that no later one overwrites (`lasting`), and it accepts what the
filter accepts as long as none was overwritten by a different one (`reread_accepts_lasting`).
-/

namespace EntityQuery.Filter

/-- A comparison that is asked of a field. -/
structure Request extends Comparison where
  field : String

/-- The filter that is built by asking for comparisons in order. -/
def built (requests : List Request) : Filter :=
  requests.foldl (fun f r => f.compare r.field r.operator r.operand) empty

theorem built_append (requests : List Request) (r : Request) :
    built (requests ++ [r]) = (built requests).compare r.field r.operator r.operand := by
  rw [built, List.foldl_append]
  rfl

/-! ## What is built -/

/-- The comparisons asked of a field, in order. -/
def askedOf (requests : List Request) (field : String) : List Comparison :=
  (requests.filter (·.field = field)).map (·.toComparison)

theorem askedOf_append (requests : List Request) (r : Request) (field : String) :
    askedOf (requests ++ [r]) field =
      if field = r.field then askedOf requests field ++ [r.toComparison]
      else askedOf requests field := by
  rw [askedOf, List.filter_append, List.map_append, ← askedOf]
  by_cases h : field = r.field
  · simp [h]
  · simp [h, Ne.symm h]

theorem mem_askedOf {requests : List Request} {field : String} {c : Comparison} :
    c ∈ askedOf requests field ↔ ∃ r ∈ requests, r.field = field ∧ r.toComparison = c := by
  simp [askedOf, and_assoc]

/-- The filter that has one entry of comparisons for each name. -/
def listed (names : List String) (lists : String → List Comparison) : Filter :=
  node [] [] (names.map fun name => (name, .comparisons (lists name)))

theorem addComparison_listed {field : String} {c : Comparison} {lists : String → List Comparison}
    {names : List String} (hnodup : names.Nodup) (hnew : field ∉ names → lists field = []) :
    addComparison field c (names.map fun name => (name, .comparisons (lists name))) =
      (if field ∈ names then names else names ++ [field]).map fun name =>
        (name, .comparisons (if name = field then lists name ++ [c] else lists name)) := by
  induction names with
  | nil => simp [addComparison, hnew]
  | cons name names ih =>
    have ⟨hname, hrest⟩ := List.nodup_cons.1 hnodup
    rw [List.map_cons, addComparison]
    by_cases heq : name = field
    · subst heq
      rw [if_pos rfl, if_pos List.mem_cons_self, List.map_cons, if_pos rfl]
      refine congrArg _ (List.map_congr_left fun other hother => ?_)
      have hother : other ≠ name := by
        rintro rfl
        exact hname hother
      rw [if_neg hother]
    · have hrestNew : field ∉ names → lists field = [] := by
        intro hnot
        refine hnew fun hmem => ?_
        rcases List.mem_cons.1 hmem with rfl | hmem
        · exact heq rfl
        · exact hnot hmem
      rw [if_neg heq, ih hrest hrestNew]
      by_cases hmem : field ∈ names
      · simp [hmem, heq]
      · simp [hmem, heq, Ne.symm heq]

/-- A built filter has an entry for each field that was asked for, with all comparisons asked of it
in order. -/
theorem built_eq (requests : List Request) :
    ∃ names : List String, names.Nodup ∧ (∀ name, name ∈ names ↔ ∃ r ∈ requests, r.field = name) ∧
      built requests = listed names (askedOf requests) := by
  induction requests using List.reverseRecOn with
  | nil => exact ⟨[], List.nodup_nil, by simp, rfl⟩
  | append_singleton requests r ih =>
    obtain ⟨names, hnodup, hnames, heq⟩ := ih
    refine ⟨if r.field ∈ names then names else names ++ [r.field], ?_, ?_, ?_⟩
    · split
      · exact hnodup
      · next hnot => exact List.nodup_append.2 ⟨hnodup, by simp, by grind⟩
    · intro name
      split
      · next hmem => grind
      · grind
    · have hnew : r.field ∉ names → askedOf requests r.field = [] := by
        intro hnot
        refine List.eq_nil_iff_forall_not_mem.2 fun c hc => ?_
        obtain ⟨s, hs, hfield, -⟩ := mem_askedOf.1 hc
        exact hnot ((hnames _).2 ⟨s, hs, hfield⟩)
      rw [built_append, heq, compare, listed, Filter.fields, addComparison_listed hnodup hnew,
        listed]
      refine congrArg _ (List.map_congr_left fun name _ => ?_)
      rw [askedOf_append]

/-! ## What is accepted -/

/-- The operator is known and the operand fits it. -/
def Valid (c : Comparison) : Prop :=
  ∃ op, Operator.ofName? c.operator = some op ∧ op.fault? c.operand = none

theorem Valid.isKnown {c : Comparison} (h : Valid c) : Operator.isKnown c.operator = true := by
  obtain ⟨op, hop, -⟩ := h
  rw [Operator.isKnown, hop, Option.isSome_some]

theorem accepts_listed {names : List String} {lists : String → List Comparison}
    (h : ∀ name ∈ names, ∀ c ∈ lists name, Valid c) (record : Json) :
    (listed names lists).accepts record = .ok (names.all fun name =>
      (lists name).all (decidesComparison · (record.getOrNull name))) := by
  have hcheck : (listed names lists).check = .ok () := by
    refine check_node_eq_ok.2 ⟨rfl, rfl, checkFields_eq_ok.2 ?_⟩
    rw [List.forall_mem_map]
    exact fun name hname => checkComparisons_eq_ok.2 (h name hname)
  rw [accepts_eq, hcheck, Answer.ok_bind, listed, decides_node, List.all_map]
  rfl

/-- A built filter accepts a record of which every comparison holds that was asked for. -/
theorem accepts_built {requests : List Request} (h : ∀ r ∈ requests, Valid r.toComparison)
    (record : Json) :
    (built requests).accepts record = .ok (requests.all fun r =>
      decidesComparison r.toComparison (record.getOrNull r.field)) := by
  obtain ⟨names, -, hnames, heq⟩ := built_eq requests
  have hvalid : ∀ name ∈ names, ∀ c ∈ askedOf requests name, Valid c := by
    intro name _ c hc
    obtain ⟨r, hr, -, rfl⟩ := mem_askedOf.1 hc
    exact h r hr
  rw [heq, accepts_listed hvalid]
  refine congrArg _ (Bool.eq_iff_iff.2 ?_)
  simp only [List.all_eq_true, mem_askedOf]
  constructor
  · intro hall r hr
    exact hall r.field ((hnames _).2 ⟨r, hr, rfl⟩) _ ⟨r, hr, rfl, rfl⟩
  · rintro hall name - c ⟨r, hr, rfl, rfl⟩
    exact hall r hr

/-! ## What is read back -/

/-- Of comparisons of one field, the last one of each operator, in the order of the operators. -/
def lastOfEach (list : List Comparison) : List Comparison :=
  comparisonsOf (Dict.ofEntries (pairs list))

theorem mem_lastOfEach {list : List Comparison} {c : Comparison} :
    c ∈ lastOfEach list ↔ Dict.get? (pairs list).reverse c.operator = some c.operand := by
  rw [← Dict.get?_ofEntries, ← Dict.mem_iff_get? (Dict.sorted_ofEntries _), lastOfEach,
    comparisonsOf, List.mem_map]
  constructor
  · rintro ⟨m, hm, rfl⟩
    exact hm
  · intro hm
    exact ⟨_, hm, rfl⟩

theorem readsEntry_lastOfEach (name : String) {list : List Comparison}
    (h : ∃ c ∈ list, Operator.isKnown c.operator = true) :
    ReadsEntry (name, .obj (Dict.ofEntries (pairs list)))
      (name, .comparisons (lastOfEach list)) := by
  obtain ⟨c, hc, hknown⟩ := h
  have hkey : c.operator ∈ Dict.keys (Dict.ofEntries (pairs list)) := by
    refine Dict.mem_keys_ofEntries.2 ?_
    exact List.mem_map.2 ⟨(c.operator, c.operand), List.mem_map_of_mem hc, rfl⟩
  obtain ⟨m, hm, hname⟩ := List.mem_map.1 hkey
  have hholds : holdsComparisons (Dict.ofEntries (pairs list)) = true := by
    refine holdsComparisons_iff.2 (Or.inl ⟨m, hm, ?_⟩)
    rw [hname]
    exact hknown
  refine ⟨rfl, entryOf_eq_ok.2 ⟨_, rfl, ?_⟩⟩
  rw [if_pos hholds]
  rfl

/-- What is read back of entries of comparisons: of each field the last comparison of each
operator. -/
theorem ofJson_toJson_listed {names : List String} {lists : String → List Comparison}
    (hgroup : ∀ name ∈ names, isGroup name = false)
    (hknown : ∀ name ∈ names, ∃ c ∈ lists name, Operator.isKnown c.operator = true) :
    ∃ names' : List String, (∀ name, name ∈ names' ↔ name ∈ names) ∧
      ofJson (listed names lists).toJson =
        .ok (listed names' fun name => lastOfEach (lists name)) := by
  have hentries : (listed names lists).members =
      Dict.ofEntries (names.map fun name =>
        (name, Json.obj (Dict.ofEntries (pairs (lists name))))) := by
    rw [listed, members, toMembers_eq_map, List.map_map]
    rfl
  have hkeys : ∀ name, name ∈ (listed names lists).members.keys ↔ name ∈ names := by
    intro name
    rw [hentries, Dict.mem_keys_ofEntries, List.map_map]
    exact iff_of_eq (congrArg (name ∈ ·) (List.map_id names))
  -- a member is known from its name
  have hmembers : (listed names lists).members = (listed names lists).members.keys.map fun name =>
      (name, Json.obj (Dict.ofEntries (pairs (lists name)))) := by
    rw [Dict.keys, List.map_map]
    refine ((List.map_congr_left fun m hm => ?_).trans (List.map_id _)).symm
    rw [hentries] at hm
    obtain ⟨name, -, rfl⟩ := List.mem_map.1 (Dict.mem_of_mem_ofEntries hm)
    rfl
  have hreads : List.Forall₂ ReadsEntry (listed names lists).members
      ((listed names lists).members.keys.map fun name =>
        (name, .comparisons (lastOfEach (lists name)))) := by
    have heach : List.Forall₂ ReadsEntry
        ((listed names lists).members.keys.map fun name =>
          (name, Json.obj (Dict.ofEntries (pairs (lists name)))))
        ((listed names lists).members.keys.map fun name =>
          (name, .comparisons (lastOfEach (lists name)))) := by
      rw [List.forall₂_map_left_iff, List.forall₂_map_right_iff]
      exact List.forall₂_same.2 fun name hname =>
        readsEntry_lastOfEach name (hknown name ((hkeys name).1 hname))
    rw [← hmembers] at heach
    exact heach
  have hnone : ∀ key ∈ (listed names lists).members.keys, isGroup key = false :=
    fun key hkey => hgroup key ((hkeys key).1 hkey)
  refine ⟨_, hkeys, ?_⟩
  rw [toJson_eq_obj, ofJson, ofMembers_eq_ok (sorted_members _), entriesOf_eq_self hnone]
  have hno : ∀ name, isGroup name = true → ReadsGroup (listed names lists).members name [] := by
    intro name hname
    refine (readsGroup_of_not_mem fun hmem => ?_).2 rfl
    rw [hnone name hmem] at hname
    cases hname
  exact ⟨hno "and" (by decide), hno "or" (by decide), hreads⟩

/-! ## Comparisons that last -/

/-- Whether two comparisons are asked of one field with one operator, as it is written. -/
def Request.collides (r s : Request) : Bool := r.field == s.field && r.operator == s.operator

theorem Request.collides_iff {r s : Request} :
    r.collides s = true ↔ r.field = s.field ∧ r.operator = s.operator := by
  simp [collides]

/-- The comparisons that no later one overwrites. -/
def lasting : List Request → List Request
  | [] => []
  | r :: later => if later.any r.collides then lasting later else r :: lasting later

theorem mem_of_mem_lasting {requests : List Request} {r : Request} (h : r ∈ lasting requests) :
    r ∈ requests := by
  induction requests with
  | nil => cases h
  | cons s later ih =>
    rw [lasting] at h
    split at h
    · exact List.mem_cons_of_mem _ (ih h)
    · rcases List.mem_cons.1 h with rfl | h
      · exact List.mem_cons_self
      · exact List.mem_cons_of_mem _ (ih h)

theorem askedOf_cons (s : Request) (later : List Request) (field : String) :
    askedOf (s :: later) field =
      if s.field = field then s.toComparison :: askedOf later field else askedOf later field := by
  by_cases h : s.field = field
  · simp [askedOf, h]
  · simp [askedOf, h]

theorem mem_keys_askedOf {requests : List Request} {field operator : String} :
    operator ∈ Dict.keys (pairs (askedOf requests field)).reverse ↔
      ∃ r ∈ requests, r.field = field ∧ r.operator = operator := by
  rw [Dict.keys, List.map_reverse, List.mem_reverse, ← Dict.keys, keys_pairs, List.mem_map]
  simp only [mem_askedOf]
  constructor
  · rintro ⟨c, ⟨r, hr, hfield, rfl⟩, hoperator⟩
    exact ⟨r, hr, hfield, hoperator⟩
  · rintro ⟨r, hr, hfield, hoperator⟩
    exact ⟨_, ⟨r, hr, hfield, rfl⟩, hoperator⟩

theorem get?_askedOf_cons (s : Request) (later : List Request) (r : Request) :
    Dict.get? (pairs (askedOf (s :: later) r.field)).reverse r.operator =
      (Dict.get? (pairs (askedOf later r.field)).reverse r.operator).or
        (if r.collides s then some s.operand else none) := by
  rw [askedOf_cons]
  by_cases hfield : s.field = r.field
  · have hcollides : r.collides s = true ↔ r.operator = s.operator := by
      rw [Request.collides_iff, hfield]
      exact and_iff_right rfl
    rw [if_pos hfield]
    refine (Dict.get?_reverse_cons _ _ _ _).trans ?_
    simp only [hcollides]
    rfl
  · have hcollides : ¬r.collides s = true := fun h =>
      hfield (Request.collides_iff.1 h).1.symm
    rw [if_neg hfield, if_neg hcollides, Option.or_none]

/-- A comparison lasts when it is the last of its field and operator. -/
theorem mem_lasting_iff {requests : List Request} {r : Request} :
    r ∈ lasting requests ↔ r.toComparison ∈ lastOfEach (askedOf requests r.field) := by
  rw [mem_lastOfEach]
  induction requests with
  | nil => simp [lasting, askedOf, pairs]
  | cons s later ih =>
    rw [lasting, get?_askedOf_cons]
    by_cases hcollides : r.collides s = true
    · obtain ⟨hfield, hoperator⟩ := Request.collides_iff.1 hcollides
      split
      · next hlater =>
        -- a later one is found in the place of both
        obtain ⟨t, ht, hst⟩ := List.any_eq_true.1 hlater
        obtain ⟨hfield', hoperator'⟩ := Request.collides_iff.1 hst
        obtain ⟨value, hvalue⟩ := Dict.exists_get?_of_mem_keys (mem_keys_askedOf.2
          ⟨t, ht, (hfield.trans hfield').symm, (hoperator.trans hoperator').symm⟩)
        rw [ih, hvalue, Option.some_or]
      · next hlater =>
        have hnone : Dict.get? (pairs (askedOf later r.field)).reverse r.operator = none := by
          refine Dict.get?_eq_none fun hmem => hlater ?_
          obtain ⟨t, ht, hfield', hoperator'⟩ := mem_keys_askedOf.1 hmem
          refine List.any_eq_true.2 ⟨t, ht, Request.collides_iff.2 ⟨?_, ?_⟩⟩
          · rw [← hfield, hfield']
          · rw [← hoperator, hoperator']
        rw [List.mem_cons, ih, hnone, Option.none_or]
        obtain ⟨⟨operator, operand⟩, field⟩ := r
        obtain ⟨⟨operator', operand'⟩, field'⟩ := s
        obtain rfl : field = field' := hfield
        obtain rfl : operator = operator' := hoperator
        simp [eq_comm]
    · have hne : r ≠ s := by
        rintro rfl
        exact hcollides (Request.collides_iff.2 ⟨rfl, rfl⟩)
      rw [if_neg hcollides, Option.or_none, ← ih]
      split
      · rfl
      · rw [List.mem_cons, or_iff_right hne]

/-! ## Reading back what was sent -/

/-- A comparison that may be asked for: of a field that is not named like a group, with a known
operator and an operand that fits it. -/
def Request.Fits (r : Request) : Prop :=
  r.field ≠ "and" ∧ r.field ≠ "or" ∧ Valid r.toComparison

/-- What is read back of a built filter accepts what the comparisons accept that last. -/
theorem exists_reread {requests : List Request} (h : ∀ r ∈ requests, r.Fits) :
    ∃ g, ofJson (built requests).toJson = .ok g ∧
      ∀ record, g.accepts record = .ok ((lasting requests).all fun r =>
        decidesComparison r.toComparison (record.getOrNull r.field)) := by
  obtain ⟨names, -, hnames, heq⟩ := built_eq requests
  have hgroup : ∀ name ∈ names, isGroup name = false := by
    intro name hname
    obtain ⟨r, hr, rfl⟩ := (hnames name).1 hname
    exact isGroup_eq_false.2 ⟨(h r hr).1, (h r hr).2.1⟩
  have hknown : ∀ name ∈ names,
      ∃ c ∈ askedOf requests name, Operator.isKnown c.operator = true := by
    intro name hname
    obtain ⟨r, hr, hfield⟩ := (hnames name).1 hname
    exact ⟨r.toComparison, mem_askedOf.2 ⟨r, hr, hfield, rfl⟩, (h r hr).2.2.isKnown⟩
  obtain ⟨names', hnames', hread⟩ := ofJson_toJson_listed hgroup hknown
  rw [← heq] at hread
  -- what lasts of a field is what is read back of it
  have hlast : ∀ name c, c ∈ lastOfEach (askedOf requests name) →
      ∃ r ∈ lasting requests, r.field = name ∧ r.toComparison = c := by
    intro name c hc
    exact ⟨⟨c, name⟩, mem_lasting_iff.2 hc, rfl, rfl⟩
  have hvalid : ∀ name ∈ names', ∀ c ∈ lastOfEach (askedOf requests name), Valid c := by
    intro name _ c hc
    obtain ⟨r, hr, -, rfl⟩ := hlast name c hc
    exact (h r (mem_of_mem_lasting hr)).2.2
  refine ⟨_, hread, fun record => ?_⟩
  rw [accepts_listed hvalid]
  refine congrArg _ (Bool.eq_iff_iff.2 ?_)
  simp only [List.all_eq_true]
  constructor
  · intro hall r hr
    have hname : r.field ∈ names' :=
      (hnames' _).2 ((hnames _).2 ⟨r, mem_of_mem_lasting hr, rfl⟩)
    exact hall r.field hname _ (mem_lasting_iff.1 hr)
  · intro hall name _ c hc
    obtain ⟨r, hr, rfl, rfl⟩ := hlast name c hc
    exact hall r hr

/-- A comparison lasts, or a later one of its field and operator does. -/
theorem exists_lasting {requests : List Request} {r : Request} (h : r ∈ requests) :
    ∃ s ∈ lasting requests, r.field = s.field ∧ r.operator = s.operator := by
  have hkey := mem_keys_askedOf.2 ⟨r, h, rfl, rfl⟩
  obtain ⟨operand, hoperand⟩ := Dict.exists_get?_of_mem_keys hkey
  exact ⟨⟨⟨r.operator, operand⟩, r.field⟩, mem_lasting_iff.2 (mem_lastOfEach.2 hoperand), rfl, rfl⟩

/-- **What is read back of a built filter.** The filter that is built by asking for comparisons is
written and read back without an error. What is read back accepts what the comparisons accept that
no later one overwrites, so every record that was accepted. It accepts the same records if no field
was asked with one operator, as it is written, for two different operands. -/
theorem reread_accepts_lasting (requests : List Request) (h : ∀ r ∈ requests, r.Fits) :
    ∃ g, ofJson (built requests).toJson = .ok g ∧
      (∀ record, ∃ verdict, g.accepts record = .ok verdict ∧
        (built (lasting requests)).accepts record = .ok verdict) ∧
      (∀ record, (built requests).accepts record = .ok true → g.accepts record = .ok true) ∧
      ((∀ r ∈ requests, ∀ s ∈ requests,
          r.field = s.field → r.operator = s.operator → r.operand = s.operand) →
        ∀ record, g.accepts record = (built requests).accepts record) := by
  obtain ⟨g, hread, hg⟩ := exists_reread h
  have hvalid : ∀ r ∈ requests, Valid r.toComparison := fun r hr => (h r hr).2.2
  have hlasting : ∀ r ∈ lasting requests, Valid r.toComparison :=
    fun r hr => hvalid r (mem_of_mem_lasting hr)
  refine ⟨g, hread, ?_, ?_, ?_⟩
  · intro record
    exact ⟨_, hg record, accepts_built hlasting record⟩
  · intro record haccepts
    rw [accepts_built hvalid, Except.ok.injEq, List.all_eq_true] at haccepts
    rw [hg, Except.ok.injEq, List.all_eq_true]
    exact fun r hr => haccepts r (mem_of_mem_lasting hr)
  · intro hcoherent record
    have hmem : ∀ r, r ∈ lasting requests ↔ r ∈ requests := by
      intro r
      refine ⟨mem_of_mem_lasting, fun hr => ?_⟩
      obtain ⟨s, hs, hfield, hoperator⟩ := exists_lasting hr
      have hoperand := hcoherent r hr s (mem_of_mem_lasting hs) hfield hoperator
      obtain ⟨⟨operator, operand⟩, field⟩ := r
      obtain rfl : field = s.field := hfield
      obtain rfl : operator = s.operator := hoperator
      obtain rfl : operand = s.operand := hoperand
      exact hs
    rw [hg, accepts_built hvalid]
    refine congrArg _ (Bool.eq_iff_iff.2 ?_)
    simp only [List.all_eq_true, hmem]

/-- A status that is excluded twice, and one that is excluded in capitals. -/
def neitherDraftNorClosed : List Request :=
  [⟨⟨"neq", .str "draft"⟩, "status"⟩, ⟨⟨"NEQ", .str "closed"⟩, "status"⟩,
    ⟨⟨"neq", .str "draft"⟩, "status"⟩]

/-- The same operator in other letters overwrites nothing, the same operand changes nothing. -/
theorem reread_neitherDraftNorClosed :
    (∀ r ∈ neitherDraftNorClosed, r.Fits) ∧
    ∃ g, ofJson (built neitherDraftNorClosed).toJson = .ok g ∧
      (∀ record, g.accepts record = (built neitherDraftNorClosed).accepts record) ∧
      g.accepts (.obj [("status", .str "draft")]) = .ok false ∧
      g.accepts (.obj [("status", .str "closed")]) = .ok false ∧
      g.accepts (.obj [("status", .str "open")]) = .ok true := by
  have hlower : Operator.ofName? "neq" = some .neq := by decide
  have hupper : Operator.ofName? "NEQ" = some .neq := by decide
  have hdraft : Valid ⟨"neq", .str "draft"⟩ := ⟨.neq, hlower, rfl⟩
  have hclosed : Valid ⟨"NEQ", .str "closed"⟩ := ⟨.neq, hupper, rfl⟩
  have hfits : ∀ r ∈ neitherDraftNorClosed, r.Fits := by
    simp only [neitherDraftNorClosed, List.forall_mem_cons]
    exact ⟨⟨by decide, by decide, hdraft⟩, ⟨by decide, by decide, hclosed⟩,
      ⟨by decide, by decide, hdraft⟩, nofun⟩
  obtain ⟨g, hread, -, -, hsame⟩ := reread_accepts_lasting _ hfits
  have hsame := hsame (by simp [neitherDraftNorClosed])
  refine ⟨hfits, g, hread, hsame, ?_, ?_, ?_⟩
  · exact hsame _
  · exact hsame _
  · exact hsame _

/-- A status that is asked to be two things at once. -/
def bothOpenAndClosed : List Request :=
  [⟨⟨"eq", .str "open"⟩, "status"⟩, ⟨⟨"eq", .str "closed"⟩, "status"⟩]

/-- Of two operands for one operator only the later one is sent: nothing is both open and closed,
but what is read back accepts what is closed. -/
theorem reread_bothOpenAndClosed :
    (∀ r ∈ bothOpenAndClosed, r.Fits) ∧
    ∃ g, ofJson (built bothOpenAndClosed).toJson = .ok g ∧
      (built bothOpenAndClosed).accepts (.obj [("status", .str "closed")]) = .ok false ∧
      g.accepts (.obj [("status", .str "closed")]) = .ok true := by
  have hname : Operator.ofName? "eq" = some .eq := by decide
  have hopen : Valid ⟨"eq", .str "open"⟩ := ⟨.eq, hname, rfl⟩
  have hclosed : Valid ⟨"eq", .str "closed"⟩ := ⟨.eq, hname, rfl⟩
  refine ⟨?_, _, rfl, rfl, rfl⟩
  simp only [bothOpenAndClosed, List.forall_mem_cons]
  exact ⟨⟨by decide, by decide, hopen⟩, ⟨by decide, by decide, hclosed⟩, nofun⟩

end EntityQuery.Filter
