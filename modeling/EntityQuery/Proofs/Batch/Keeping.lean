import EntityQuery.Proofs.Batch.Making
import EntityQuery.Proofs.Batch.Settling

/-!
# The rows that a batch keeps

The rows of a batch are held under the texts of the sources' keys. They are all there exactly when
these texts are pairwise different; of sources with one text the last keeps its rows and the others
lose theirs (`loadRelation_keeps`). Different keys may have one text: `1` and `"1"` do, and so do
two lists of texts with a bar at different places (`loadRelation_overwrites`). Key values that are
of one kind column by column, and have bars in the last column at most, are told apart by their
texts (`Record.keyText_injective`).
-/

namespace EntityQuery

/-! ## Texts of keys -/

/-- Both values are texts, or whole numbers, or truth values. -/
inductive Json.Alike : Json → Json → Prop
  | str (s t : String) : Alike (.str s) (.str t)
  | int (m n : Int) : Alike (.int m) (.int n)
  | bool (a b : Bool) : Alike (.bool a) (.bool b)

namespace Json

theorem toList_plainText_ofNat (k : Nat) :
    (int (.ofNat k)).plainText.toList = Nat.toDigits 10 k := by
  show (String.ofList (Nat.toDigits 10 k)).toList = _
  rw [String.toList_ofList]

theorem toList_plainText_negSucc (k : Nat) :
    (int (.negSucc k)).plainText.toList = '-' :: Nat.toDigits 10 (k + 1) := by
  show ("-" ++ String.ofList (Nat.toDigits 10 (k + 1))).toList = _
  rw [String.toList_append, String.toList_ofList, String.toList_ofList, List.singleton_append]

theorem notMem_toDigits {c : Char} (hc : c.isDigit = false) (k : Nat) : c ∉ Nat.toDigits 10 k := by
  intro hk
  have hdigit : c.isDigit = true := Nat.isDigit_of_mem_toDigits (by decide) (by decide) hk
  rw [hc] at hdigit
  cases hdigit

theorem eq_of_plainText_int {m n : Int} (h : (int m).plainText = (int n).plainText) : m = n := by
  have hdigits : ∀ a b, Nat.toDigits 10 a = Nat.toDigits 10 b → a = b := by
    intro a b hab
    rw [← Nat.ofDigitChars_ten_toDigits (n := a), hab, Nat.ofDigitChars_ten_toDigits]
  have hsign : ∀ a b, Nat.toDigits 10 a ≠ '-' :: b := by
    intro a b hab
    exact notMem_toDigits (c := '-') rfl a (hab ▸ List.mem_cons_self)
  have hchars := congrArg String.toList h
  cases m with
  | ofNat a =>
    cases n with
    | ofNat b =>
      rw [toList_plainText_ofNat, toList_plainText_ofNat] at hchars
      rw [hdigits a b hchars]
    | negSucc b =>
      rw [toList_plainText_ofNat, toList_plainText_negSucc] at hchars
      exact absurd hchars (hsign _ _)
  | negSucc a =>
    cases n with
    | ofNat b =>
      rw [toList_plainText_ofNat, toList_plainText_negSucc] at hchars
      exact absurd hchars.symm (hsign _ _)
    | negSucc b =>
      rw [toList_plainText_negSucc, toList_plainText_negSucc] at hchars
      rw [Nat.succ.inj (hdigits _ _ (List.tail_eq_of_cons_eq hchars))]

theorem bar_notMem_plainText_int (n : Int) : '|' ∉ (int n).plainText.toList := by
  cases n with
  | ofNat k =>
    rw [toList_plainText_ofNat]
    exact notMem_toDigits rfl k
  | negSucc k =>
    rw [toList_plainText_negSucc, List.mem_cons]
    rintro (hsign | hdigits)
    · cases hsign
    · exact notMem_toDigits rfl _ hdigits

theorem Alike.eq_of_plainText {x y : Json} (h : x.Alike y) (htext : x.plainText = y.plainText) :
    x = y := by
  cases h with
  | str s t =>
    have hst : s = t := htext
    rw [hst]
  | int m n => rw [eq_of_plainText_int htext]
  | bool a b => cases a <;> cases b <;> first | rfl | exact absurd htext (by decide)

theorem Alike.symm {x y : Json} (h : x.Alike y) : y.Alike x := by
  cases h <;> constructor

/-- Only a text may have a bar in its text. -/
theorem Alike.bar_notMem {x y : Json} (h : x.Alike y)
    (hbar : ∀ text, x = .str text → '|' ∉ text.toList) : '|' ∉ x.plainText.toList := by
  cases h with
  | str s t => exact hbar s rfl
  | int m n => exact bar_notMem_plainText_int m
  | bool a b => cases a <;> decide

end Json

namespace Record

theorem toList_keyText_cons (x y : Json) (rest : List Json) :
    (keyText (x :: y :: rest)).toList =
      x.plainText.toList ++ '|' :: (keyText (y :: rest)).toList := by
  rw [keyText, List.map_cons, List.map_cons, String.intercalate_cons_cons, String.toList_append,
    String.toList_append, List.append_assoc]
  rfl

/-- What stands before the first bar is found again. -/
theorem eq_of_bar {xs ys before after : List Char} (hxs : '|' ∉ xs) (hbefore : '|' ∉ before)
    (h : xs ++ '|' :: ys = before ++ '|' :: after) : xs = before ∧ ys = after := by
  induction xs generalizing before with
  | nil =>
    cases before with
    | nil => exact ⟨rfl, List.tail_eq_of_cons_eq h⟩
    | cons c before => exact absurd (List.head_eq_of_cons_eq h ▸ List.mem_cons_self) hbefore
  | cons x xs ih =>
    cases before with
    | nil => exact absurd (List.head_eq_of_cons_eq h ▸ List.mem_cons_self) hxs
    | cons c before =>
      have htail : xs ++ '|' :: ys = before ++ '|' :: after := List.tail_eq_of_cons_eq h
      obtain ⟨rfl, rfl⟩ := ih (fun hmem => hxs (List.mem_cons_of_mem _ hmem))
        (fun hmem => hbefore (List.mem_cons_of_mem _ hmem)) htail
      exact ⟨by rw [List.head_eq_of_cons_eq h], rfl⟩

/-- Key values of one kind column by column, with bars in the last column at most. -/
structure WrittenAlike (xs ys : List Json) : Prop where
  alike : List.Forall₂ Json.Alike xs ys
  barless : ∀ text, .str text ∈ xs.dropLast ++ ys.dropLast → '|' ∉ text.toList

theorem keyText_injective {xs ys : List Json} (h : WrittenAlike xs ys)
    (htext : keyText xs = keyText ys) : xs = ys := by
  obtain ⟨halike, hbarless⟩ := h
  induction halike with
  | nil => rfl
  | @cons x y xs ys hxy hrest ih =>
    cases hrest with
    | nil => rw [hxy.eq_of_plainText htext]
    | @cons x' y' xs ys hxy' hrest =>
      have hx : '|' ∉ x.plainText.toList := by
        refine hxy.bar_notMem ?_
        rintro text rfl
        exact hbarless text (List.mem_append_left _ List.mem_cons_self)
      have hy : '|' ∉ y.plainText.toList := by
        refine hxy.symm.bar_notMem ?_
        rintro text rfl
        exact hbarless text (List.mem_append_right _ List.mem_cons_self)
      -- further values follow, so the first bar of either text ends its first value
      have hchars := congrArg String.toList htext
      rw [toList_keyText_cons, toList_keyText_cons] at hchars
      obtain ⟨hfirst, hlast⟩ := eq_of_bar hx hy hchars
      have hlater : ∀ text, .str text ∈ (x' :: xs).dropLast ++ (y' :: ys).dropLast →
          '|' ∉ text.toList := by
        intro text hmem
        refine hbarless text ?_
        rcases List.mem_append.1 hmem with hmem | hmem
        · exact List.mem_append_left _ (List.mem_cons_of_mem _ hmem)
        · exact List.mem_append_right _ (List.mem_cons_of_mem _ hmem)
      rw [hxy.eq_of_plainText (String.toList_injective hfirst),
        ih (String.toList_injective hlast) hlater]

end Record

/-! ## What is kept -/

namespace Batch

variable {α : Type} {relation : String} {jobs : List (Job α)} {execute : α → Outcome}
  {d : Dict (List Row)}

/-- A result keeps the rows of all jobs: it has an entry for every job, and holds under its key the
rows that its own selection gave. -/
structure Keeps (jobs : List (Job α)) (execute : α → Outcome) (d : Dict (List Row)) : Prop where
  length_eq : d.length = jobs.length
  get?_key : ∀ job ∈ jobs, ∃ rows, execute job.selection = .rows rows ∧
    Dict.get? d job.key = some rows

theorem get?_last (hrows : ∀ job ∈ jobs, ∃ rows, execute job.selection = .rows rows)
    (h : settle relation (jobs.map fun job => (job.key, execute job.selection)) = .ok d)
    {before after : List (Job α)} {job : Job α} (hsplit : jobs = before ++ job :: after)
    (hlast : ∀ later ∈ after, later.key ≠ job.key) :
    ∃ rows, execute job.selection = .rows rows ∧ Dict.get? d job.key = some rows := by
  subst hsplit
  obtain ⟨rows, hjob⟩ := hrows job (by simp)
  have hended : (before ++ job :: after).map (fun job => (job.key, execute job.selection)) =
      before.map (fun job => (job.key, execute job.selection)) ++
        (job.key, .rows rows) :: after.map fun job => (job.key, execute job.selection) := by
    rw [List.map_append, List.map_cons, hjob]
  refine ⟨rows, hjob, (get?_settle h).2 ⟨_, _, hended, ?_⟩⟩
  intro later hlater
  obtain ⟨other, hother, rfl⟩ := List.mem_map.1 hlater
  exact hlast other hother

theorem keeps_iff (hrows : ∀ job ∈ jobs, ∃ rows, execute job.selection = .rows rows)
    (h : settle relation (jobs.map fun job => (job.key, execute job.selection)) = .ok d) :
    Keeps jobs execute d ↔ (jobs.map (·.key)).Nodup := by
  have hlength := length_settle h
  rw [List.length_map, List.map_map] at hlength
  constructor
  · intro hkeeps
    exact hlength.1 hkeeps.length_eq
  · intro hnodup
    refine ⟨hlength.2 hnodup, fun job hjob => ?_⟩
    obtain ⟨before, after, hsplit⟩ := List.append_of_mem hjob
    refine get?_last hrows h hsplit fun later hlater heq => ?_
    rw [hsplit, List.map_append, List.map_cons] at hnodup
    have hcons := (List.nodup_append.1 hnodup).2.1
    exact (List.nodup_cons.1 hcons).1 (heq ▸ List.mem_map_of_mem hlater)

end Batch

namespace Schema

variable {schema : Schema} {entity relation : String} {sources : List Json} {query : Query}
  {jobs : List (Job Selection)}

theorem exists_keyed (h : schema.relationJobs entity sources relation query = .ok jobs) :
    ∃ keys keyed, schema.primaryKeys entity = .ok keys ∧
      List.Forall₂ (fun source values => Record.keyValues source entity keys = .ok values)
        sources keyed ∧
      jobs.map (·.key) = keyed.map Record.keyText := by
  obtain ⟨keys, hkeys, heach⟩ := forall₂_relationJobs h
  clear h
  induction heach with
  | nil => exact ⟨keys, [], hkeys, .nil, rfl⟩
  | cons hjob _ ih =>
    obtain ⟨keys', keyed, hkeys', heach, htexts⟩ := ih
    cases hkeys.symm.trans hkeys'
    obtain ⟨values, hvalues, hkey⟩ := hjob
    refine ⟨keys, values :: keyed, hkeys, .cons hvalues heach, ?_⟩
    rw [List.map_cons, List.map_cons, hkey, htexts]

/-- **A batch keeps the rows of all sources whose keys are told apart by their texts.** When every
call gives rows, the result has those of the last source with a key text; it has those of all
sources exactly when no two have one key text, as is the case for pairwise different keys that are
of one kind column by column and have bars in the last column at most. -/
theorem loadRelation_keeps (execute : Selection → Outcome)
    (hjobs : schema.relationJobs entity sources relation query = .ok jobs)
    (hrows : ∀ job ∈ jobs, ∃ rows, execute job.selection = .rows rows) :
    ∃ keys keyed d, schema.primaryKeys entity = .ok keys ∧
      List.Forall₂ (fun source values => Record.keyValues source entity keys = .ok values)
        sources keyed ∧
      jobs.map (·.key) = keyed.map Record.keyText ∧
      (schema.loadRelation entity sources relation query execute).result = .ok d ∧
      (∀ before job after, jobs = before ++ job :: after →
        (∀ later ∈ after, later.key ≠ job.key) →
        ∃ rows, execute job.selection = .rows rows ∧ Dict.get? d job.key = some rows) ∧
      (Batch.Keeps jobs execute d ↔ (keyed.map Record.keyText).Nodup) ∧
      (keyed.Pairwise (fun xs ys => xs ≠ ys ∧ Record.WrittenAlike xs ys) →
        Batch.Keeps jobs execute d) := by
  obtain ⟨keys, keyed, hkeys, heach, htexts⟩ := exists_keyed hjobs
  have hended : ∀ ended ∈ jobs.map (fun job => (job.key, execute job.selection)),
      ∃ rows, ended.2 = .rows rows := by
    intro ended hmem
    obtain ⟨job, hjob, rfl⟩ := List.mem_map.1 hmem
    exact hrows job hjob
  obtain ⟨entries, hentries⟩ := Batch.exists_entries hended
  have hsettle : Batch.settle relation (jobs.map fun job => (job.key, execute job.selection)) =
      .ok (Dict.ofEntries entries) := by
    rw [hentries]
    exact Batch.settle_rows entries
  have hresult : (schema.loadRelation entity sources relation query execute).result =
      .ok (Dict.ofEntries entries) := by
    rw [loadRelation, hjobs]
    exact hsettle
  have hkeeps : Batch.Keeps jobs execute (Dict.ofEntries entries) ↔
      (keyed.map Record.keyText).Nodup := by
    rw [← htexts]
    exact Batch.keeps_iff hrows hsettle
  refine ⟨keys, keyed, _, hkeys, heach, htexts, hresult, ?_, hkeeps, fun hpairwise => ?_⟩
  · intro before job after hsplit hlast
    exact Batch.get?_last hrows hsettle hsplit hlast
  · refine hkeeps.2 ((List.pairwise_map.2 (hpairwise.imp ?_)))
    rintro xs ys ⟨hne, halike⟩ htext
    exact hne (Record.keyText_injective halike htext)

/-- Gives one row for every value that a selection compares. -/
def valueRows (selection : Selection) : Outcome :=
  .rows (selection.predicate.leaves.map fun leaf => [("value", leaf.value)])

/-- Two orders of a shop are kept apart. -/
theorem loadRelation_keeps_orders : ∃ jobs d,
    shops.relationJobs "Order" [seventhOrder, eighthOrder] "lines" {} = .ok jobs ∧
    (shops.loadRelation "Order" [seventhOrder, eighthOrder] "lines" {} valueRows).result = .ok d ∧
    Batch.Keeps jobs valueRows d := by
  obtain ⟨jobs, hjobs⟩ : ∃ jobs,
      shops.relationJobs "Order" [seventhOrder, eighthOrder] "lines" {} = .ok jobs := ⟨_, rfl⟩
  obtain ⟨keys, keyed, d, hkeys, heach, -, hresult, -, -, hkeeps⟩ :=
    loadRelation_keeps valueRows hjobs fun job _ => ⟨_, rfl⟩
  refine ⟨jobs, d, hjobs, hresult, hkeeps ?_⟩
  cases hkeys
  cases heach with
  | cons hseventh hrest =>
    cases hrest with
    | cons heighth hrest =>
      cases hrest
      cases hseventh
      cases heighth
      refine List.pairwise_pair.2 ⟨?_, .cons (.str _ _) (.cons (.int _ _) .nil), ?_⟩
      · intro h
        cases h
      · intro text htext
        simp only [List.dropLast, List.cons_append, List.nil_append, List.mem_cons,
          Json.str.injEq, List.not_mem_nil, or_false, or_self] at htext
        rw [htext]
        decide

/-- The order that the shop `a|1` numbers `2`, and the order that the shop `a` numbers `1|2`. -/
def barredOrders : Json × Json :=
  (.obj [("number", .str "2"), ("shop", .str "a|1")],
   .obj [("number", .str "1|2"), ("shop", .str "a")])

/-- Their keys are different but have one text, under which the rows of the second are found. -/
theorem loadRelation_overwrites : ∃ first second firstJob secondJob d rows,
    Record.keyValues barredOrders.1 "Order" ["shop", "number"] = .ok first ∧
    Record.keyValues barredOrders.2 "Order" ["shop", "number"] = .ok second ∧
    first ≠ second ∧ Record.keyText first = Record.keyText second ∧
    shops.relationJobs "Order" [barredOrders.1, barredOrders.2] "lines" {} =
      .ok [firstJob, secondJob] ∧
    (shops.loadRelation "Order" [barredOrders.1, barredOrders.2] "lines" {} valueRows).result =
      .ok d ∧
    d.length = 1 ∧ valueRows firstJob.selection = .rows rows ∧
    Dict.get? d (Record.keyText first) ≠ some rows := by
  have hshops : "a|1" ≠ "a" := by decide
  refine ⟨_, _, _, _, _, _, rfl, rfl, ?_, by decide, rfl, rfl, rfl, rfl, ?_⟩
  · intro h
    exact hshops (Json.str.inj (List.head_eq_of_cons_eq h))
  · intro h
    have hrows : [[("value", Json.str "a")], [("value", .str "1|2")]] =
        [[("value", .str "a|1")], [("value", .str "2")]] := Option.some.inj h
    simp [hshops.symm] at hrows

end Schema

end EntityQuery
