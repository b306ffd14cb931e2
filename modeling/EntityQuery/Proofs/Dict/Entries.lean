import EntityQuery.Dict.Lemmas
import Mathlib.Data.List.Dedup
import Mathlib.Data.List.Perm.Subperm
import Mathlib.Tactic.Tauto

/-!
# The entries of a dictionary

A dictionary written from entries has their keys (`mem_keys_ofEntries`) and no entry that was not
among them (`mem_of_mem_ofEntries`); what it holds under a key is the last of them
(`get?_ofEntries_eq_some`), and it loses none exactly when their keys are pairwise different
(`length_ofEntries_eq_iff`, `perm_ofEntries`); their order does not matter then
(`ofEntries_of_perm`). In key order, to be an entry is to be found under its key
(`mem_iff_get?`), also among those that are left of a selection by keys (`get?_filter`).
-/

namespace EntityQuery.Dict

universe u

variable {α : Type u}

theorem exists_get?_of_mem_keys {d : Dict α} {key : String} (h : key ∈ d.keys) :
    ∃ value, get? d key = some value := by
  induction d with
  | nil => cases h
  | cons entry d ih =>
    obtain ⟨k, v⟩ := entry
    rw [get?_cons]
    split
    · exact ⟨v, rfl⟩
    · next hne => exact ih ((List.mem_cons.1 h).resolve_left hne)

theorem mem_keys_insert {d : Dict α} {key : String} {value : α} {k : String} :
    k ∈ (insert d key value).keys ↔ k = key ∨ k ∈ d.keys :=
  mem_keys_alter key _ d k

theorem mem_of_mem_insert {d : Dict α} {key : String} {value : α} {entry : String × α}
    (h : entry ∈ insert d key value) : entry = (key, value) ∨ entry ∈ d := by
  unfold insert at h
  induction d with
  | nil => exact Or.inl (List.mem_singleton.1 h)
  | cons first d ih =>
    obtain ⟨k, v⟩ := first
    rw [alter] at h
    split at h
    · exact List.mem_cons.1 h
    · split at h
      · next hkey =>
        subst hkey
        rcases List.mem_cons.1 h with rfl | h
        · exact Or.inl rfl
        · exact Or.inr (List.mem_cons_of_mem _ h)
      · rcases List.mem_cons.1 h with rfl | h
        · exact Or.inr List.mem_cons_self
        · exact (ih h).imp_right (List.mem_cons_of_mem _)

theorem mem_of_mem_ofEntries {entries : List (String × α)} {entry : String × α}
    (h : entry ∈ ofEntries entries) : entry ∈ entries := by
  have hall : ∀ e ∈ ofEntries entries, e ∈ entries := by
    refine List.foldlRecOn (motive := fun d => ∀ e ∈ d, e ∈ entries) entries _ (by simp)
      fun d hd entry hentry e he => ?_
    rcases mem_of_mem_insert he with rfl | he
    · exact hentry
    · exact hd e he
  exact hall entry h

theorem mem_keys_ofEntries {entries : List (String × α)} {k : String} :
    k ∈ (ofEntries entries).keys ↔ k ∈ entries.map Prod.fst := by
  have hfold : ∀ (rest : List (String × α)) (d : Dict α),
      k ∈ (rest.foldl (fun d entry => insert d entry.1 entry.2) d).keys ↔
        k ∈ d.keys ∨ k ∈ rest.map Prod.fst := by
    intro rest
    induction rest with
    | nil => simp
    | cons entry rest ih =>
      intro d
      rw [List.foldl_cons, ih, mem_keys_insert, List.map_cons, List.mem_cons]
      tauto
  rw [ofEntries, hfold]
  simp [keys]

theorem ofEntries_concat (entries : List (String × α)) (key : String) (value : α) :
    ofEntries (entries ++ [(key, value)]) = insert (ofEntries entries) key value := by
  rw [ofEntries, List.foldl_append]
  rfl

theorem get?_ofEntries_eq_some {entries : List (String × α)} {key : String} {value : α} :
    get? (ofEntries entries) key = some value ↔
      ∃ before after, entries = before ++ (key, value) :: after ∧
        ∀ entry ∈ after, entry.1 ≠ key := by
  rw [get?_ofEntries, get?, List.lookup_eq_some_iff]
  constructor
  · rintro ⟨later, earlier, hsplit, hlater⟩
    refine ⟨earlier.reverse, later.reverse, ?_, fun entry hentry => ?_⟩
    · simpa using congrArg List.reverse hsplit
    · exact (bne_iff_ne.1 (hlater entry (List.mem_reverse.1 hentry))).symm
  · rintro ⟨before, after, rfl, hafter⟩
    refine ⟨after.reverse, before.reverse, by simp, fun entry hentry => ?_⟩
    exact bne_iff_ne.2 (hafter entry (List.mem_reverse.1 hentry)).symm

/-- Keys in order are pairwise different. -/
theorem nodup_keys {d : Dict α} (h : Sorted d) : d.keys.Nodup := by
  refine List.Pairwise.imp (fun {a b} hlt => ?_) h
  rintro rfl
  exact String.lt_irrefl _ hlt

/-- Nothing is overwritten exactly when no key is repeated. -/
theorem length_ofEntries_eq_iff {entries : List (String × α)} :
    (ofEntries entries).length = entries.length ↔ (entries.map Prod.fst).Nodup := by
  have hperm : (ofEntries entries).keys.Perm (entries.map Prod.fst).dedup := by
    rw [List.perm_ext_iff_of_nodup (nodup_keys (sorted_ofEntries entries)) (List.nodup_dedup _)]
    intro key
    rw [mem_keys_ofEntries, List.mem_dedup]
  have hlength : (ofEntries entries).length = (entries.map Prod.fst).dedup.length := by
    rw [← hperm.length_eq, keys, List.length_map]
  have hkeys : (entries.map Prod.fst).length = entries.length := List.length_map _
  rw [hlength, ← hkeys]
  constructor
  · intro h
    exact List.dedup_eq_self.1 ((List.dedup_sublist _).eq_of_length h)
  · intro h
    rw [List.dedup_eq_self.2 h]

/-! ## Entries in key order -/

theorem mem_iff_get? {d : Dict α} (h : Sorted d) {key : String} {value : α} :
    (key, value) ∈ d ↔ get? d key = some value := by
  induction d with
  | nil => simp
  | cons entry d ih =>
    obtain ⟨k, v⟩ := entry
    have ⟨hk, hd⟩ := sorted_cons.1 h
    rw [get?_cons, List.mem_cons, ih hd]
    split
    · next heq =>
      subst heq
      rw [get?_of_sorted_cons h]
      simp [eq_comm]
    · next hne => simp [hne]

theorem sorted_filter {d : Dict α} (h : Sorted d) (keep : String × α → Bool) :
    Sorted (d.filter keep) :=
  h.sublist (List.filter_sublist.map Prod.fst)

/-- Selecting entries by their keys hides the others. -/
theorem get?_filter (keep : String → Bool) (d : Dict α) (key : String) :
    get? (d.filter fun entry => keep entry.1) key =
      if keep key then get? d key else none := by
  induction d with
  | nil => simp
  | cons entry d ih =>
    obtain ⟨k, v⟩ := entry
    rw [List.filter_cons]
    split
    · next hk =>
      rw [get?_cons, get?_cons, ih]
      by_cases hkey : key = k
      · simp [hkey, hk]
      · simp [hkey]
    · next hk =>
      rw [get?_cons, ih]
      by_cases hkey : key = k
      · simp [hkey, hk]
      · simp [hkey]

/-- In key order it does not matter from which end an entry is looked for. -/
theorem get?_reverse_of_sorted {d : Dict α} (h : Sorted d) (key : String) :
    get? d.reverse key = get? d key := by
  rw [← get?_ofEntries, ofEntries_of_sorted h]

/-- What stands first is only found from behind when nothing later has its key. -/
theorem get?_reverse_cons (k : String) (v : α) (d : Dict α) (key : String) :
    get? ((k, v) :: d).reverse key =
      (get? d.reverse key).or (if key = k then some v else none) := by
  rw [List.reverse_cons, get?, List.lookup_append]
  exact congrArg (Option.or _) (get?_cons k key v [])

/-! ## Entries without repeated keys -/

/-- Of keys that are pairwise different the last is the first. -/
theorem get?_ofEntries_of_nodup {entries : List (String × α)} (h : (entries.map Prod.fst).Nodup)
    (key : String) : get? (ofEntries entries) key = get? entries key := by
  rw [get?_ofEntries]
  induction entries with
  | nil => rfl
  | cons entry entries ih =>
    obtain ⟨k, v⟩ := entry
    obtain ⟨hk, hrest⟩ := List.nodup_cons.1 h
    rw [get?_reverse_cons, ih hrest, get?_cons]
    split
    · next heq =>
      subst heq
      rw [get?_eq_none hk]
      rfl
    · simp

/-- Entries under pairwise different keys are all kept. -/
theorem perm_ofEntries {entries : List (String × α)} (h : (entries.map Prod.fst).Nodup) :
    (ofEntries entries).Perm entries := by
  have hnodup : (ofEntries entries).Nodup := (nodup_keys (sorted_ofEntries entries)).of_map
  refine (List.subperm_of_subset hnodup fun _ => mem_of_mem_ofEntries).perm_of_length_le ?_
  exact Nat.le_of_eq (length_ofEntries_eq_iff.2 h).symm

/-- Entries in any order are one dictionary. -/
theorem ofEntries_of_perm {entries : List (String × α)} {d : Dict α} (h : entries.Perm d)
    (hd : d.Sorted) : ofEntries entries = d := by
  have hnodup : (entries.map Prod.fst).Nodup := (h.map Prod.fst).nodup_iff.2 (nodup_keys hd)
  refine ext (sorted_ofEntries entries) hd fun key => Option.ext fun value => ?_
  rw [← mem_iff_get? (sorted_ofEntries entries), ← mem_iff_get? hd]
  exact ((perm_ofEntries hnodup).trans h).mem_iff

theorem get?_of_mem {entries : List (String × α)}
    (h : (entries.map Prod.fst).Nodup) {entry : String × α} (hmem : entry ∈ entries) :
    get? entries entry.1 = some entry.2 := by
  rw [← get?_ofEntries_of_nodup h, ← mem_iff_get? (sorted_ofEntries entries)]
  exact (perm_ofEntries h).mem_iff.2 hmem

end EntityQuery.Dict
