import EntityQuery.Dict

/-!
# What dictionaries hold

A dictionary in key order is determined by what it holds under each key (`Dict.ext`), and every
operation is described by what it leaves under each key (`get?_alter`, `get?_insert`,
`get?_ofEntries`) and keeps the order (`sorted_alter`, `sorted_insert`, `sorted_ofEntries`).
-/

namespace EntityQuery.Dict

universe u

variable {α : Type u}

/-! ## Looking up -/

@[simp] theorem get?_nil (key : String) : get? ([] : Dict α) key = none := rfl

theorem get?_cons (k key : String) (v : α) (d : Dict α) :
    get? ((k, v) :: d) key = if key = k then some v else get? d key := by
  simp only [get?, List.lookup_cons]
  by_cases h : key = k
  · simp [h]
  · rw [beq_false_of_ne h, if_neg h]

theorem mem_keys_of_get? {d : Dict α} {key : String} {v : α} (h : get? d key = some v) :
    key ∈ d.keys := by
  induction d with
  | nil => cases h
  | cons entry d ih =>
    obtain ⟨k, w⟩ := entry
    rw [get?_cons] at h
    by_cases hk : key = k
    · simp [keys, hk]
    · exact List.mem_cons_of_mem _ (ih (by simpa [hk] using h))

theorem get?_eq_none {d : Dict α} {key : String} (h : key ∉ d.keys) : get? d key = none := by
  cases hg : get? d key with
  | none => rfl
  | some v => exact absurd (mem_keys_of_get? hg) h

/-! ## Order -/

theorem sorted_nil : Sorted ([] : Dict α) := List.Pairwise.nil

theorem sorted_cons {k : String} {v : α} {d : Dict α} :
    Sorted ((k, v) :: d) ↔ (∀ l ∈ d.keys, k < l) ∧ Sorted d := List.pairwise_cons

/-- A first key is none of the later ones. -/
theorem get?_of_sorted_cons {k : String} {v : α} {d : Dict α} (h : Sorted ((k, v) :: d)) :
    get? d k = none :=
  get?_eq_none fun hmem => String.lt_irrefl _ ((sorted_cons.1 h).1 k hmem)

/-- Of two different keys one is smaller. -/
theorem lt_of_not_lt_of_ne {a b : String} (h : ¬a < b) (hne : a ≠ b) : b < a := by
  by_cases hba : b < a
  · exact hba
  · exact absurd (String.le_antisymm (String.not_lt.1 hba) (String.not_lt.1 h)) hne

/-- Dictionaries in key order that hold the same under every key are the same. -/
theorem ext {d e : Dict α} (hd : Sorted d) (he : Sorted e) (h : ∀ k, get? d k = get? e k) :
    d = e := by
  induction d generalizing e with
  | nil =>
    cases e with
    | nil => rfl
    | cons entry e =>
      have := h entry.1
      rw [get?_nil, get?_cons, if_pos rfl] at this
      cases this
  | cons entry d ih =>
    obtain ⟨k, v⟩ := entry
    have ⟨hk, hd'⟩ := sorted_cons.1 hd
    cases e with
    | nil =>
      have := h k
      simp [get?_cons] at this
    | cons entry e =>
      obtain ⟨l, w⟩ := entry
      have ⟨hl, he'⟩ := sorted_cons.1 he
      have hke : k ∈ keys ((l, w) :: e) :=
        mem_keys_of_get? (v := v) (by rw [← h k, get?_cons, if_pos rfl])
      have hld : l ∈ keys ((k, v) :: d) :=
        mem_keys_of_get? (v := w) (by rw [h l, get?_cons, if_pos rfl])
      have hkl : k = l := by
        rcases List.mem_cons.1 hke with hke | hke
        · exact hke
        · rcases List.mem_cons.1 hld with hld | hld
          · exact hld.symm
          · exact absurd (hk _ hld) (String.lt_asymm (hl _ hke))
      subst hkl
      have hv : v = w := by simpa [get?_cons] using h k
      subst hv
      rw [ih hd' he' fun m => ?_]
      by_cases hm : m = k
      · rw [hm, get?_of_sorted_cons hd, get?_of_sorted_cons he]
      · simpa [get?_cons, hm] using h m

/-! ## Changing what a key holds -/

theorem mem_keys_alter (key : String) (f : Option α → α) (d : Dict α) (k : String) :
    k ∈ (alter key f d).keys ↔ k = key ∨ k ∈ d.keys := by
  induction d with
  | nil => simp [alter, keys]
  | cons entry d ih =>
    obtain ⟨l, v⟩ := entry
    simp only [keys] at ih
    simp only [alter]
    split
    · simp [keys]
    · split <;> grind [keys]

theorem sorted_alter {d : Dict α} (h : Sorted d) (key : String) (f : Option α → α) :
    Sorted (alter key f d) := by
  induction d with
  | nil => simp [alter, Sorted, keys]
  | cons entry d ih =>
    obtain ⟨k, v⟩ := entry
    have ⟨hk, hd⟩ := sorted_cons.1 h
    simp only [alter]
    split
    · next hlt =>
      refine sorted_cons.2 ⟨fun l hl => ?_, h⟩
      rcases List.mem_cons.1 hl with rfl | hl
      · exact hlt
      · exact String.lt_trans hlt (hk l hl)
    · next hnot =>
      split
      · exact sorted_cons.2 ⟨hk, hd⟩
      · next hne =>
        refine sorted_cons.2 ⟨fun l hl => ?_, ih hd⟩
        rcases (mem_keys_alter key f d l).1 hl with rfl | hl
        · exact lt_of_not_lt_of_ne hnot hne
        · exact hk l hl

/-- Only the key changes what it holds. -/
theorem get?_alter {d : Dict α} (h : Sorted d) (key : String) (f : Option α → α) (k : String) :
    get? (alter key f d) k = if k = key then some (f (get? d key)) else get? d k := by
  induction d with
  | nil => rw [alter, get?_cons]; simp
  | cons entry d ih =>
    obtain ⟨l, v⟩ := entry
    have ⟨hl, hd⟩ := sorted_cons.1 h
    simp only [alter]
    split
    · next hlt =>
      have hnone : get? ((l, v) :: d) key = none := get?_eq_none fun hmem => by
        rcases List.mem_cons.1 hmem with rfl | hmem
        · exact String.lt_irrefl _ hlt
        · exact String.lt_asymm hlt (hl _ hmem)
      rw [hnone, get?_cons]
    · split
      · next heq =>
        subst heq
        simp only [get?_cons]
        by_cases hk : k = key <;> simp [hk]
      · next hne =>
        simp only [get?_cons, ih hd, if_neg hne]
        by_cases hkl : k = l
        · subst hkl
          simp [Ne.symm hne]
        · simp [hkl]

theorem sorted_insert {d : Dict α} (h : Sorted d) (key : String) (value : α) :
    Sorted (insert d key value) := sorted_alter h key _

theorem get?_insert {d : Dict α} (h : Sorted d) (key : String) (value : α) (k : String) :
    get? (insert d key value) k = if k = key then some value else get? d k :=
  get?_alter h key _ k

/-! ## Writing entries -/

theorem sorted_ofEntries (entries : List (String × α)) : Sorted (ofEntries entries) :=
  List.foldlRecOn entries _ sorted_nil fun _ h entry _ => sorted_insert h entry.1 entry.2

/-- The last entry under a key is the one held. -/
theorem get?_ofEntries (entries : List (String × α)) (key : String) :
    get? (ofEntries entries) key = get? entries.reverse key := by
  suffices aux : ∀ (rest : List (String × α)) (d : Dict α), Sorted d →
      get? (rest.foldl (fun d entry => insert d entry.1 entry.2) d) key =
        (get? rest.reverse key).or (get? d key) by
    rw [ofEntries, aux entries [] sorted_nil]; simp
  intro rest
  induction rest with
  | nil => intro d _; rfl
  | cons entry rest ih =>
    intro d h
    rw [List.foldl_cons, ih _ (sorted_insert h _ _), get?_insert h]
    have hrev : get? (entry :: rest).reverse key =
        (get? rest.reverse key).or (if key = entry.1 then some entry.2 else none) := by
      rw [List.reverse_cons, get?, List.lookup_append]
      exact congrArg (Option.or _) (get?_cons entry.1 key entry.2 [])
    rw [hrev]
    by_cases hk : key = entry.1 <;> cases get? rest.reverse key <;> simp [hk]

/-- Entries in key order are a dictionary as they are. -/
theorem ofEntries_of_sorted {d : Dict α} (h : Sorted d) : ofEntries d = d := by
  refine ext (sorted_ofEntries d) h fun key => ?_
  rw [get?_ofEntries]
  induction d with
  | nil => rfl
  | cons entry d ih =>
    obtain ⟨k, v⟩ := entry
    have ⟨_, hd⟩ := sorted_cons.1 h
    have happend : get? ((k, v) :: d).reverse key = (get? d key).or (get? [(k, v)] key) := by
      rw [List.reverse_cons, get?, List.lookup_append]
      exact congrArg (Option.or · _) (ih hd)
    rw [happend, get?_cons, get?_cons]
    by_cases hk : key = k
    · rw [hk, get?_of_sorted_cons h]
      rfl
    · simp [hk]

end EntityQuery.Dict
