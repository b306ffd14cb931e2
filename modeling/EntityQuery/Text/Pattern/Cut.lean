import EntityQuery.Text.Pattern

/-!
# The matcher decides cuts

`Pattern.covers` follows all remainders that the items read so far can leave. These are always such
that each is a suffix of those before it (`Nested`), which is why a run only needs to look at the
longest; hence `covers_iff_cut`: a text is covered exactly when it can be cut into the pieces of the
pattern.
-/

namespace EntityQuery.Text.Pattern

/-! ## One item -/

/-- What an item leaves of a text from whose front it takes its piece. -/
def Leaves : PatternItem → List Char → List Char → Prop
  | .run, text, rest => rest <:+ text
  | .one, text, rest => ∃ c, text = c :: rest
  | .char c, text, rest => text = c :: rest

/-- A text is cut by an item and those after it when these cut what the item leaves. -/
theorem cut_cons {item : PatternItem} {items : Pattern} {text : List Char} :
    Cut (item :: items) text ↔ ∃ rest, Leaves item text rest ∧ Cut items rest := by
  constructor
  · intro h
    cases h with
    | run piece h => exact ⟨_, ⟨piece, rfl⟩, h⟩
    | one c h => exact ⟨_, ⟨c, rfl⟩, h⟩
    | char c h => exact ⟨_, rfl, h⟩
  · rintro ⟨rest, hl, h⟩
    cases item with
    | run =>
      obtain ⟨piece, rfl⟩ := hl
      exact .run piece h
    | one =>
      obtain ⟨c, rfl⟩ := hl
      exact .one c h
    | char c =>
      cases hl
      exact .char c h

theorem cut_nil {text : List Char} : Cut [] text ↔ text = [] :=
  ⟨fun h => by cases h; rfl, fun h => h ▸ .nil⟩

/-! ## All remainders -/

/-- Each text is a suffix of those before it. -/
def Nested (places : List (List Char)) : Prop := places.Pairwise fun p q => q <:+ p

theorem mem_suffixes {text rest : List Char} : rest ∈ suffixes text ↔ rest <:+ text := by
  induction text with
  | nil => simp [suffixes]
  | cons c text ih => simp [suffixes, ih, List.suffix_cons_iff]

theorem nested_suffixes (text : List Char) : Nested (suffixes text) := by
  induction text with
  | nil => simp [suffixes, Nested]
  | cons c text ih =>
    refine List.pairwise_cons.2 ⟨fun rest hrest => ?_, ih⟩
    exact (mem_suffixes.1 hrest).trans (List.suffix_cons c text)

theorem behind_eq_some {fits : Char → Bool} {text rest : List Char} :
    behind fits text = some rest ↔ ∃ c, fits c = true ∧ text = c :: rest := by
  cases text with
  | nil => simp [behind]
  | cons c text =>
    by_cases h : fits c = true
    · simp only [behind, h, if_true, Option.some.injEq, List.cons.injEq]
      exact ⟨fun hr => ⟨c, h, rfl, hr⟩, fun ⟨_, _, _, hr⟩ => hr⟩
    · simp only [behind, h]
      constructor
      · intro hr
        cases hr
      · rintro ⟨_, hd, he⟩
        cases he
        exact absurd hd h

/-- Nested texts stay nested when each loses its first character or is dropped. -/
theorem Nested.filterMap_behind {places : List (List Char)} (h : Nested places)
    (fits : Char → Bool) : Nested (places.filterMap (behind fits)) := by
  refine List.Pairwise.filterMap _ (fun p q hqp p' hp q' hq => ?_) h
  obtain ⟨c, _, rfl⟩ := behind_eq_some.1 hp
  obtain ⟨d, _, rfl⟩ := behind_eq_some.1 hq
  rcases List.suffix_cons_iff.1 hqp with he | hs
  · cases he
    exact List.suffix_refl _
  · exact (List.suffix_cons d q').trans hs

theorem nested_advance {places : List (List Char)} (h : Nested places) (item : PatternItem) :
    Nested (advance item places) := by
  cases item with
  | run =>
    cases places with
    | nil => exact List.Pairwise.nil
    | cons longest places => exact nested_suffixes longest
  | one => exact h.filterMap_behind _
  | char c => exact h.filterMap_behind _

/-- One step leaves all that the item leaves of some place, and nothing else. -/
theorem mem_advance {places : List (List Char)} (h : Nested places) {item : PatternItem}
    {rest : List Char} : rest ∈ advance item places ↔ ∃ p ∈ places, Leaves item p rest := by
  cases item with
  | run =>
    cases places with
    | nil => simp [advance]
    | cons longest places =>
      simp only [advance, mem_suffixes, Leaves, List.mem_cons]
      constructor
      · exact fun hr => ⟨longest, .inl rfl, hr⟩
      · rintro ⟨p, rfl | hp, hr⟩
        · exact hr
        · exact hr.trans ((List.pairwise_cons.1 h).1 p hp)
  | one => simp [advance, Leaves, behind_eq_some]
  | char c => simp [advance, Leaves, behind_eq_some]

/-! ## Whole patterns -/

theorem exists_nil_mem_iff {items : Pattern} {places : List (List Char)} (h : Nested places) :
    [] ∈ items.foldl (fun places item => advance item places) places ↔
      ∃ p ∈ places, Cut items p := by
  induction items generalizing places with
  | nil => simp [cut_nil]
  | cons item items ih =>
    rw [List.foldl_cons, ih (nested_advance h item)]
    constructor
    · rintro ⟨rest, hr, hc⟩
      obtain ⟨p, hp, hl⟩ := (mem_advance h).1 hr
      exact ⟨p, hp, cut_cons.2 ⟨rest, hl, hc⟩⟩
    · rintro ⟨p, hp, hc⟩
      obtain ⟨rest, hl, hc⟩ := cut_cons.1 hc
      exact ⟨rest, (mem_advance h).2 ⟨p, hp, hl⟩, hc⟩

/-- A text is covered by a pattern exactly when it can be cut into the pieces of the pattern. -/
theorem covers_iff_cut {pattern : Pattern} {text : List Char} :
    covers pattern text = true ↔ Cut pattern text := by
  have h : Nested [text] := List.pairwise_singleton _ _
  have hmem := @exists_nil_mem_iff pattern [text] h
  simpa [covers] using hmem

end EntityQuery.Text.Pattern
