import EntityQuery.Proofs.Filter.Patterns
import EntityQuery.Proofs.Text.Case

/-!
# Alphabets on which case is set aside alike

A map of characters sets case aside by making some of them the same: once text and pattern are
mapped, the pattern cuts the text when its pieces fit up to the map (`Pattern.cut_map_iff`), given
that the map keeps the wildcards. Memory maps by folding (`likeFolded_iff_cut`), the store by
lower-casing, on texts of plain characters (`like_lower_iff_cut`). So the two agree on all texts
over an alphabet exactly when it is one of plain characters and both maps make the same ones the
same (`agrees_iff_foldsAsLowered`).
-/

namespace EntityQuery.Text

/-! ## Patterns up to a map -/

namespace Pattern

/-- The pieces that a character of a pattern stands for, up to a relation of characters. -/
inductive FitsUpTo (same : Char → Char → Prop) : Char → List Char → Prop
  | run (piece : List Char) : FitsUpTo same '%' piece
  | one (c : Char) : FitsUpTo same '_' [c]
  | self {c d : Char} (hrun : c ≠ '%') (hone : c ≠ '_') (hsame : same c d) : FitsUpTo same c [d]

/-- The map takes the wildcards, and nothing else, to themselves. -/
structure KeepsWildcards (g : Char → Char) : Prop where
  run : ∀ {c}, g c = '%' ↔ c = '%'
  one : ∀ {c}, g c = '_' ↔ c = '_'

variable {g : Char → Char} {pattern text : List Char} {c : Char}

theorem fits_map_iff (hg : KeepsWildcards g) {piece : List Char} :
    Fits (g c) (piece.map g) ↔ FitsUpTo (fun c d => g c = g d) c piece := by
  constructor
  · intro h
    generalize hmapped : piece.map g = mapped at h
    generalize hc : g c = c' at h
    cases h with
    | run => exact hg.run.1 hc ▸ .run piece
    | one d =>
      obtain ⟨d, rfl, -⟩ := List.map_eq_singleton_iff.1 hmapped
      exact hg.one.1 hc ▸ .one d
    | self hrun hone =>
      subst hc
      obtain ⟨d, rfl, hd⟩ := List.map_eq_singleton_iff.1 hmapped
      exact .self (mt hg.run.2 hrun) (mt hg.one.2 hone) hd.symm
  · intro h
    cases h with
    | run =>
      rw [hg.run.2 rfl]
      exact .run _
    | one d =>
      rw [hg.one.2 rfl]
      exact .one _
    | self hrun hone hsame =>
      rw [List.map_singleton, ← hsame]
      exact .self (mt hg.run.1 hrun) (mt hg.one.1 hone)

/-- A pattern cuts a text once both are mapped when the text is made of pieces that fit the pattern
up to what the map makes the same. -/
theorem cut_map_iff (hg : KeepsWildcards g) :
    Cut (ofText (pattern.map g)) (text.map g) ↔ ∃ pieces,
      List.Forall₂ (FitsUpTo fun c d => g c = g d) pattern pieces ∧ text = pieces.flatten := by
  induction pattern generalizing text with
  | nil => simp [ofText, cut_nil]
  | cons c pattern ih =>
    show Cut (item (g c) :: ofText (pattern.map g)) (text.map g) ↔ _
    rw [cut_cons]
    constructor
    · rintro ⟨_, hleaves, hcut⟩
      obtain ⟨_, hfits, hsplit⟩ := leaves_item_iff.1 hleaves
      obtain ⟨piece, rest, rfl, rfl, rfl⟩ := List.map_eq_append_iff.1 hsplit
      obtain ⟨pieces, hpieces, rfl⟩ := ih.1 hcut
      exact ⟨piece :: pieces, .cons ((fits_map_iff hg).1 hfits) hpieces, rfl⟩
    · rintro ⟨pieces, hpieces, rfl⟩
      cases hpieces with
      | @cons _ piece _ pieces hfits hpieces =>
        refine ⟨pieces.flatten.map g, leaves_item_iff.2 ⟨_, (fits_map_iff hg).2 hfits, ?_⟩,
          ih.2 ⟨pieces, hpieces, rfl⟩⟩
        rw [List.flatten_cons, List.map_append]

theorem FitsUpTo.imp {same same' : Char → Char → Prop} {piece : List Char}
    (hsame : ∀ d ∈ piece, same c d → same' c d) (h : FitsUpTo same c piece) :
    FitsUpTo same' c piece := by
  cases h with
  | run => exact .run piece
  | one d => exact .one d
  | self hrun hone h => exact .self hrun hone (hsame _ List.mem_cons_self h)

/-- Pieces that fit a pattern still do up to a relation that follows for the characters at hand. -/
theorem forall₂_fitsUpTo_imp {same same' : Char → Char → Prop} {pieces : List (List Char)}
    (hsame : ∀ c ∈ pattern, ∀ d ∈ pieces.flatten, same c d → same' c d)
    (h : List.Forall₂ (FitsUpTo same) pattern pieces) :
    List.Forall₂ (FitsUpTo same') pattern pieces := by
  induction h with
  | nil => exact .nil
  | cons hfits _ ih =>
    refine .cons (hfits.imp fun d hd => hsame _ List.mem_cons_self d ?_)
      (ih fun c hc d hd => hsame c (List.mem_cons_of_mem _ hc) d ?_)
    · exact List.mem_append_left _ hd
    · exact List.mem_append_right _ hd

/-- Two maps that keep the wildcards cut alike when they make the same characters of the pattern and
the text the same. -/
theorem cut_map_congr {f g : Char → Char} (hf : KeepsWildcards f) (hg : KeepsWildcards g)
    (hsame : ∀ c ∈ pattern, ∀ d ∈ text, f c = f d ↔ g c = g d) :
    Cut (ofText (pattern.map f)) (text.map f) ↔ Cut (ofText (pattern.map g)) (text.map g) := by
  rw [cut_map_iff hf, cut_map_iff hg]
  constructor <;> rintro ⟨pieces, hpieces, rfl⟩
  · exact ⟨pieces, forall₂_fitsUpTo_imp (fun c hc d hd => (hsame c hc d hd).1) hpieces, rfl⟩
  · exact ⟨pieces, forall₂_fitsUpTo_imp (fun c hc d hd => (hsame c hc d hd).2) hpieces, rfl⟩

/-- One character is cut by a wildcard and by what the map makes the same. -/
theorem cut_single_iff (hg : KeepsWildcards g) {d : Char} :
    Cut (ofText ([c].map g)) ([d].map g) ↔ c = '%' ∨ c = '_' ∨ g c = g d := by
  rw [cut_map_iff hg]
  constructor
  · rintro ⟨pieces, hpieces, hflatten⟩
    obtain ⟨piece, _, hfits, hnil, rfl⟩ := List.forall₂_cons_left_iff.1 hpieces
    obtain rfl := List.forall₂_nil_left_iff.1 hnil
    obtain rfl : [d] = piece := by simpa using hflatten
    cases hfits with
    | run => exact .inl rfl
    | one => exact .inr (.inl rfl)
    | self _ _ hsame => exact .inr (.inr hsame)
  · intro h
    refine ⟨[[d]], .cons ?_ .nil, rfl⟩
    by_cases hrun : c = '%'
    · exact hrun ▸ .run [d]
    · by_cases hone : c = '_'
      · exact hone ▸ .one d
      · exact .self hrun hone ((h.resolve_left hrun).resolve_left hone)

/-- Any two maps that keep the wildcards make the same characters the same as a wildcard: only
itself. -/
theorem KeepsWildcards.same_iff {f : Char → Char} (hf : KeepsWildcards f) (hg : KeepsWildcards g)
    (hc : c = '%' ∨ c = '_') {d : Char} : f c = f d ↔ g c = g d := by
  obtain rfl | rfl := hc
  · rw [hf.run.2 rfl, hg.run.2 rfl]
    exact eq_comm.trans (hf.run.trans (hg.run.symm.trans eq_comm))
  · rw [hf.one.2 rfl, hg.one.2 rfl]
    exact eq_comm.trans (hf.one.trans (hg.one.symm.trans eq_comm))

end Pattern

/-! ## Wildcards are kept -/

/-- A number is no other character's; one that is no character's is taken for zero. -/
theorem ofNat_ne {n : Nat} {c : Char} (hc : c ≠ '\x00') (h : n ≠ c.toNat) : Char.ofNat n ≠ c := by
  rintro rfl
  by_cases hvalid : n.isValidChar
  · have hchar : Char.ofNat n = Char.ofNatAux n hvalid := dif_pos hvalid
    exact h (congrArg Char.toNat hchar).symm
  · exact hc (dif_neg hvalid)

/-- Runs that move characters behind the wildcards only keep these. -/
theorem keepsWildcards_map {runs : List CaseRun}
    (hbehind : ∀ run ∈ runs, '_'.toNat < run.first + run.shift)
    (hrun : CaseRun.map runs '%' = '%') (hone : CaseRun.map runs '_' = '_') :
    Pattern.KeepsWildcards (CaseRun.map runs) := by
  have hback : ∀ {c w : Char}, w ≠ '\x00' → w.toNat ≤ '_'.toNat → CaseRun.map runs c = w →
      c = w := by
    intro c w hw hle h
    obtain hstays | ⟨run, hmem, hcovers, hgoes⟩ := CaseRun.map_cases runs c
    · exact hstays ▸ h
    · have hshift := hbehind run hmem
      have hlow := (CaseRun.covers_iff.1 hcovers).1
      exact absurd (hgoes ▸ h) (ofNat_ne hw (by omega))
  exact ⟨⟨hback (by decide) (by decide), fun h => h ▸ hrun⟩,
    ⟨hback (by decide) (by decide), fun h => h ▸ hone⟩⟩

theorem keepsWildcards_foldChar : Pattern.KeepsWildcards foldChar :=
  keepsWildcards_map (by decide +kernel) (by decide +kernel) (by decide +kernel)

theorem keepsWildcards_lowerRuns : Pattern.KeepsWildcards (CaseRun.map lowerRuns) :=
  keepsWildcards_map (by decide +kernel) (by decide +kernel) (by decide +kernel)

/-! ## Alphabets -/

theorem likeFolded_iff_cut {text pattern : String} : likeFolded text pattern = true ↔
    Pattern.Cut (Pattern.ofText (pattern.toList.map foldChar)) (text.toList.map foldChar) :=
  Pattern.covers_iff_cut

/-- A text is like a pattern but for case when its pieces fit the pattern up to folding. -/
theorem likeFolded_iff {text pattern : String} : likeFolded text pattern = true ↔ ∃ pieces,
    List.Forall₂ (Pattern.FitsUpTo fun c d => foldChar c = foldChar d) pattern.toList pieces ∧
      text.toList = pieces.flatten := by
  rw [likeFolded_iff_cut, Pattern.cut_map_iff keepsWildcards_foldChar]

/-- A text is like a pattern when its pieces fit the pattern. -/
theorem like_iff {text pattern : String} : like text pattern = true ↔
    ∃ pieces, List.Forall₂ Pattern.Fits pattern.toList pieces ∧ text.toList = pieces.flatten := by
  rw [like, Pattern.covers_iff_cut, Pattern.cut_ofText_iff]

theorem like_lower_iff_cut {text pattern : String} (htext : ∀ c ∈ text.toList, IsPlain c)
    (hpattern : ∀ c ∈ pattern.toList, IsPlain c) : like (lower text) (lower pattern) = true ↔
      Pattern.Cut (Pattern.ofText (pattern.toList.map (CaseRun.map lowerRuns)))
        (text.toList.map (CaseRun.map lowerRuns)) := by
  rw [like, Pattern.covers_iff_cut, toList_lower htext, toList_lower hpattern]

/-- An alphabet of plain characters, equal to each other once folded when they are in lower case. -/
structure FoldsAsLowered (S : Char → Prop) : Prop where
  plain : ∀ {c}, S c → IsPlain c
  same : ∀ {c d}, S c → S d → (foldChar c = foldChar d ↔ lowerChar c = lowerChar d)

/-- Over such an alphabet, a text and a pattern are alike in lower case when they are but for
case. -/
theorem likeFolded_eq_like_lower {S : Char → Prop} (h : FoldsAsLowered S) {text pattern : String}
    (htext : ∀ c ∈ text.toList, S c)
    (hpattern : ∀ c ∈ pattern.toList, c = '%' ∨ c = '_' ∨ S c) :
    likeFolded text pattern = like (lower text) (lower pattern) := by
  have hplain : ∀ c ∈ pattern.toList, IsPlain c := by
    intro c hc
    obtain rfl | rfl | hS := hpattern c hc
    · exact ⟨by decide, by decide⟩
    · exact ⟨by decide, by decide⟩
    · exact h.plain hS
  rw [Bool.eq_iff_iff, likeFolded_iff_cut,
    like_lower_iff_cut (fun c hc => h.plain (htext c hc)) hplain]
  refine Pattern.cut_map_congr keepsWildcards_foldChar keepsWildcards_lowerRuns fun c hc d hd => ?_
  obtain hwild | hS := or_assoc.2 (hpattern c hc)
  · exact keepsWildcards_foldChar.same_iff keepsWildcards_lowerRuns hwild
  · have hd := htext d hd
    rw [h.same hS hd, lowerChar_of_isPlain (h.plain hS), lowerChar_of_isPlain (h.plain hd),
      List.singleton_inj]

/-- An alphabet over which all texts and patterns are alike in lower case when they are but for
case. -/
theorem foldsAsLowered_of_agrees {S : Char → Prop}
    (h : ∀ text pattern : String, (∀ c ∈ text.toList, S c) →
      (∀ c ∈ pattern.toList, c = '%' ∨ c = '_' ∨ S c) →
        likeFolded text pattern = like (lower text) (lower pattern)) : FoldsAsLowered S := by
  have hplain : ∀ {c}, S c → IsPlain c := by
    refine fun hS => ⟨?_, ?_⟩
    · rintro rfl
      -- in lower case it has two characters
      have hagrees := h "\u0130" "_" (by simpa using hS) (by simp)
      exact absurd hagrees (by decide +kernel)
    · rintro rfl
      -- at the end of a word it does not go where it goes on its own
      have hagrees := h "ΣΣ" "_Σ" (by simpa using hS) (by simpa using hS)
      exact absurd hagrees (by decide +kernel)
  refine ⟨hplain, fun {c d} hc hd => ?_⟩
  have hplainOf : ∀ {e}, S e → ∀ e' ∈ (String.ofList [e]).toList, IsPlain e' := by
    intro e he
    simpa using hplain he
  have hagrees := h (String.ofList [d]) (String.ofList [c]) (by simpa using hd) (by simp [hc])
  rw [Bool.eq_iff_iff, likeFolded_iff_cut, like_lower_iff_cut (hplainOf hd) (hplainOf hc),
    String.toList_ofList, String.toList_ofList, Pattern.cut_single_iff keepsWildcards_foldChar,
    Pattern.cut_single_iff keepsWildcards_lowerRuns] at hagrees
  rw [lowerChar_of_isPlain (hplain hc), lowerChar_of_isPlain (hplain hd), List.singleton_inj]
  by_cases hwild : c = '%' ∨ c = '_'
  · exact keepsWildcards_foldChar.same_iff keepsWildcards_lowerRuns hwild
  · obtain ⟨hrun, hone⟩ := not_or.1 hwild
    simpa [hrun, hone] using hagrees

/-- **Folding and lower-casing agree over an alphabet** exactly when its characters are plain and
both make the same ones equal. -/
theorem agrees_iff_foldsAsLowered (S : Char → Prop) :
    (∀ text pattern : String, (∀ c ∈ text.toList, S c) →
      (∀ c ∈ pattern.toList, c = '%' ∨ c = '_' ∨ S c) →
        likeFolded text pattern = like (lower text) (lower pattern)) ↔ FoldsAsLowered S :=
  ⟨foldsAsLowered_of_agrees, fun h _ _ => likeFolded_eq_like_lower h⟩

/-- A final sigma folds to the same as any other, but keeps its form in lower case. -/
example : likeFolded "ς" "σ" = true ∧ like (lower "ς") (lower "σ") = false := by decide +kernel

theorem foldsAsLowered_isEven : FoldsAsLowered IsEven where
  plain := IsEven.isPlain
  same hc hd := by
    rw [lowerChar_of_isPlain hc.isPlain, lowerChar_of_isPlain hd.isPlain, List.singleton_inj,
      map_lowerRuns_of_isEven hc, map_lowerRuns_of_isEven hd]

end EntityQuery.Text
