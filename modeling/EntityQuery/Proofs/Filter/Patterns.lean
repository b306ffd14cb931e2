import EntityQuery.Proofs.Filter.Combining
import EntityQuery.Proofs.Text.Regex

/-!
# Patterns in memory

A comparison by a pattern holds of a value when the value is a text that is cut into pieces, one for
each character of the pattern in order (`holds_like`). `Fits` says which pieces a character stands
for: `%` for all of them, `_` for those of one character, any other character for itself, so that no
character but these two has a meaning. The same texts are those in which the pattern is found once
it is written as a regular expression whose points stand for line breaks too.
-/

namespace EntityQuery

namespace Text.Pattern

/-- The pieces that a character of a pattern stands for. -/
inductive Fits : Char → List Char → Prop
  | run (piece : List Char) : Fits '%' piece
  | one (c : Char) : Fits '_' [c]
  | self {c : Char} (hrun : c ≠ '%') (hone : c ≠ '_') : Fits c [c]

/-- What an item leaves of a text is what stands behind a fitting piece. -/
theorem leaves_item_iff {c : Char} {text rest : List Char} :
    Leaves (item c) text rest ↔ ∃ piece, Fits c piece ∧ text = piece ++ rest := by
  constructor
  · intro h
    unfold item at h
    split at h
    · next hrun =>
      obtain ⟨piece, rfl⟩ := h
      exact ⟨piece, hrun ▸ .run piece, rfl⟩
    · next hrun =>
      split at h
      · next hone =>
        obtain ⟨d, rfl⟩ := h
        exact ⟨[d], hone ▸ .one d, rfl⟩
      · next hone => exact ⟨[c], .self hrun hone, h⟩
  · rintro ⟨piece, hfits, rfl⟩
    cases hfits with
    | run => exact ⟨piece, rfl⟩
    | one d => exact ⟨d, rfl⟩
    | self hrun hone =>
      show Leaves (item _) ([_] ++ rest) rest
      rw [item, if_neg hrun, if_neg hone]
      rfl

/-- A pattern cuts a text when the text is made of pieces that fit its characters in order. -/
theorem cut_ofText_iff {pattern text : List Char} :
    Cut (ofText pattern) text ↔ ∃ pieces, List.Forall₂ Fits pattern pieces ∧
      text = pieces.flatten := by
  induction pattern generalizing text with
  | nil => simp [ofText, cut_nil]
  | cons c pattern ih =>
    show Cut (item c :: ofText pattern) text ↔ _
    rw [cut_cons]
    constructor
    · rintro ⟨rest, hleaves, hcut⟩
      obtain ⟨piece, hfits, rfl⟩ := leaves_item_iff.1 hleaves
      obtain ⟨pieces, hpieces, rfl⟩ := ih.1 hcut
      exact ⟨piece :: pieces, .cons hfits hpieces, rfl⟩
    · rintro ⟨pieces, hpieces, rfl⟩
      cases hpieces with
      | @cons _ piece _ pieces hfits hpieces =>
        exact ⟨pieces.flatten, leaves_item_iff.2 ⟨piece, hfits, rfl⟩, ih.2 ⟨pieces, hpieces, rfl⟩⟩

end Text.Pattern

namespace Json

open Text in
/-- Only texts are like a pattern, and those are that it cuts. -/
theorem isLike_iff {actual : Json} {pattern : String} :
    actual.isLike (.str pattern) = true ↔
      ∃ text, actual = .str text ∧ Pattern.Cut (Pattern.ofText pattern.toList) text.toList := by
  cases actual with
  | str text =>
    show Pattern.covers _ text.toList = true ↔ _
    rw [Pattern.covers_iff_cut]
    constructor
    · exact fun h => ⟨text, rfl, h⟩
    · rintro ⟨_, ⟨⟩, h⟩
      exact h
  | _ => exact ⟨nofun, fun ⟨_, heq, _⟩ => nomatch heq⟩

end Json

namespace Filter

open Text

/-- **A text is like a pattern when it is made of its pieces.** Asked of any value, `like` and
`notLike` have opposite verdicts, and that of `like` is true exactly when the value is a text made
of pieces that fit the characters of the pattern in order. It is also true exactly for the texts in
which the regular expression that the pattern is written as is found, points standing for line
breaks. A filter of one of the two comparisons has its verdict on every record. -/
theorem holds_like {like notLike : String} (hlike : Operator.ofName? like = some .like)
    (hnotLike : Operator.ofName? notLike = some .notLike) (pattern : String) (actual : Json) :
    ∃ verdict,
      holds ⟨like, .str pattern⟩ actual = .ok verdict ∧
      holds ⟨notLike, .str pattern⟩ actual = .ok (!verdict) ∧
      (verdict = true ↔ ∃ text, actual = .str text ∧
        ∃ pieces, List.Forall₂ Pattern.Fits pattern.toList pieces ∧ text.toList = pieces.flatten) ∧
      (verdict = true ↔ ∃ text, actual = .str text ∧
        ∃ items, Regex.read? (Regex.write (Pattern.ofText pattern.toList)) = some items ∧
          Regex.Finds true items text.toList) ∧
      ∀ field record, record.getOrNull field = actual →
        (empty.compare field like (.str pattern)).accepts record = .ok verdict ∧
        (empty.compare field notLike (.str pattern)).accepts record = .ok (!verdict) := by
  refine ⟨actual.isLike (.str pattern), holds_eq_compares hlike _ _,
    holds_eq_compares hnotLike _ _, ?_, ?_, ?_⟩
  · simp only [Json.isLike_iff, Pattern.cut_ofText_iff]
  · simp only [Json.isLike_iff, Regex.read?_write, Option.some.injEq, exists_eq_left',
      Regex.finds_meaning_iff]
  · rintro field record rfl
    exact ⟨accepts_compare_empty hlike rfl field record,
      accepts_compare_empty hnotLike rfl field record⟩

/-- A bracket and a backslash of a pattern are nothing but characters, and a run goes on over a line
break. -/
theorem holds_like_brackets :
    holds ⟨"LIKE", .str "(%\\_"⟩ (.str "(\n.\\*") = .ok true ∧
    holds ⟨"notlike", .str "(%\\_"⟩ (.str "(\n.\\*") = .ok false ∧
    ∀ record : Json, record.getOrNull "path" = .str "(\n.\\*" →
      (empty.compare "path" "LIKE" (.str "(%\\_")).accepts record = .ok true := by
  obtain ⟨verdict, hholds, hnot, hpieces, -, haccepts⟩ :=
    @holds_like "LIKE" "notlike" rfl rfl "(%\\_" (.str "(\n.\\*")
  have hcut : List.Forall₂ Pattern.Fits ['(', '%', '\\', '_'] [['('], ['\n', '.'], ['\\'], ['*']] :=
    .cons (.self (by decide) (by decide)) (.cons (.run _)
      (.cons (.self (by decide) (by decide)) (.cons (.one '*') .nil)))
  obtain rfl : verdict = true := hpieces.2 ⟨_, rfl, _, hcut, rfl⟩
  exact ⟨hholds, hnot, fun record hrecord => (haccepts "path" record hrecord).1⟩

end Filter

end EntityQuery
