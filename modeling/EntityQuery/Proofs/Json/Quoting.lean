import EntityQuery.Json.Reader
import EntityQuery.Json.Text

/-!
# Quoted text reads back

Every character has an escape, at the least itself, that the scanner reads as one element
(`exists_scan_escapeChar`), and the elements of a quoted text denote the text
(`exists_scan_quoted`). Only the characters below the space that have no letter of their own are
written as units, and none of these is half of a surrogate pair.
-/

namespace EntityQuery.Quoted

/-- A unit that is no part of a surrogate pair stands for its character. -/
theorem chars?_unit {n : Nat} (h : n < 0xD800) (elements : List Quoted) :
    chars? (.unit n :: elements) = (chars? elements).map (Char.ofNat n :: ·) := by
  have hhigh : isHigh n = false := by simp [isHigh]; omega
  have hlow : isLow n = false := by simp [isLow]; omega
  cases elements with
  | nil => simp [chars?, hhigh, hlow]
  | cons element elements =>
    cases element with
    | char c => simp [chars?, hhigh, hlow]
    | unit m => simp [chars?, hhigh, hlow]

theorem scan_char {c : Char} (hquote : c ≠ '"') (hslash : c ≠ '\\') (hlow : ¬c.toNat < 0x20)
    (rest : List Char) :
    scan (c :: rest) = (scan rest).map fun more => (.char c :: more.1, more.2) := by
  rw [scan.eq_def]
  split
  · next heq => cases heq
  · next heq => exact absurd (List.cons.inj heq).1 hquote
  · next heq => exact absurd (List.cons.inj heq).1 hslash
  · next heq => exact absurd (List.cons.inj heq).1 hslash
  · next heq =>
    obtain ⟨rfl, rfl⟩ := List.cons.inj heq
    rw [if_neg hlow]
    cases scan rest <;> rfl

theorem scan_escape {e c : Char} (he : e ≠ 'u') (hescape : escape? e = some c)
    (rest : List Char) :
    scan ('\\' :: e :: rest) = (scan rest).map fun more => (.char c :: more.1, more.2) := by
  rw [scan.eq_def]
  split
  · next heq => cases heq
  · next heq => cases heq
  · next heq =>
    exact absurd (List.cons.inj (List.cons.inj heq).2).1 he
  · next heq =>
    obtain ⟨rfl, rfl⟩ := List.cons.inj (List.cons.inj heq).2
    rw [hescape]
    cases scan rest <;> rfl
  · next hnone heq =>
    obtain ⟨rfl, rfl⟩ := List.cons.inj heq
    exact absurd rfl (hnone _ _ rfl)

theorem unit?_hexDigit {n : Nat} (h : n < 0x20) :
    unit? '0' '0' (Json.hexDigit (n / 16)) (Json.hexDigit n) = some n := by
  have hall : ∀ n < 0x20, unit? '0' '0' (Json.hexDigit (n / 16)) (Json.hexDigit n) = some n := by
    decide
  exact hall n h

/-- The characters that are escaped by a letter or a sign, which follows the backslash. -/
def lettered : List (Char × Char) :=
  [('"', '"'), ('\\', '\\'), ('\x08', 'b'), ('\t', 't'), ('\n', 'n'), ('\x0c', 'f'), ('\r', 'r')]

theorem escapeChar_of_mem : ∀ p ∈ lettered,
    p.2 ≠ 'u' ∧ escape? p.2 = some p.1 ∧ Json.escapeChar p.1 = ['\\', p.2] := by
  decide

theorem escapeChar_of_notMem {c : Char} (h : c ∉ lettered.map Prod.fst) : Json.escapeChar c =
    if c.toNat < 0x20 then
      ['\\', 'u', '0', '0', Json.hexDigit (c.toNat / 16), Json.hexDigit c.toNat]
    else [c] := by
  simp only [lettered, List.map_cons, List.map_nil, List.mem_cons, List.not_mem_nil, or_false,
    not_or] at h
  simp [Json.escapeChar, h]

/-- The escape of a character is read as one element, which stands for the character. -/
theorem exists_scan_escapeChar (c : Char) : ∃ element,
    (∀ rest, scan (Json.escapeChar c ++ rest) =
      (scan rest).map fun more => (element :: more.1, more.2)) ∧
    ∀ elements, chars? (element :: elements) = (chars? elements).map (c :: ·) := by
  by_cases hmem : c ∈ lettered.map Prod.fst
  · obtain ⟨⟨c, e⟩, hp, rfl⟩ := List.mem_map.1 hmem
    obtain ⟨hunit, hescape, htext⟩ := escapeChar_of_mem (c, e) hp
    refine ⟨.char c, fun rest => ?_, fun _ => rfl⟩
    rw [htext]
    exact scan_escape hunit hescape rest
  · rw [escapeChar_of_notMem hmem]
    split
    · next hlow =>
      refine ⟨.unit c.toNat, fun rest => ?_, fun elements => ?_⟩
      · simp only [List.cons_append, List.nil_append, scan, unit?_hexDigit hlow]
        cases scan rest <;> rfl
      · rw [chars?_unit (by omega), Char.ofNat_toNat]
    · next hlow =>
      have hquote : c ≠ '"' := fun h => hmem (by simp [h, lettered])
      have hslash : c ≠ '\\' := fun h => hmem (by simp [h, lettered])
      exact ⟨.char c, scan_char hquote hslash hlow, fun _ => rfl⟩

/-- What is quoted reads back, up to the closing quote and no further. -/
theorem exists_scan_quoted (cs rest : List Char) : ∃ elements,
    scan (cs.flatMap Json.escapeChar ++ '"' :: rest) = some (elements, rest) ∧
      chars? elements = some cs := by
  induction cs with
  | nil => exact ⟨[], by simp [scan], rfl⟩
  | cons c cs ih =>
    obtain ⟨elements, hscan, hchars⟩ := ih
    obtain ⟨element, hfirst, hstands⟩ := exists_scan_escapeChar c
    refine ⟨element :: elements, ?_, ?_⟩
    · rw [List.flatMap_cons, List.append_assoc, hfirst, hscan]
      rfl
    · rw [hstands, hchars]
      rfl

theorem exists_scan_quote (text : String) (rest : List Char) : ∃ elements,
    (Json.quote text).toList ++ rest =
        '"' :: (text.toList.flatMap Json.escapeChar ++ '"' :: rest) ∧
      scan (text.toList.flatMap Json.escapeChar ++ '"' :: rest) = some (elements, rest) ∧
      text? elements = some text := by
  obtain ⟨elements, hscan, hchars⟩ := exists_scan_quoted text.toList rest
  refine ⟨elements, by simp [Json.quote], hscan, ?_⟩
  rw [text?, hchars, Option.map_some, String.ofList_toList]

end EntityQuery.Quoted
