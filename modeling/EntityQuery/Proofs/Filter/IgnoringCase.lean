import EntityQuery.Proofs.Filter.Selecting
import EntityQuery.Proofs.Text.Alphabets

/-!
# Comparisons but for case

`iLike` is decided in memory by folding the characters of the text and of the pattern, and in the
store by putting both into lower case. The store knows of every text whether it is like a pattern,
so that there, too, `notILike` is the complement (`truth_iLike`). On which texts and patterns the
two say the same is a matter of the alphabet (`iLike_in_memory_and_store`): not on those with `ſ`,
which is an `s` in memory alone.
-/

namespace EntityQuery

open Text Sql

/-- Of a text the store says either that it is like a pattern once both are in lower case, or that
it is not. -/
theorem truth_iLike {row : Sql.Row} {column : ColumnName} {text : String}
    (hrow : row column = .text text) (pattern : String) :
    (Predicate.lowerLeaf column .iLike (.str pattern)).truth row =
        .ofBool (like (lower text) (lower pattern)) ∧
      (Predicate.lowerLeaf column .notILike (.str pattern)).truth row =
        .ofBool (!like (lower text) (lower pattern)) := by
  have hknown : ofKnown (.text text) (.text (lower pattern))
      (fun a b => if true then (lowered a).isLike b else a.isLike b) =
        .ofBool (like (lower text) (lower pattern)) := by
    simp only [ofKnown, Value.isNull, Value.toJson, lowered, Json.isLike, Bool.or_self, if_true,
      Bool.false_eq_true, if_false]
  constructor
  · show (Test.like column true false (lower pattern)).truth row = _
    rw [Test.truth, hrow, hknown, Truth.negate, if_neg Bool.false_ne_true]
  · show (Test.like column true true (lower pattern)).truth row = _
    rw [Test.truth, hrow, hknown]
    cases like (lower text) (lower pattern) <;> rfl

namespace Filter

/-- **Comparing but for case in memory and in the store.** Under every name of the two operators and
for every text and pattern, memory answers whether the text is made of pieces that fit the pattern
up to folding, and the store whether the text in lower case is made of pieces that fit the pattern
in lower case; on each side `notILike` is the complement. The two agree for all texts and patterns
over an alphabet exactly when its characters are plain and folding makes the same ones equal that
lower-casing does, as over the characters outside the uneven ranges. -/
theorem iLike_in_memory_and_store {iLike notILike : String}
    (hiLike : Operator.ofName? iLike = some .iLike)
    (hnotILike : Operator.ofName? notILike = some .notILike) :
    (∀ text pattern : String,
      (∀ field record, record.getOrNull field = .str text →
        (empty.compare field iLike (.str pattern)).accepts record =
            .ok (likeFolded text pattern) ∧
          (empty.compare field notILike (.str pattern)).accepts record =
            .ok (!likeFolded text pattern)) ∧
      (∀ field (naming : Naming) (row : Sql.Row), row (naming ⟨[], field⟩) = .text text →
        ∃ p q, (empty.compare field iLike (.str pattern)).compile = .ok p ∧
          (empty.compare field notILike (.str pattern)).compile = .ok q ∧
          (p.lower naming).truth row = .ofBool (like (lower text) (lower pattern)) ∧
          (q.lower naming).truth row = .ofBool (!like (lower text) (lower pattern))) ∧
      (likeFolded text pattern = true ↔ ∃ pieces,
        List.Forall₂ (Pattern.FitsUpTo fun c d => foldChar c = foldChar d) pattern.toList pieces ∧
          text.toList = pieces.flatten) ∧
      (like (lower text) (lower pattern) = true ↔ ∃ pieces,
        List.Forall₂ Pattern.Fits (lower pattern).toList pieces ∧
          (lower text).toList = pieces.flatten)) ∧
    (∀ S : Char → Prop,
      (∀ text pattern : String, (∀ c ∈ text.toList, S c) →
        (∀ c ∈ pattern.toList, c = '%' ∨ c = '_' ∨ S c) →
          likeFolded text pattern = like (lower text) (lower pattern)) ↔ FoldsAsLowered S) ∧
    FoldsAsLowered IsEven := by
  refine ⟨fun text pattern => ⟨?_, ?_, likeFolded_iff, like_iff⟩, agrees_iff_foldsAsLowered,
    foldsAsLowered_isEven⟩
  · intro field record hrecord
    rw [accepts_compare_empty hiLike rfl, accepts_compare_empty hnotILike rfl, hrecord]
    exact ⟨rfl, rfl⟩
  · intro field naming row hrow
    obtain ⟨hlike, hnot⟩ := truth_iLike hrow pattern
    exact ⟨_, _, compile_compare_empty hiLike rfl field, compile_compare_empty hnotILike rfl field,
      hlike, hnot⟩

/-- A pattern in capitals with an accent, in memory and in the store. -/
theorem iLike_summer :
    (empty.compare "title" "ilike" (.str "É_É%")).accepts (.obj [("title", .str "été 24")]) =
        .ok true ∧
      ∃ p, (empty.compare "title" "ilike" (.str "É_É%")).compile = .ok p ∧
        p.Selects (.obj [("title", .str "été 24")]) := by
  obtain ⟨hsides, halphabets, heven⟩ := @iLike_in_memory_and_store "ilike" "notilike" rfl rfl
  obtain ⟨hmemory, hstore, hpieces, -⟩ := hsides "été 24" "É_É%"
  have hfits : List.Forall₂ (Pattern.FitsUpTo fun c d => foldChar c = foldChar d)
      ['É', '_', 'É', '%'] [['é'], ['t'], ['é'], [' ', '2', '4']] :=
    .cons (.self (by decide) (by decide) (by decide +kernel)) (.cons (.one 't')
      (.cons (.self (by decide) (by decide) (by decide +kernel)) (.cons (.run _) .nil)))
  have hlike : likeFolded "été 24" "É_É%" = true := hpieces.2 ⟨_, hfits, rfl⟩
  have htext : ∀ c ∈ ['é', 't', 'é', ' ', '2', '4'], IsEven c := by
    simp only [List.mem_cons, List.not_mem_nil, or_false, forall_eq_or_imp, forall_eq]
    decide +kernel
  have hpattern : ∀ c ∈ ['É', '_', 'É', '%'], c = '%' ∨ c = '_' ∨ IsEven c := by
    simp only [List.mem_cons, List.not_mem_nil, or_false, forall_eq_or_imp, forall_eq]
    decide +kernel
  have hlower : like (lower "été 24") (lower "É_É%") = true := by
    rw [← (halphabets IsEven).2 heven "été 24" "É_É%" htext hpattern, hlike]
  refine ⟨?_, ?_⟩
  · rw [(hmemory "title" _ rfl).1, hlike]
  · obtain ⟨p, -, hp, -, htruth, -⟩ :=
      hstore "title" .plain (.ofRecord (.obj [("title", .str "été 24")])) rfl
    exact ⟨p, hp, htruth.trans (by rw [hlower]; rfl)⟩

/-- The long `ſ` folds to `s` but is in lower case already: memory takes it for an `s`, the store
does not. -/
theorem iLike_long_s :
    (empty.compare "name" "iLike" (.str "s")).accepts (.obj [("name", .str "ſ")]) = .ok true ∧
      (empty.compare "name" "like" (.str (lower "s"))).accepts
        (.obj [("name", .str (lower "ſ"))]) = .ok false ∧
      ∃ p, (empty.compare "name" "iLike" (.str "s")).compile = .ok p ∧
        ¬p.Selects (.obj [("name", .str "ſ")]) := by
  refine ⟨by rfl, by rfl, _, rfl, ?_⟩
  decide +kernel

end Filter

end EntityQuery
