import EntityQuery.Number.Binary64
import Mathlib.Algebra.Ring.Int.Defs
import Mathlib.Algebra.Ring.Nat

/-!
# Integers as floating-point numbers

The word closest to an integer keeps 53 significant bits of it. `rounded` says which integer that
leaves: the nearest multiple of the unit of 53 bits, an exact half going to the even one. In the
numeric order the words stand as these integers do (`order_ofInt_le_iff`), as far as the numbers
reach. Rounding turns no order around (`rounded_mono`) and moves an integer of 64 bits by no more
than `2^10` (`rounded_near`), but it may merge different integers; up to `2^53` on either side of
zero it leaves them as they are (`rounded_eq_self`).
-/

namespace EntityQuery.Binary64

/-! ## Division to the nearest natural -/

theorem divToEven_cases (num den : Nat) :
    divToEven num den = num / den ∨ divToEven num den = num / den + 1 := by
  unfold divToEven
  dsimp only
  split
  · exact .inr rfl
  · exact .inl rfl

theorem divToEven_one (num : Nat) : divToEven num 1 = num := by
  simp [divToEven, Nat.mod_one]

theorem divToEven_mul (quotient : Nat) {den : Nat} (hden : 0 < den) :
    divToEven (quotient * den) den = quotient := by
  have hmod : quotient * den % den = 0 := Nat.mul_mod_left quotient den
  have hdiv : quotient * den / den = quotient := Nat.mul_div_cancel quotient hden
  unfold divToEven
  dsimp only
  rw [hmod, hdiv, if_neg]
  omega

theorem divToEven_mono {m n : Nat} (h : m ≤ n) (den : Nat) : divToEven m den ≤ divToEven n den := by
  have hquotient : m / den ≤ n / den := Nat.div_le_div_right h
  rcases Nat.lt_or_eq_of_le hquotient with hlt | heq
  · have hm := divToEven_cases m den
    have hn := divToEven_cases n den
    omega
  · -- of one quotient, the one with the greater remainder is rounded up first
    have hm := Nat.div_add_mod m den
    have hn := Nat.div_add_mod n den
    have hmod : m % den ≤ n % den := by
      rw [heq] at hm
      omega
    unfold divToEven
    dsimp only
    rw [heq]
    split
    · next hup =>
      have hup : den < 2 * (n % den) ∨ 2 * (n % den) = den ∧ n / den % 2 = 1 := by omega
      exact Nat.le_of_eq (if_pos hup).symm
    · split <;> omega

/-- Nothing is moved by more than half the divisor. -/
theorem divToEven_near (num : Nat) {den : Nat} (hden : 0 < den) :
    2 * num ≤ 2 * (divToEven num den * den) + den ∧
      2 * (divToEven num den * den) ≤ 2 * num + den := by
  have hnum := Nat.div_add_mod' num den
  have hmod := Nat.mod_lt num hden
  unfold divToEven
  dsimp only
  split
  · rw [Nat.add_mul, Nat.one_mul]
    omega
  · omega

/-! ## Naturals of 53 significant bits -/

/-- The distance between the naturals of 53 significant bits about a natural. -/
def unit (n : Nat) : Nat := 2 ^ (n.log2 - 52)

/-- The nearest natural of 53 significant bits. -/
def roundedNat (n : Nat) : Nat := divToEven n (unit n) * unit n

/-- The significand of that natural; it is `2^53` where rounding carries. -/
def significandNear (n : Nat) : Nat := divToEven (n * 2 ^ (52 - n.log2)) (unit n)

theorem unit_pos (n : Nat) : 0 < unit n := Nat.two_pow_pos _

/-- A natural with its leading bit at place 52, be it moved up or counted in units. -/
theorem scaled_bounds {n : Nat} (hn : n ≠ 0) :
    2 ^ 52 * unit n ≤ n * 2 ^ (52 - n.log2) ∧ n * 2 ^ (52 - n.log2) ≤ 2 ^ 53 * unit n := by
  have hlow : 2 ^ 52 * unit n = 2 ^ n.log2 * 2 ^ (52 - n.log2) := by
    rw [unit, ← Nat.pow_add, ← Nat.pow_add]
    congr 1
    omega
  have hhigh : 2 ^ 53 * unit n = 2 ^ (n.log2 + 1) * 2 ^ (52 - n.log2) := by
    rw [unit, ← Nat.pow_add, ← Nat.pow_add]
    congr 1
    omega
  rw [hlow, hhigh]
  exact ⟨Nat.mul_le_mul_right _ (Nat.log2_self_le hn),
    Nat.mul_le_mul_right _ (Nat.le_of_lt Nat.lt_log2_self)⟩

theorem significandNear_bounds {n : Nat} (hn : n ≠ 0) :
    2 ^ 52 ≤ significandNear n ∧ significandNear n ≤ 2 ^ 53 := by
  obtain ⟨hlow, hhigh⟩ := scaled_bounds hn
  have hlow := divToEven_mono hlow (unit n)
  have hhigh := divToEven_mono hhigh (unit n)
  rw [divToEven_mul _ (unit_pos n)] at hlow hhigh
  exact ⟨hlow, hhigh⟩

theorem roundedNat_mul (n : Nat) : roundedNat n * 2 ^ 52 = significandNear n * 2 ^ n.log2 := by
  rcases Nat.le_total n.log2 52 with h | h
  · have hunit : unit n = 1 := by rw [unit, Nat.sub_eq_zero_of_le h, Nat.pow_zero]
    rw [roundedNat, significandNear, hunit, divToEven_one, divToEven_one, Nat.mul_one,
      Nat.mul_assoc, ← Nat.pow_add, Nat.sub_add_cancel h]
  · rw [roundedNat, significandNear, Nat.sub_eq_zero_of_le h, Nat.pow_zero, Nat.mul_one,
      Nat.mul_assoc, unit, ← Nat.pow_add, Nat.sub_add_cancel h]

/-! ## The words closest to naturals -/

theorem scaleOf_one {n : Nat} (hn : n ≠ 0) : scaleOf n 1 = (n.log2 : Int) - 52 := by
  have hlog : Nat.log2 1 = 0 := by decide
  have hkeeps : 1 <<< n.log2 ≤ n <<< 0 := by
    rw [Nat.one_shiftLeft, Nat.shiftLeft_zero]
    exact Nat.log2_self_le hn
  unfold scaleOf
  dsimp only
  rw [hlog, show (52 + ((n.log2 : Int) - (0 : Nat) - 52)).toNat = n.log2 by omega,
    show (-(52 + ((n.log2 : Int) - (0 : Nat) - 52))).toNat = 0 by omega, if_pos hkeeps]
  omega

theorem nearestMagnitude_one {n : Nat} (hn : n ≠ 0) :
    nearestMagnitude n 1 =
      min ((n.log2 + 1022) * exponentPlace + significandNear n) infinity := by
  unfold nearestMagnitude
  dsimp only
  rw [if_neg hn, scaleOf_one hn, scaledToEven, Nat.shiftLeft_eq, Nat.shiftLeft_eq, Nat.one_mul,
    show ((n.log2 : Int) - 52 + 1074).toNat = n.log2 + 1022 by omega,
    show (-((n.log2 : Int) - 52)).toNat = 52 - n.log2 by omega,
    show ((n.log2 : Int) - 52).toNat = n.log2 - 52 by omega]
  rfl

/-- Places of words compare as the numbers that they denote: a step of the exponent is worth as much
as the significand can grow. -/
theorem place_le_place_iff {k l p q : Nat} (hp : 2 ^ 52 ≤ p ∧ p ≤ 2 ^ 53)
    (hq : 2 ^ 52 ≤ q ∧ q ≤ 2 ^ 53) :
    (k + 1022) * exponentPlace + p ≤ (l + 1022) * exponentPlace + q ↔ p * 2 ^ k ≤ q * 2 ^ l := by
  unfold exponentPlace
  have hshift : ∀ m i j, m * 2 ^ (i + j) = m * 2 ^ j * 2 ^ i := fun m i j => by
    rw [Nat.mul_assoc, ← Nat.pow_add, Nat.add_comm j i]
  rcases Nat.lt_trichotomy k l with hlt | rfl | hlt
  · obtain ⟨j, rfl⟩ := Nat.exists_eq_add_of_lt hlt
    have htwo : 2 ≤ 2 ^ (j + 1) := Nat.le_self_pow (by omega) 2
    have hsignificand : p ≤ q * 2 ^ (j + 1) :=
      Nat.le_trans hp.2 (Nat.mul_le_mul hq.1 htwo)
    rw [Nat.add_assoc k, hshift]
    exact iff_of_true (by omega) (Nat.mul_le_mul_right _ hsignificand)
  · rw [Nat.add_le_add_iff_left, Nat.mul_le_mul_right_iff (Nat.two_pow_pos k)]
  · obtain ⟨j, rfl⟩ := Nat.exists_eq_add_of_lt hlt
    rw [Nat.add_assoc l, hshift, Nat.mul_le_mul_right_iff (Nat.two_pow_pos l)]
    -- the carry is the only significand that reaches the next exponent
    cases j with
    | zero => omega
    | succ j =>
      have hfour : 4 ≤ 2 ^ (j + 1 + 1) := by
        have hpos := Nat.two_pow_pos j
        rw [Nat.pow_succ, Nat.pow_succ]
        omega
      have hsignificand : 2 ^ 52 * 4 ≤ p * 2 ^ (j + 1 + 1) := Nat.mul_le_mul hp.1 hfour
      exact iff_of_false (by omega) (by omega)

/-- A natural of 1024 bits comes no further than to the place of infinity, by rounding. -/
theorem place_le_infinity {n : Nat} (hn : n ≠ 0) (hlog : n.log2 < 1024) :
    (n.log2 + 1022) * exponentPlace + significandNear n ≤ infinity := by
  have hsignificand := (significandNear_bounds hn).2
  unfold infinity exponentPlace
  omega

/-- The words closest to two naturals stand in the order of the rounded naturals. -/
theorem nearestMagnitude_le_iff {m n : Nat} (hm : m.log2 < 1024) (hn : n.log2 < 1024) :
    nearestMagnitude m 1 ≤ nearestMagnitude n 1 ↔ roundedNat m ≤ roundedNat n := by
  have hscale : roundedNat m ≤ roundedNat n ↔ roundedNat m * 2 ^ 52 ≤ roundedNat n * 2 ^ 52 :=
    (Nat.mul_le_mul_right_iff (Nat.two_pow_pos 52)).symm
  rcases Nat.eq_zero_or_pos m with rfl | hpos
  · exact iff_of_true (Nat.zero_le _) (Nat.zero_le _)
  have hm0 : m ≠ 0 := Nat.ne_of_gt hpos
  have hbounds := significandNear_bounds hm0
  rw [hscale, roundedNat_mul, roundedNat_mul, nearestMagnitude_one hm0,
    Nat.min_eq_left (place_le_infinity hm0 hm)]
  rcases Nat.eq_zero_or_pos n with rfl | hpos
  · have hleft : 0 < significandNear m * 2 ^ m.log2 := Nat.mul_pos (by omega) (Nat.two_pow_pos _)
    have hright : significandNear 0 * 2 ^ Nat.log2 0 = 0 := rfl
    have hzero : nearestMagnitude 0 1 = 0 := rfl
    exact iff_of_false (by omega) (by omega)
  · have hn0 : n ≠ 0 := Nat.ne_of_gt hpos
    rw [nearestMagnitude_one hn0, Nat.min_eq_left (place_le_infinity hn0 hn)]
    exact place_le_place_iff hbounds (significandNear_bounds hn0)

theorem roundedNat_mono {m n : Nat} (h : m ≤ n) : roundedNat m ≤ roundedNat n := by
  rcases Nat.eq_zero_or_pos m with rfl | hm
  · exact Nat.zero_le _
  have hm : m ≠ 0 := Nat.ne_of_gt hm
  have hn : n ≠ 0 := by omega
  have hlog : m.log2 ≤ n.log2 := (Nat.le_log2 hn).2 (Nat.le_trans (Nat.log2_self_le hm) h)
  rcases Nat.lt_or_eq_of_le hlog with hlt | heq
  · -- a power of two lies between the two
    have hpow : 2 ^ (m.log2 + 1) ≤ 2 ^ n.log2 := Nat.pow_le_pow_right (by decide) hlt
    have hrounded : roundedNat m * 2 ^ 52 ≤ roundedNat n * 2 ^ 52 :=
      calc roundedNat m * 2 ^ 52 = significandNear m * 2 ^ m.log2 := roundedNat_mul m
        _ ≤ 2 ^ 53 * 2 ^ m.log2 := Nat.mul_le_mul_right _ (significandNear_bounds hm).2
        _ = 2 ^ 52 * 2 ^ (m.log2 + 1) := by omega
        _ ≤ significandNear n * 2 ^ n.log2 := Nat.mul_le_mul (significandNear_bounds hn).1 hpow
        _ = roundedNat n * 2 ^ 52 := (roundedNat_mul n).symm
    exact Nat.le_of_mul_le_mul_right hrounded (Nat.two_pow_pos 52)
  · have hunit : unit m = unit n := by rw [unit, unit, heq]
    rw [roundedNat, roundedNat, hunit]
    exact Nat.mul_le_mul_right _ (divToEven_mono h _)

theorem roundedNat_of_unit_dvd {n : Nat} (h : unit n ∣ n) : roundedNat n = n := by
  have hn : n / unit n * unit n = n := Nat.div_mul_cancel h
  calc roundedNat n = divToEven (n / unit n * unit n) (unit n) * unit n := by rw [hn, roundedNat]
    _ = n / unit n * unit n := by rw [divToEven_mul _ (unit_pos n)]
    _ = n := hn

theorem roundedNat_eq_self {n : Nat} (h : n ≤ 2 ^ 53) : roundedNat n = n := by
  apply roundedNat_of_unit_dvd
  rcases Nat.lt_or_eq_of_le h with hlt | rfl
  · rcases Nat.eq_zero_or_pos n with rfl | hpos
    · exact Nat.dvd_zero _
    · have hlog : n.log2 < 53 := (Nat.log2_lt (Nat.ne_of_gt hpos)).2 hlt
      have hunit : unit n = 1 := by
        rw [unit, Nat.sub_eq_zero_of_le (by omega), Nat.pow_zero]
      exact hunit ▸ Nat.one_dvd n
  · rw [unit, Nat.log2_two_pow]
    exact Nat.pow_dvd_pow 2 (by decide)

/-! ## The words closest to integers -/

/-- The nearest integer of 53 significant bits. -/
def rounded (n : Int) : Int :=
  if n < 0 then -(roundedNat n.natAbs : Int) else roundedNat n.natAbs

theorem order_ofMagnitude (negative : Bool) {m : Nat} (h : m < signPlace) :
    (ofMagnitude negative m).order = if negative then -(m : Int) else m := by
  unfold signPlace at h
  have hbits : (ofMagnitude negative m).bits.toNat = m + if negative then signPlace else 0 := by
    rw [ofMagnitude, UInt64.toNat_ofNat', Nat.mod_eq_of_lt h]
    apply Nat.mod_eq_of_lt
    unfold signPlace
    split <;> omega
  unfold order isNegative magnitude
  rw [hbits]
  unfold signPlace
  cases negative <;> simp <;> omega

theorem order_ofInt (n : Int) : (ofInt n).order =
    if n < 0 then -(nearestMagnitude n.natAbs 1 : Int) else nearestMagnitude n.natAbs 1 := by
  have hfinite : nearestMagnitude n.natAbs 1 < signPlace := by
    have hinfinity : infinity < signPlace := by decide
    unfold nearestMagnitude
    dsimp only
    split
    · decide
    · exact Nat.lt_of_le_of_lt (Nat.min_le_right _ _) hinfinity
  rw [ofInt, nearest, order_ofMagnitude _ hfinite]
  simp only [decide_eq_true_eq]

/-- The words closest to two integers stand in the order of the rounded integers. -/
theorem order_ofInt_le_iff {a b : Int} (ha : a.natAbs.log2 < 1024) (hb : b.natAbs.log2 < 1024) :
    (ofInt a).order ≤ (ofInt b).order ↔ rounded a ≤ rounded b := by
  have hab := nearestMagnitude_le_iff ha hb
  have hba := nearestMagnitude_le_iff hb ha
  have hlog : Nat.log2 0 < 1024 := by decide
  have ha0 := nearestMagnitude_le_iff ha hlog
  have hb0 := nearestMagnitude_le_iff hb hlog
  have hzero : nearestMagnitude 0 1 = 0 := rfl
  have hrounded : roundedNat 0 = 0 := rfl
  rw [order_ofInt, order_ofInt, rounded, rounded]
  split <;> split <;> omega

/-- Rounding turns no order around. -/
theorem rounded_mono {a b : Int} (h : a ≤ b) : rounded a ≤ rounded b := by
  unfold rounded
  split
  · split
    · have hmono : roundedNat b.natAbs ≤ roundedNat a.natAbs := roundedNat_mono (by omega)
      omega
    · omega
  · have hmono : roundedNat a.natAbs ≤ roundedNat b.natAbs := roundedNat_mono (by omega)
    split <;> omega

/-- An integer of 64 bits is moved by `2^10` at most. -/
theorem rounded_near {n : Int} (h : n.natAbs.log2 < 64) :
    n ≤ rounded n + 2 ^ 10 ∧ rounded n ≤ n + 2 ^ 10 := by
  have hunit : unit n.natAbs ≤ 2 ^ 11 := Nat.pow_le_pow_right (by decide) (by omega)
  have hnear := divToEven_near n.natAbs (unit_pos n.natAbs)
  have hrounded : roundedNat n.natAbs = divToEven n.natAbs (unit n.natAbs) * unit n.natAbs := rfl
  unfold rounded
  split <;> omega

/-- Up to `2^53` on either side of zero there is nothing to round. -/
theorem rounded_eq_self {n : Int} (h : n.natAbs ≤ 2 ^ 53) : rounded n = n := by
  rw [rounded, roundedNat_eq_self h]
  split <;> omega

end EntityQuery.Binary64
