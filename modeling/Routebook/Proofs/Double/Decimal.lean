/-
  Routebook.Proofs.Double.Decimal

  Decimals and the numbers nearest to them.  How a decimal is spelled does
  not matter for its rank (`rankOfDecimal_shift`); the shortest decimal of a
  rank has that rank (`rankOfDecimal_shortest`), and a decimal whose rank is a
  finite one above zero is read as the number of this rank
  (`ofDecimal_of_rank`).
-/
import Mathlib.Algebra.Group.Nat.Defs
import Routebook.Double.Shortest

namespace Routebook.Double

/-! ## Ratios -/

theorem rankOfRatio_eq (num den : Nat) :
    rankOfRatio num den
      = ((num * unitsInOne / den).log2 - 52) * 2 ^ 52
        + roundHalfEven (num * unitsInOne) (den * 2 ^ ((num * unitsInOne / den).log2 - 52)) := rfl

theorem roundHalfEven_mul_left {c : Nat} (hc : 0 < c) (num den : Nat) :
    roundHalfEven (c * num) (c * den) = roundHalfEven num den := by
  have hless : 2 * (c * (num % den)) < c * den ↔ 2 * (num % den) < den := by
    rw [Nat.mul_left_comm, Nat.mul_lt_mul_left hc]
  have hmore : c * den < 2 * (c * (num % den)) ↔ den < 2 * (num % den) := by
    rw [Nat.mul_left_comm, Nat.mul_lt_mul_left hc]
  simp only [roundHalfEven, Nat.mul_div_mul_left _ _ hc, Nat.mul_mod_mul_left, hless, hmore]

/-- A ratio and its multiples have one rank. -/
theorem rankOfRatio_mul_left {c : Nat} (hc : 0 < c) (num den : Nat) :
    rankOfRatio (c * num) (c * den) = rankOfRatio num den := by
  simp only [rankOfRatio, Nat.mul_assoc, Nat.mul_div_mul_left _ _ hc,
    roundHalfEven_mul_left hc]

theorem div_le_roundHalfEven (num den : Nat) : num / den ≤ roundHalfEven num den := by
  simp only [roundHalfEven]
  split
  · exact Nat.le_refl _
  · split <;> omega

theorem roundHalfEven_of_lt {num den : Nat} (h : 2 * num < den) : roundHalfEven num den = 0 := by
  have hdiv : num / den = 0 := Nat.div_eq_of_lt (by omega)
  have hmod : num % den = num := Nat.mod_eq_of_lt (by omega)
  simp only [roundHalfEven, hdiv, hmod, if_pos h]

theorem roundHalfEven_exact (q : Nat) {den : Nat} (hden : 0 < den) :
    roundHalfEven (q * den) den = q := by
  have hdiv : q * den / den = q := Nat.mul_div_cancel q hden
  have hmod : q * den % den = 0 := Nat.mul_mod_left q den
  simp only [roundHalfEven, hdiv, hmod]
  rw [if_pos (by omega)]

/-- A ratio far below the smallest magnitude is nearest to zero. -/
theorem rankOfRatio_eq_zero {num den : Nat} (h : 2 * (num * unitsInOne) < den) :
    rankOfRatio num den = 0 := by
  have hdiv : num * unitsInOne / den = 0 := Nat.div_eq_of_lt (by omega)
  unfold rankOfRatio
  simp only [hdiv]
  rw [show Nat.log2 0 - 52 = 0 from rfl]
  rw [Nat.zero_mul, Nat.zero_add]
  exact roundHalfEven_of_lt (by simpa using h)

theorem rankOfRatio_zero (den : Nat) : rankOfRatio 0 den = 0 := by
  unfold rankOfRatio
  simp [roundHalfEven]

theorem unitsInOne_pos : 0 < unitsInOne := Nat.pow_pos (by decide)

theorem units_of_lt {rank : Nat} (h : rank < 2 ^ 52) : units rank = rank := by
  have hscale : scale rank = 0 := by
    unfold scale
    rw [Nat.div_eq_of_lt (show rank < Nat.pow 2 52 from h)]
  unfold units significand
  rw [if_pos (show rank < Nat.pow 2 52 from h), hscale]
  exact Nat.mul_one rank

theorem units_of_le {rank : Nat} (h : 2 ^ 52 ≤ rank) :
    units rank = (2 ^ 52 + rank % 2 ^ 52) * 2 ^ (rank / 2 ^ 52 - 1) := by
  unfold units significand scale
  rw [if_neg (show ¬ rank < Nat.pow 2 52 from Nat.not_lt.mpr h)]
  rfl

/-- A magnitude of 53 bits, moved up by the scale of its rank. -/
theorem log2_units {rank : Nat} (h : 2 ^ 52 ≤ rank) :
    (units rank).log2 = 52 + (rank / 2 ^ 52 - 1) := by
  have hpos : 0 < 2 ^ (rank / 2 ^ 52 - 1) := Nat.pow_pos (by decide)
  have hlow : 2 ^ (52 + (rank / 2 ^ 52 - 1)) ≤ units rank := by
    rw [units_of_le h, Nat.pow_add]
    exact Nat.mul_le_mul_right _ (Nat.le_add_right _ _)
  have hhigh : units rank < 2 ^ (52 + (rank / 2 ^ 52 - 1) + 1) := by
    rw [units_of_le h, show 52 + (rank / 2 ^ 52 - 1) + 1 = 53 + (rank / 2 ^ 52 - 1) by omega,
      Nat.pow_add]
    exact Nat.mul_lt_mul_of_pos_right (by omega) hpos
  have hne : units rank ≠ 0 := by
    have : 0 < 2 ^ (52 + (rank / 2 ^ 52 - 1)) := Nat.pow_pos (by decide)
    omega
  exact (Nat.log2_eq_iff hne).mpr ⟨hlow, hhigh⟩

/-- A magnitude that is a multiple of a power of two is rounded to no other. -/
theorem roundHalfEven_units {rank s q : Nat} (h : units rank = q * 2 ^ s) :
    roundHalfEven (units rank * unitsInOne) (unitsInOne * 2 ^ s) = q := by
  have hden : 0 < unitsInOne * 2 ^ s := Nat.mul_pos unitsInOne_pos (Nat.pow_pos (by decide))
  have hnum : units rank * unitsInOne = q * (unitsInOne * 2 ^ s) := by
    rw [h, Nat.mul_assoc, Nat.mul_comm (2 ^ s)]
  rw [hnum, roundHalfEven_exact q hden]

/-- Every magnitude is nearest to itself. -/
theorem rankOfRatio_units (rank : Nat) : rankOfRatio (units rank) unitsInOne = rank := by
  have hdiv : units rank * unitsInOne / unitsInOne = units rank :=
    Nat.mul_div_cancel _ unitsInOne_pos
  rw [rankOfRatio_eq, hdiv]
  by_cases hsmall : rank < 2 ^ 52
  · -- Small magnitudes are their own ranks, with nothing to scale.
    have hunits := units_of_lt hsmall
    have hlog : (units rank).log2 - 52 = 0 := by
      rw [hunits]
      by_cases h0 : rank = 0
      · rw [h0]; rfl
      · have := (Nat.log2_lt h0).mpr hsmall
        omega
    have hself : units rank = rank * 2 ^ 0 := by rw [hunits, Nat.pow_zero, Nat.mul_one]
    rw [hlog, roundHalfEven_units hself]
    omega
  · -- For all others the logarithm gives the scale back.
    have hlarge : 2 ^ 52 ≤ rank := Nat.le_of_not_lt hsmall
    have hq : 1 ≤ rank / 2 ^ 52 := (Nat.one_le_div_iff (by decide)).mpr hlarge
    rw [log2_units hlarge, Nat.add_sub_cancel_left, roundHalfEven_units (units_of_le hlarge)]
    omega

/-- A ratio beyond the largest magnitude has no finite rank. -/
theorem rankBound_le_rankOfRatio {num den : Nat} (hden : 0 < den) (h : 2 ^ 1024 * den ≤ num) :
    rankBound ≤ rankOfRatio num den := by
  rw [rankOfRatio_eq]
  generalize hq : num * unitsInOne / den = q
  have hlarge : 2 ^ (1024 + 1074) ≤ q := by
    rw [← hq, Nat.le_div_iff_mul_le hden, Nat.pow_add, Nat.mul_right_comm]
    exact Nat.mul_le_mul_right _ h
  have hne : q ≠ 0 := by
    have : 0 < 2 ^ (1024 + 1074) := Nat.pow_pos (by decide)
    exact Nat.ne_of_gt (Nat.lt_of_lt_of_le this hlarge)
  -- The scale is at least 2046, and rounding adds at least one step of it.
  have hlog : 1024 + 1074 ≤ q.log2 := (Nat.le_log2 hne).mpr hlarge
  obtain ⟨s, hs⟩ : ∃ s, q.log2 = 52 + s := ⟨q.log2 - 52, by omega⟩
  have hround : 2 ^ 52 ≤ roundHalfEven (num * unitsInOne) (den * 2 ^ s) := by
    refine Nat.le_trans ?_ (div_le_roundHalfEven _ _)
    rw [← Nat.div_div_eq_div_mul, hq, Nat.le_div_iff_mul_le (Nat.pow_pos (by decide)),
      ← Nat.pow_add, ← hs]
    exact Nat.log2_self_le hne
  rw [hs, Nat.add_sub_cancel_left]
  show 2047 * 2 ^ 52 ≤ _
  omega

/-! ## Decimals -/

theorem rankOfDecimal_of_nonneg (n : Nat) (k : Nat) :
    rankOfDecimal ⟨n, k⟩ = rankOfRatio (n * 10 ^ k) 1 := rfl

theorem rankOfDecimal_of_neg (n : Nat) (k : Nat) :
    rankOfDecimal ⟨n, -(k : Int)⟩ = rankOfRatio n (10 ^ k) := by
  cases k with
  | zero => exact congrArg (fun m => rankOfRatio m 1) (Nat.mul_one n)
  | succ k => rfl

/-- One more zero at the end of the digits, one power of ten less. -/
theorem rankOfDecimal_ten_mul (n : Nat) (power : Int) :
    rankOfDecimal ⟨n * 10, power⟩ = rankOfDecimal ⟨n, power + 1⟩ := by
  -- Below zero a factor ten leaves numerator and denominator, else it changes sides.
  rcases Int.lt_or_le power 0 with hneg | hpos
  · obtain ⟨k, rfl⟩ : ∃ k : Nat, power = -((k + 1 : Nat) : Int) := ⟨(-power).toNat - 1, by omega⟩
    have hnext : -((k + 1 : Nat) : Int) + 1 = -(k : Int) := by omega
    rw [hnext, rankOfDecimal_of_neg, rankOfDecimal_of_neg, Nat.pow_succ, Nat.mul_comm n,
      Nat.mul_comm (10 ^ k), rankOfRatio_mul_left (by decide)]
  · obtain ⟨k, rfl⟩ : ∃ k : Nat, power = (k : Int) := ⟨power.toNat, by omega⟩
    have hnext : (k : Int) + 1 = ((k + 1 : Nat) : Int) := by omega
    rw [hnext, rankOfDecimal_of_nonneg, rankOfDecimal_of_nonneg, Nat.pow_succ, Nat.mul_assoc,
      Nat.mul_comm 10]

/-- Zeros at the end of the digits make up for powers of ten. -/
theorem rankOfDecimal_shift (n k : Nat) (power : Int) :
    rankOfDecimal ⟨n * 10 ^ k, power - k⟩ = rankOfDecimal ⟨n, power⟩ := by
  induction k generalizing power with
  | zero => simp
  | succ k ih =>
      have hstep : power - ((k + 1 : Nat) : Int) + 1 = power - k := by omega
      rw [Nat.pow_succ, ← Nat.mul_assoc, rankOfDecimal_ten_mul, hstep, ih]

theorem rankOfDecimal_trim (fuel : Nat) (d : Decimal) :
    rankOfDecimal (d.trim fuel) = rankOfDecimal d := by
  induction fuel generalizing d with
  | zero => rfl
  | succ fuel ih =>
      rw [Decimal.trim]
      split
      · next h =>
          rw [ih, ← rankOfDecimal_ten_mul, Nat.div_mul_cancel (Nat.dvd_of_mod_eq_zero h.1)]
      · rfl

theorem rankOfDecimal_of_pick {rank low : Nat} {near : Bool} {power : Int} {d : Decimal}
    (h : pick rank low near power = some d) : rankOfDecimal d = rank := by
  -- Which neighbour is tried first does not matter.
  obtain ⟨first, second, hpick⟩ : ∃ a b, pick rank low near power
      = if rankOfDecimal a = rank then some a
        else if rankOfDecimal b = rank then some b else none := ⟨_, _, rfl⟩
  rw [hpick] at h
  split at h
  · next hfirst => rw [← Option.some.inj h, hfirst]
  · split at h
    · next hsecond => rw [← Option.some.inj h, hsecond]
    · exact absurd h (by simp)

theorem rankOfDecimal_of_search {rank num den : Nat} {lead : Int} {fuel : Nat} {d : Decimal}
    (h : search rank num den lead fuel = some d) : rankOfDecimal d = rank := by
  induction fuel with
  | zero => exact absurd h (by simp [search])
  | succ fuel ih =>
      unfold search at h
      simp only at h
      split at h
      · next hpick => rw [← Option.some.inj h, rankOfDecimal_of_pick hpick]
      · exact ih h

theorem rankOfDecimal_exactDecimal (rank : Nat) : rankOfDecimal (exactDecimal rank) = rank := by
  -- For any exponent, so that no power has to be computed.
  have hpow (n k : Nat) : rankOfDecimal ⟨n * 5 ^ k, -(k : Int)⟩ = rankOfRatio n (2 ^ k) := by
    rw [rankOfDecimal_of_neg, show 10 = 5 * 2 from rfl, Nat.mul_pow, Nat.mul_comm n,
      rankOfRatio_mul_left (Nat.pow_pos (by decide))]
  exact (hpow (units rank) 1074).trans (rankOfRatio_units rank)

/-- The shortest decimal of a rank is nearest to the number of this rank. -/
theorem rankOfDecimal_shortest (rank : Nat) : rankOfDecimal (shortest rank) = rank := by
  unfold shortest
  simp only
  split
  · next h => rw [rankOfDecimal_trim, rankOfDecimal_of_search h]
  · exact rankOfDecimal_exactDecimal rank

/-! ## Reading decimals -/

theorem lt_pow_digitCount (n : Nat) : n < 10 ^ digitCount n :=
  (Nat.length_toDigits_le_iff (by decide) Nat.length_toDigits_pos).mp (Nat.le_refl _)

theorem pow_le_of_lt_digitCount {n k : Nat} (hn : n ≠ 0) (h : k < digitCount n) :
    10 ^ k ≤ n := by
  cases k with
  | zero => exact Nat.pos_of_ne_zero hn
  | succ k =>
      refine Nat.le_of_not_lt fun hlt => ?_
      exact Nat.not_le.mpr h ((Nat.length_toDigits_le_iff (by decide) (by omega)).mpr hlt)

theorem two_pow_le_ten_pow {a b : Nat} (h : a ≤ 3 * b) : 2 ^ a ≤ 10 ^ b :=
  calc 2 ^ a ≤ 2 ^ (3 * b) := Nat.pow_le_pow_right (by decide) h
    _ = (2 ^ 3) ^ b := Nat.pow_mul 2 3 b
    _ ≤ 10 ^ b := Nat.pow_le_pow_left (by decide) b

/-- Decimals with more than 400 digits before the point are beyond all numbers. -/
theorem rankBound_le_rankOfDecimal {n : Nat} {power : Int} (hn : n ≠ 0)
    (h : (digitCount n : Int) + power > 400) : rankBound ≤ rankOfDecimal ⟨n, power⟩ := by
  -- Four hundred digits are more than 1024 bits.
  have hbig (b : Nat) (hb : 400 ≤ b) : 2 ^ 1024 ≤ 10 ^ b := two_pow_le_ten_pow (by omega)
  rcases Int.lt_or_le power 0 with hneg | hpos
  · obtain ⟨k, rfl⟩ : ∃ k : Nat, power = -(k : Int) := ⟨(-power).toNat, by omega⟩
    have hlow : 10 ^ (400 + k) ≤ n := pow_le_of_lt_digitCount hn (by omega)
    rw [rankOfDecimal_of_neg]
    refine rankBound_le_rankOfRatio (Nat.pow_pos (by decide)) ?_
    rw [Nat.pow_add] at hlow
    exact Nat.le_trans (Nat.mul_le_mul_right _ (hbig 400 (Nat.le_refl _))) hlow
  · obtain ⟨k, rfl⟩ : ∃ k : Nat, power = (k : Int) := ⟨power.toNat, by omega⟩
    rw [rankOfDecimal_of_nonneg]
    refine rankBound_le_rankOfRatio (by decide) ?_
    have hcount : 0 < digitCount n := Nat.length_toDigits_pos
    calc 2 ^ 1024 * 1 = 2 ^ 1024 := Nat.mul_one _
      _ ≤ 10 ^ (digitCount n - 1 + k) := hbig _ (by omega)
      _ = 10 ^ (digitCount n - 1) * 10 ^ k := Nat.pow_add _ _ _
      _ ≤ n * 10 ^ k :=
        Nat.mul_le_mul_right _ (pow_le_of_lt_digitCount hn (by omega))

/-- Decimals that start 400 places behind the point are nearest to zero. -/
theorem rankOfDecimal_eq_zero {n : Nat} {power : Int}
    (h : (digitCount n : Int) + power < -400) : rankOfDecimal ⟨n, power⟩ = 0 := by
  obtain ⟨k, hk⟩ : ∃ k : Nat, power = -((digitCount n + 401 + k : Nat) : Int) :=
    ⟨(-power).toNat - (digitCount n + 401), by omega⟩
  rw [hk, rankOfDecimal_of_neg]
  refine rankOfRatio_eq_zero ?_
  -- For any exponent, so that no power has to be computed.
  have htwo (u a b : Nat) (hu : u = Nat.pow 2 a) (hab : a + 1 ≤ 3 * b) : 2 * u ≤ 10 ^ b := by
    have h : 2 ^ (a + 1) ≤ 10 ^ b := two_pow_le_ten_pow hab
    rwa [Nat.pow_succ, Nat.mul_comm, ← show u = 2 ^ a from hu] at h
  have hunits (b : Nat) (hb : 401 ≤ b) : 2 * unitsInOne ≤ 10 ^ b :=
    htwo unitsInOne 1074 b rfl (by omega)
  calc 2 * (n * unitsInOne) = n * (2 * unitsInOne) := Nat.mul_left_comm _ _ _
    _ ≤ n * 10 ^ (401 + k) := Nat.mul_le_mul_left _ (hunits _ (by omega))
    _ < 10 ^ digitCount n * 10 ^ (401 + k) :=
      Nat.mul_lt_mul_of_pos_right (lt_pow_digitCount n) (Nat.pow_pos (by decide))
    _ = 10 ^ (digitCount n + 401 + k) := by rw [← Nat.pow_add, Nat.add_assoc]

theorem rankOfDecimal_zero (power : Int) : rankOfDecimal ⟨0, power⟩ = 0 := by
  unfold rankOfDecimal
  simp only [Nat.zero_mul, rankOfRatio_zero]
  split <;> rfl

theorem ofRank_of_lt (negative : Bool) {rank : Nat} (h : rank < rankBound) :
    ofRank negative rank = .finite negative ⟨rank, h⟩ := dif_pos h

/-- A decimal with a finite rank above zero is read as the number of this rank. -/
theorem ofDecimal_of_rank (negative : Bool) {n : Nat} {power : Int}
    {rank : Nat} (h : rankOfDecimal ⟨n, power⟩ = rank) (hne : rank ≠ 0) (hlt : rank < rankBound) :
    ofDecimal negative n power = .finite negative ⟨rank, hlt⟩ := by
  have hn : n ≠ 0 := by
    rintro rfl
    exact hne (h.symm.trans (rankOfDecimal_zero power))
  -- What the number of digits settles alone has no finite rank above zero.
  have hhigh : ¬ (digitCount n : Int) + power > 400 := fun hgt =>
    Nat.not_le.mpr hlt (h ▸ rankBound_le_rankOfDecimal hn hgt)
  have hlow : ¬ (digitCount n : Int) + power < -400 := fun hlt =>
    hne (h.symm.trans (rankOfDecimal_eq_zero hlt))
  have hratio : ofDecimal negative n power = ofRank negative (rankOfDecimal ⟨n, power⟩) := by
    unfold ofDecimal rankOfDecimal
    simp only [if_neg hn, if_neg hhigh, if_neg hlow]
    split <;> rfl
  rw [hratio, h, ofRank_of_lt negative hlt]

end Routebook.Double
