import KaraokeAnything.Library.Binary64Quotients
import KaraokeAnything.Python

/-! What `round` returns: its sign, its size, and where it is defined; and which
quotients of integers are floats other than zero. -/
namespace KaraokeAnything.Python
open Binary64
open Float.Model (UnpackedFloat)

variable {x : Float} {n : Int}

theorem roundPositive (positive : NotNegative x.toModel.unpack) (rounded : round x = .ok n) :
    0 ≤ n := by
  unfold round at rounded
  split at rounded
  · contradiction
  · contradiction
  · cases rounded
    exact Int.le_refl 0
  · rename_i sign mantissa exponent some unpacked
    rw [unpacked] at positive
    cases positive
    cases rounded
    exact Int.natCast_nonneg _

theorem roundHalfEvenAtMost (numerator shift : Nat) :
    roundHalfEven numerator shift ≤ numerator / 2 ^ shift + 1 := by
  unfold roundHalfEven
  simp only
  split
  · omega
  · split
    · exact Nat.le_refl _
    · omega

theorem roundAtMost {k : Nat} (below : Below k x.toModel.unpack) (rounded : round x = .ok n) :
    n ≤ 2 ^ k := by
  unfold round at rounded
  split at rounded
  · contradiction
  · contradiction
  · cases rounded
    exact Int.pow_nonneg (by decide)
  · rename_i sign mantissa exponent some unpacked
    rw [unpacked] at below
    simp only [Below] at below
    have size : (if 0 ≤ exponent then mantissa * 2 ^ exponent.toNat
        else roundHalfEven mantissa (-exponent).toNat) ≤ 2 ^ k := by
      split
      · have total : (k - exponent).toNat + exponent.toNat = k := by
          by_contra far
          rw [Int.toNat_eq_zero.mpr (by omega)] at below
          omega
        rw [← total, Nat.pow_add]
        exact Nat.mul_le_mul_right _ (Nat.le_of_lt below)
      · refine (roundHalfEvenAtMost _ _).trans ?_
        rw [Nat.succ_le_iff, Nat.div_lt_iff_lt_mul (Nat.two_pow_pos _), ← Nat.pow_add]
        have total : k + (-exponent).toNat = (k - exponent).toNat := by omega
        rwa [total]
    have whole : ((2 ^ k : Nat) : Int) = 2 ^ k := by push_cast; rfl
    cases sign with
    | positive =>
      cases rounded
      rw [← whole]
      exact Int.ofNat_le.mpr size
    | negative =>
      cases rounded
      exact (Int.neg_nonpos_of_nonneg (Int.natCast_nonneg _)).trans (Int.pow_nonneg (by decide))

theorem roundMost {top : Nat} (high : 971 ≤ top) (rounded : round x = .ok n) :
    n ≤ ((2 ^ 53 - 1) * 2 ^ top : Nat) := by
  unfold round at rounded
  split at rounded
  · contradiction
  · contradiction
  · cases rounded
    exact Int.natCast_nonneg _
  · rename_i sign mantissa exponent some unpacked
    have bits := mantissaBound unpacked
    have most := exponentBound unpacked
    have size : (if 0 ≤ exponent then mantissa * 2 ^ exponent.toNat
        else roundHalfEven mantissa (-exponent).toNat) ≤ (2 ^ 53 - 1) * 2 ^ top := by
      split
      · exact Nat.mul_le_mul (by omega) (Nat.pow_le_pow_right (by decide) (by omega))
      · have half := Nat.div_le_self mantissa (2 ^ (-exponent).toNat)
        have even := roundHalfEvenAtMost mantissa (-exponent).toNat
        have two : 2 ^ 1 ≤ 2 ^ top := Nat.pow_le_pow_right (by decide) (by omega)
        omega
    cases sign with
    | positive =>
      cases rounded
      exact Int.ofNat_le.mpr size
    | negative =>
      cases rounded
      exact (Int.neg_nonpos_of_nonneg (Int.natCast_nonneg _)).trans (Int.natCast_nonneg _)

theorem roundRoom (rounded : round x = .ok n) : n + 2 ^ 16 ≤ overflow := by
  have room (half : Nat) (wide : 16 ≤ half) :
      (2 ^ 53 - 1) * 2 ^ (half + 1) + 2 ^ 16 ≤ (2 ^ 54 - 1) * 2 ^ half := by
    have least : 2 ^ 16 ≤ 2 ^ half := Nat.pow_le_pow_right (by decide) wide
    rw [Nat.pow_succ]
    omega
  have most := roundMost (Nat.le_refl (970 + 1)) rounded
  have whole := Int.ofNat_le.mpr (room 970 (by decide))
  rw [Int.natCast_add] at whole
  exact (Int.add_le_add_right most _).trans whole

theorem dividePositive {a b : Nat} (some : 0 < a) (positive : 0 < b)
    (fits : a < overflow) (small : b < 2 ^ 64) :
    ∃ x, divide a b = .ok x ∧ (x == 0.0) = false := by
  obtain ⟨m, e, known, unpacked⟩ := quotientFinite .positive .positive some positive fits small
  have finite := congrArg UnpackedFloat.isFinite unpacked
  refine ⟨.ofModel (Float.Model.pack (UnpackedFloat.div Float.Model.Format.binary64
    (.finite .positive a 0 some) (.finite .positive b 0 positive))), ?_, ?_⟩
  · rw [divide, dif_neg (Int.natCast_ne_zero.mpr positive.ne'),
      dif_neg (Int.natCast_ne_zero.mpr some.ne')]
    simp only [Int.natAbs_natCast, Int.not_lt.mpr (Int.natCast_nonneg _), if_false]
    exact if_pos finite
  · rw [← Bool.not_eq_true]
    intro zero
    obtain ⟨sign, vanishes⟩ := beqZero zero
    exact absurd (unpacked.symm.trans vanishes) nofun

theorem scaledDefined (x : Float) (count : Int) :
    (∃ n, (intToFloat count >>= fun y => round (x * y)) = .ok n) ↔
      (x * Float.ofInt count).isFinite = true := by
  rw [← roundDefined]
  unfold intToFloat
  split
  · rfl
  · rename_i infinite
    refine ⟨fun ⟨_, refused⟩ => by contradiction, fun defined => ?_⟩
    exact absurd (mulFinite ((roundDefined _).mp defined)).2 infinite

end KaraokeAnything.Python
