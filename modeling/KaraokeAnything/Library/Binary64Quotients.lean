import KaraokeAnything.Library.Binary64

/-! Quotients of integers in binary64, rounded once: where they stay finite, and that
they do not vanish. -/
namespace KaraokeAnything.Binary64
open Float.Model Float.Model.UnpackedFloat

section Shifting

theorem shiftedRoundBit (em : ExtendedMantissa) (count : Nat) :
    (em >>> (count + 1)).roundBit = (em.mantissa / 2 ^ count % 2 != 0) := by
  have last : (em >>> (count + 1)).roundBit = ((em >>> count).mantissa % 2 != 0) := rfl
  rw [last, shiftedMantissa]

theorem initialMantissa (mantissa : Nat) (accuracy : Accuracy) :
    (ExtendedMantissa.ofMantissaAndAccuracy mantissa accuracy).mantissa = mantissa := by
  unfold ExtendedMantissa.ofMantissaAndAccuracy
  split <;> rfl

theorem roundedCases (em : ExtendedMantissa) : em.roundedMantissa = em.mantissa ∨
    em.roundedMantissa = em.mantissa + 1 ∧ em.roundBit = true := by
  obtain ⟨mantissa, roundBit, stickyBit⟩ := em
  have even : mantissa % 2 < 2 := Nat.mod_lt _ (by omega)
  cases roundBit with
  | false => cases stickyBit <;> exact .inl rfl
  | true =>
    cases stickyBit with
    | false =>
      have tie : (ExtendedMantissa.mk mantissa true false).roundedMantissa =
        mantissa + mantissa % 2 := rfl
      rw [tie]
      rcases Nat.mod_two_eq_zero_or_one mantissa with zero | one
      · exact .inl (by rw [zero]; rfl)
      · exact .inr ⟨by rw [one], rfl⟩
    | true => exact .inr ⟨rfl, rfl⟩

theorem log2Shifted {mantissa : Nat} (wide : 52 ≤ mantissa.log2) :
    (mantissa / 2 ^ (mantissa.log2 - 52)).log2 = 52 := by
  have some : mantissa ≠ 0 := by
    rintro rfl
    simp at wide
  have low := Nat.log2_self_le some
  have high := Nat.lt_log2_self (n := mantissa)
  generalize mantissa.log2 = bits at wide low high
  have split : bits = 52 + (bits - 52) := by omega
  have next : bits + 1 = 53 + (bits - 52) := by omega
  rw [split, Nat.pow_add] at low
  rw [next, Nat.pow_add] at high
  have least := (Nat.le_div_iff_mul_le (Nat.two_pow_pos (bits - 52))).mpr low
  have most := (Nat.div_lt_iff_lt_mul (Nat.two_pow_pos (bits - 52))).mpr high
  rw [Nat.log2_eq_iff (by omega)]
  exact ⟨least, most⟩

end Shifting

section Rounding

theorem shiftNothing {mantissa : Nat} {exponent : Int} (bits : mantissa.log2 = 52)
    (normal : -1074 ≤ exponent) :
    shiftToTargetExponent Format.binary64 mantissa exponent .exact = (⟨mantissa, false, false⟩, exponent) := by
  have none : (Format.binary64.targetExponent (totalExponent mantissa exponent) - exponent).toNat =
      0 := by
    simp only [Format.targetExponent, totalExponent, Format.mantissaBits, Format.minExponent, bits]
    omega
  simp only [shiftToTargetExponent, shiftToExponent, none]
  rw [Int.natCast_zero, Int.add_zero]
  rfl

theorem shiftOnce {exponent : Int} (normal : -1074 ≤ exponent) :
    let cut := shiftToTargetExponent Format.binary64 (2 ^ 53) exponent .exact
    cut.1.mantissa = 2 ^ 52 ∧ cut.2 = exponent + 1 := by
  have one : (Format.binary64.targetExponent (totalExponent (2 ^ 53) exponent) - exponent).toNat =
      1 := by
    have bits : (2 ^ 53 : Nat).log2 = 53 := Nat.log2_two_pow
    simp only [Format.targetExponent, totalExponent, Format.mantissaBits, Format.minExponent, bits]
    omega
  simp only [shiftToTargetExponent, shiftToExponent, one]
  exact ⟨rfl, rfl⟩

theorem roundTwice (sign : Sign) {mantissa m : Nat} {exponent place e : Int} {accuracy : Accuracy}
    {em : ExtendedMantissa}
    (first : shiftToTargetExponent Format.binary64 mantissa exponent accuracy = (em, place))
    (second : (shiftToTargetExponent Format.binary64 em.roundedMantissa place .exact).1.mantissa = m)
    (last : (shiftToTargetExponent Format.binary64 em.roundedMantissa place .exact).2 = e)
    (some : m ≠ 0) : roundWithAccuracy Format.binary64 sign mantissa exponent accuracy =
      .finite sign m e (Nat.pos_of_ne_zero some) := by
  rw [roundWithAccuracy]
  generalize shiftToTargetExponent Format.binary64 mantissa exponent accuracy = cut at first
  subst first second last
  exact dif_neg some

theorem roundNormal (sign : Sign) {mantissa : Nat} {exponent : Int} (wide : 52 ≤ mantissa.log2)
    (normal : -1022 ≤ mantissa.log2 + exponent) (accuracy : Accuracy) :
    ∃ m e some, roundWithAccuracy Format.binary64 sign mantissa exponent accuracy =
        .finite sign m e some ∧ m.log2 = 52 ∧
      (e = mantissa.log2 - 52 + exponent ∨ e = mantissa.log2 - 51 + exponent ∧
        (52 < mantissa.log2 → 2 ^ 54 - 1 ≤ mantissa / 2 ^ (mantissa.log2 - 53))) := by
  have amount : (Format.binary64.targetExponent (totalExponent mantissa exponent) - exponent).toNat =
      mantissa.log2 - 52 := by
    simp only [Format.targetExponent, totalExponent, Format.mantissaBits, Format.minExponent]
    omega
  have place : exponent + ((mantissa.log2 - 52 : Nat) : Int) = mantissa.log2 - 52 + exponent := by
    omega
  have first : shiftToTargetExponent Format.binary64 mantissa exponent accuracy =
      (ExtendedMantissa.ofMantissaAndAccuracy mantissa accuracy >>> (mantissa.log2 - 52),
        mantissa.log2 - 52 + exponent) := by
    simp only [shiftToTargetExponent, shiftToExponent, amount, place]
  have bits := log2Shifted wide
  have kept := shiftedMantissa (ExtendedMantissa.ofMantissaAndAccuracy mantissa accuracy)
    (mantissa.log2 - 52)
  rw [initialMantissa] at kept
  have inside : -1074 ≤ (mantissa.log2 : Int) - 52 + exponent := by omega
  have some : mantissa / 2 ^ (mantissa.log2 - 52) ≠ 0 := by
    intro none
    rw [none] at bits
    contradiction
  rcases roundedCases (ExtendedMantissa.ofMantissaAndAccuracy mantissa accuracy >>>
    (mantissa.log2 - 52)) with same | ⟨up, set⟩
  · rw [kept] at same
    have second := shiftNothing bits inside
    rw [← same] at second
    exact ⟨_, _, _, roundTwice sign first (by rw [second]; exact same) (by rw [second]) some, bits,
      .inl rfl⟩
  · rw [kept] at up
    by_cases carry : mantissa / 2 ^ (mantissa.log2 - 52) + 1 = 2 ^ 53
    · obtain ⟨half, next⟩ := shiftOnce inside
      rw [← carry, ← up] at half next
      refine ⟨_, _, _, roundTwice sign first half next (Nat.two_pow_pos 52).ne', Nat.log2_two_pow,
        .inr ⟨by omega, fun longer => ?_⟩⟩
      obtain ⟨count, more⟩ : ∃ count, mantissa.log2 - 52 = count + 1 := ⟨mantissa.log2 - 53, by omega⟩
      have less : mantissa.log2 - 53 = count := by omega
      rw [more, shiftedRoundBit, initialMantissa, bne_iff_ne] at set
      rw [more, Nat.pow_succ, ← Nat.div_div_eq_div_mul] at carry
      rw [less]
      omega
    · have grown : (mantissa / 2 ^ (mantissa.log2 - 52) + 1).log2 = 52 := by
        obtain ⟨low, high⟩ := (Nat.log2_eq_iff some).mp bits
        rw [Nat.log2_eq_iff (by omega)]
        omega
      have second := shiftNothing grown inside
      rw [← up] at second
      exact ⟨_, _, _, roundTwice sign first (by rw [second]; exact up) (by rw [second])
        (Nat.succ_ne_zero _), grown, .inl rfl⟩

theorem packNormal (sign : Sign) {mantissa : Nat} {exponent : Int} (some : 0 < mantissa)
    (bits : mantissa.log2 = 52) (low : -1074 ≤ exponent) (high : exponent < 972) :
    ∃ m e some', (Float.Model.pack (.finite sign mantissa exponent some)).unpack =
      .finite sign m e some' := by
  have whole : (Float.Model.pack (.finite sign mantissa exponent some)).unpack =
      UnpackedFloat.unpack Format.binary64
        (UnpackedFloat.pack Format.binary64 (.finite sign mantissa exponent some)) := rfl
  have bias : (exponent + Format.binary64.exponentBias +
      Format.binary64.mantissaBitsWithoutImplicit).toNat = (exponent + 1075).toNat := by
    rw [Int.add_assoc]
    rfl
  have inside : ¬ 2 ^ 11 ≤ (exponent + 1075).toNat + 1 := by omega
  have full : mantissa.log2 + 1 = Format.binary64.mantissaBits := by rw [bits]; rfl
  rw [whole, UnpackedFloat.pack]
  simp only [bias]
  rw [if_neg inside, if_pos full]
  have fields := unpackFields sign (BitVec.ofNat 11 (exponent + 1075).toNat) (BitVec.ofNat 52 mantissa)
  have biased : (BitVec.ofNat 11 (exponent + 1075).toNat).toNat = (exponent + 1075).toNat := by
    rw [BitVec.toNat_ofNat, Nat.mod_eq_of_lt (by omega)]
  generalize BitVec.ofNat 11 (exponent + 1075).toNat = place at biased fields ⊢
  generalize UnpackedFloat.unpack Format.binary64 _ = v at fields ⊢
  cases fields with
  | infinity top => rw [top] at biased; simp at biased; omega
  | notANumber top => rw [top] at biased; simp at biased; omega
  | zero bottom => rw [bottom] at biased; simp at biased; omega
  | subnormal bottom => rw [bottom] at biased; simp at biased; omega
  | normal inside above some => exact ⟨_, _, some, rfl⟩

end Rounding

section Quotients
variable {a b : Nat}

/- Halfway from the largest float to the next power of two: from here on a number rounds to
infinity. -/
def overflow : Nat := (2 ^ 54 - 1) * 2 ^ 970

theorem scaledBits {places : Nat} (below : a < (2 ^ 54 - 1) * 2 ^ places) (some : a ≠ 0) :
    a.log2 < 54 + places := by
  refine (Nat.log2_lt some).mpr (Nat.lt_of_lt_of_le below ?_)
  rw [Nat.pow_add]
  exact Nat.mul_le_mul_right _ (Nat.sub_le _ _)

theorem quotientCore (a : Nat) (small : b.log2 < 970) : ∃ count : Nat, ∃ accuracy,
    divCore Format.binary64 a 0 b 0 = (a * 2 ^ count / b, -(count : Int), accuracy) ∧
      b.log2 + 53 ≤ a.log2 + count ∧ (count ≠ 0 → a.log2 + count = b.log2 + 53) := by
  refine ⟨b.log2 + 53 - a.log2,
    accuracyOfFraction (a * 2 ^ (b.log2 + 53 - a.log2) % b) b, ?_, by omega, by omega⟩
  have place : min (0 - 0) (Format.binary64.targetExponent (totalExponent a 0 - totalExponent b 0)) =
      -((b.log2 + 53 - a.log2 : Nat) : Int) := by
    simp only [Format.targetExponent, totalExponent, Format.mantissaBits, Format.minExponent]
    omega
  have amount : (0 - 0 - -((b.log2 + 53 - a.log2 : Nat) : Int)).toNat = b.log2 + 53 - a.log2 := by
    omega
  simp only [divCore, place, amount, Nat.shiftLeft_eq]

theorem quotientWide (some : a ≠ 0) (positive : b ≠ 0) {count : Nat}
    (wide : b.log2 + 53 ≤ a.log2 + count) : 52 ≤ (a * 2 ^ count / b).log2 := by
  have dividend := Nat.log2_self_le some
  have divisor := Nat.lt_log2_self (n := b)
  have enough : 2 ^ 52 ≤ a * 2 ^ count / b := by
    refine (Nat.le_div_iff_mul_le (Nat.pos_of_ne_zero positive)).mpr ?_
    calc 2 ^ 52 * b ≤ 2 ^ 52 * 2 ^ (b.log2 + 1) := Nat.mul_le_mul_left _ (Nat.le_of_lt divisor)
      _ = 2 ^ (b.log2 + 53) := by rw [← Nat.pow_add]; congr 1; omega
      _ ≤ 2 ^ (a.log2 + count) := Nat.pow_le_pow_right (by decide) wide
      _ = 2 ^ a.log2 * 2 ^ count := Nat.pow_add ..
      _ ≤ a * 2 ^ count := Nat.mul_le_mul_right _ dividend
  exact (Nat.le_log2 (by omega)).mpr enough

theorem quotientLow (count : Nat) (wide : 52 ≤ (a * 2 ^ count / b).log2) :
    (a * 2 ^ count / b).log2 ≤ a.log2 + count := by
  have positive : a * 2 ^ count / b ≠ 0 := by
    intro none
    rw [none] at wide
    contradiction
  have high := Nat.lt_log2_self (n := a)
  refine Nat.lt_succ_iff.mp ((Nat.log2_lt positive).mpr ?_)
  calc a * 2 ^ count / b ≤ a * 2 ^ count := Nat.div_le_self _ _
    _ < 2 ^ (a.log2 + 1) * 2 ^ count := Nat.mul_lt_mul_of_pos_right high (Nat.two_pow_pos count)
    _ = 2 ^ (a.log2 + count).succ := by rw [← Nat.pow_add]; congr 1; omega

theorem quotientFinite (sign other : Sign) (some : 0 < a) (positive : 0 < b)
    (fits : a < overflow) (small : b < 2 ^ 64) :
    ∃ m e some', (Float.Model.pack (UnpackedFloat.div Format.binary64 (.finite sign a 0 some)
      (.finite other b 0 positive))).unpack = .finite (sign / other) m e some' := by
  have divisor := (Nat.log2_lt positive.ne').mpr small
  have dividend : a.log2 < 54 + 970 := scaledBits fits some.ne'
  obtain ⟨count, accuracy, core, wide, exact⟩ := quotientCore a (Nat.lt_trans divisor (by decide))
  have bits := quotientWide some.ne' positive.ne' wide
  have most := quotientLow count bits
  obtain ⟨m, e, known, rounded, full, place⟩ :=
    @roundNormal (sign / other) _ (-(count : Int)) bits (by omega) accuracy
  have quotient : UnpackedFloat.div Format.binary64 (.finite sign a 0 some)
      (.finite other b 0 positive) = .finite (sign / other) m e known := by
    rw [UnpackedFloat.div, core]
    exact rounded
  rw [quotient]
  refine packNormal _ known full (by omega) ?_
  rcases place with kept | ⟨grown, top⟩
  · omega
  · by_contra large
    -- Only a dividend of 1024 bits gets here, and its quotient is not scaled.
    obtain rfl : count = 0 := by omega
    rw [Nat.pow_zero, Nat.mul_one] at top bits most grown
    have size : (a / b).log2 - 53 = 970 := by omega
    have least := Nat.mul_le_of_le_div _ _ _ (top (by omega))
    rw [size] at least
    exact Nat.lt_irrefl a (Nat.lt_of_lt_of_le fits (least.trans (Nat.div_le_self a b)))

end Quotients

end KaraokeAnything.Binary64
