import Mathlib

/-! Signs and magnitudes of binary64 arithmetic, read off the model of `Float`: what
a finite product says about its factors, and bounds that rounding exceeds by one
power of two at most. -/
namespace KaraokeAnything.Binary64
open Float.Model Float.Model.UnpackedFloat

def NotNegative : UnpackedFloat → Prop
  | .finite sign .. => sign = .positive
  | .zero sign => sign = .positive
  | .infinity sign => sign = .positive
  | .notANumber => True

def Below (k : Int) : UnpackedFloat → Prop
  | .finite _ mantissa exponent _ => mantissa < 2 ^ (k - exponent).toNat
  | .zero _ => True
  | _ => False

instance (k : Int) (u : UnpackedFloat) : Decidable (Below k u) :=
  match u with
  | .finite _ mantissa exponent _ => inferInstanceAs (Decidable (mantissa < 2 ^ (k - exponent).toNat))
  | .zero _ => .isTrue trivial
  | .infinity _ => .isFalse id
  | .notANumber => .isFalse id

theorem belowFinite {k : Int} {u : UnpackedFloat} (below : Below k u) : u.isFinite = true := by
  cases u <;> first | rfl | exact below.elim

section Packing

inductive Fields (sign : Sign) (exponent : BitVec 11) (mantissa : BitVec 52) :
    UnpackedFloat → Prop where
  | infinity (top : exponent = -1) : Fields sign exponent mantissa (.infinity sign)
  | notANumber (top : exponent = -1) : Fields sign exponent mantissa .notANumber
  | zero (bottom : exponent = 0) : Fields sign exponent mantissa (.zero sign)
  | subnormal (bottom : exponent = 0) (some : 0 < mantissa.toNat) (place : Int)
    (least : place = -1074) : Fields sign exponent mantissa (.finite sign mantissa.toNat place some)
  | normal (inside : exponent ≠ -1) (above : exponent ≠ 0) (some : 0 < (1#1 ++ mantissa).toNat) :
    Fields sign exponent mantissa
      (.finite sign (1#1 ++ mantissa).toNat (exponent.toNat - 1075) some)

theorem unpackFields (sign : Sign) (exponent : BitVec 11) (mantissa : BitVec 52) :
    Fields sign exponent mantissa (UnpackedFloat.unpack Format.binary64
      (packComponents Format.binary64 sign exponent mantissa)) := by
  unfold UnpackedFloat.unpack
  simp only [unpackExponent_packComponents, unpackMantissa_packComponents,
    unpackSign_packComponents, Sign.ofBitVec_toBitVec]
  split
  · split
    · exact .infinity ‹_›
    · exact .notANumber ‹_›
  · split
    · rename_i bottom
      split
      · exact .zero bottom
      · exact .subnormal bottom _ _ (by rw [bottom]; rfl)
    · exact .normal ‹_› ‹_› _

inductive Packed : UnpackedFloat → UnpackedFloat → Prop where
  | special (u : UnpackedFloat) (special : u.isFinite = false) (sign : Sign)
    (same : NotNegative u → sign = .positive) (mantissa : BitVec 52) (v : UnpackedFloat)
    (fields : Fields sign (-1) mantissa v) : Packed u v
  | zero (sign : Sign) (v : UnpackedFloat) (fields : Fields sign 0 0 v) : Packed (.zero sign) v
  | overflow (sign : Sign) (mantissa : Nat) (exponent : Int) (some : 0 < mantissa)
    (large : 972 ≤ exponent) (v : UnpackedFloat) (fields : Fields sign (-1) 0 v) :
    Packed (.finite sign mantissa exponent some) v
  | normal (sign : Sign) (mantissa : Nat) (exponent : Int) (some : 0 < mantissa)
    (small : exponent < 972) (bits : mantissa.log2 = 52) (v : UnpackedFloat)
    (fields : Fields sign (BitVec.ofNat 11 (exponent + 1075).toNat) (BitVec.ofNat 52 mantissa) v) :
    Packed (.finite sign mantissa exponent some) v
  | subnormal (sign : Sign) (mantissa : Nat) (exponent : Int) (some : 0 < mantissa)
    (v : UnpackedFloat) (fields : Fields sign 0 (BitVec.ofNat 52 mantissa) v) :
    Packed (.finite sign mantissa exponent some) v

theorem packs (u : UnpackedFloat) : Packed u (Float.Model.pack u).unpack := by
  have whole : (Float.Model.pack u).unpack =
      UnpackedFloat.unpack Format.binary64 (UnpackedFloat.pack Format.binary64 u) := rfl
  rw [whole]
  cases u with
  | infinity sign => exact .special _ rfl sign id 0 _ (unpackFields sign (-1) 0)
  | notANumber => exact .special _ rfl .positive (fun _ => rfl) _ _ (unpackFields .positive (-1) _)
  | zero sign => exact .zero sign _ (unpackFields sign 0 0)
  | finite sign mantissa exponent some =>
    have bias : (exponent + Format.binary64.exponentBias +
        Format.binary64.mantissaBitsWithoutImplicit).toNat = (exponent + 1075).toNat := by
      rw [Int.add_assoc]
      rfl
    rw [UnpackedFloat.pack]
    simp only [bias]
    split
    · rename_i large
      have large : 2 ^ 11 ≤ (exponent + 1075).toNat + 1 := large
      exact .overflow _ _ _ _ (by omega) _ (unpackFields sign (-1) 0)
    · rename_i small
      have small : ¬ 2 ^ 11 ≤ (exponent + 1075).toNat + 1 := small
      split
      · rename_i bits
        have bits : mantissa.log2 + 1 = 53 := bits
        exact .normal _ _ _ _ (by omega) (by omega) _ (unpackFields ..)
      · exact .subnormal _ _ _ _ _ (unpackFields ..)

theorem fieldsNotNegative {exponent : BitVec 11} {mantissa : BitVec 52} {v : UnpackedFloat}
    (fields : Fields .positive exponent mantissa v) : NotNegative v := by
  cases fields <;> trivial

theorem fieldsSpecial {sign : Sign} {mantissa : BitVec 52} {v : UnpackedFloat}
    (fields : Fields sign (-1) mantissa v) : v.isFinite = false := by
  cases fields with
  | infinity top => rfl
  | notANumber top => rfl
  | zero bottom => exact absurd bottom (by decide)
  | subnormal bottom some place least => exact absurd bottom (by decide)
  | normal inside above some => exact absurd rfl inside

theorem packNotNegative {u : UnpackedFloat} (positive : NotNegative u) :
    NotNegative (Float.Model.pack u).unpack := by
  have packed := packs u
  generalize (Float.Model.pack u).unpack = v at packed
  cases packed with
  | special _ special sign same mantissa _ fields =>
    cases same positive
    exact fieldsNotNegative fields
  | zero sign _ fields =>
    cases positive
    exact fieldsNotNegative fields
  | overflow sign mantissa exponent some large _ fields =>
    cases positive
    exact fieldsNotNegative fields
  | normal sign mantissa exponent some small bits _ fields =>
    cases positive
    exact fieldsNotNegative fields
  | subnormal sign mantissa exponent some _ fields =>
    cases positive
    exact fieldsNotNegative fields

theorem packSpecial {u : UnpackedFloat} (special : u.isFinite = false) :
    (Float.Model.pack u).unpack.isFinite = false := by
  have packed := packs u
  generalize (Float.Model.pack u).unpack = v at packed
  cases packed with
  | special _ _ sign same mantissa _ fields => exact fieldsSpecial fields
  | zero => contradiction
  | overflow => contradiction
  | normal => contradiction
  | subnormal => contradiction

theorem fieldsLeast {k : Int} (low : -1022 ≤ k) {sign : Sign} {mantissa : BitVec 52}
    {v : UnpackedFloat} (fields : Fields sign 0 mantissa v) : Below k v := by
  cases fields with
  | infinity top => exact absurd top (by decide)
  | notANumber top => exact absurd top (by decide)
  | zero bottom => trivial
  | subnormal bottom some place least =>
    rw [least]
    exact Nat.lt_of_lt_of_le mantissa.isLt (Nat.pow_le_pow_right (by omega) (by omega))
  | normal inside above some => exact absurd rfl above

theorem packBelow {k : Int} {u : UnpackedFloat} (low : -1022 ≤ k) (high : k ≤ 972)
    (below : Below k u) : Below k (Float.Model.pack u).unpack := by
  have packed := packs u
  generalize (Float.Model.pack u).unpack = v at packed
  cases packed with
  | special _ special =>
    rw [belowFinite below] at special
    contradiction
  | zero sign _ fields => exact fieldsLeast low fields
  | subnormal sign mantissa exponent some _ fields => exact fieldsLeast low fields
  | overflow sign mantissa exponent some large _ fields =>
    simp only [Below] at below
    rw [Int.toNat_eq_zero.mpr (by omega)] at below
    omega
  | normal sign mantissa exponent some small bits _ fields =>
    have wide : 53 ≤ (k - exponent).toNat := by
      have known := (Nat.log2_lt (Nat.pos_iff_ne_zero.mp some)).mpr below
      omega
    have biased : (BitVec.ofNat 11 (exponent + 1075).toNat).toNat = (exponent + 1075).toNat := by
      rw [BitVec.toNat_ofNat, Nat.mod_eq_of_lt (by omega)]
    generalize BitVec.ofNat 11 (exponent + 1075).toNat = place at biased fields
    by_cases bottom : place = 0
    · rw [bottom] at fields
      exact fieldsLeast low fields
    · cases fields with
      | infinity top => rw [top] at biased; simp at biased; omega
      | notANumber top => rw [top] at biased; simp at biased; omega
      | zero bottom => trivial
      | subnormal zero => exact absurd zero bottom
      | normal inside above some =>
        have positive : place.toNat ≠ 0 := fun none => bottom (BitVec.eq_of_toNat_eq none)
        refine Nat.lt_of_lt_of_le (BitVec.isLt _) (Nat.pow_le_pow_right (by omega) ?_)
        omega

end Packing

section Rounding

theorem shiftedMantissa (em : ExtendedMantissa) (count : Nat) :
    (em >>> count).mantissa = em.mantissa / 2 ^ count := by
  induction count with
  | zero => exact (Nat.div_one _).symm
  | succ count ih =>
    change (em >>> count).mantissa / 2 = _
    rw [ih, Nat.div_div_eq_div_mul, Nat.pow_succ]

theorem roundedAtMost (em : ExtendedMantissa) : em.roundedMantissa ≤ em.mantissa + 1 := by
  have even : em.mantissa % 2 < 2 := Nat.mod_lt _ (by omega)
  unfold ExtendedMantissa.roundedMantissa Accuracy.roundToNearestEven
  split <;> omega

theorem leastExponent : Format.binary64.minExponent = -1074 := by rfl

theorem shiftBelow {spec : Format} {k : Int} (low : spec.minExponent ≤ k) {mantissa : Nat}
    {exponent : Int} (some : mantissa ≠ 0) (below : mantissa < 2 ^ (k - exponent).toNat)
    (accuracy : Accuracy) :
    let cut := shiftToTargetExponent spec mantissa exponent accuracy
    cut.2 ≤ k ∧ cut.1.mantissa < 2 ^ (k - cut.2).toNat := by
  have bits := (Nat.log2_lt some).mpr below
  have target : spec.targetExponent (totalExponent mantissa exponent) ≤ k := by
    simp only [Format.targetExponent, totalExponent, Format.mantissaBits]
    omega
  simp only [shiftToTargetExponent, shiftToExponent, shiftedMantissa]
  generalize spec.targetExponent (totalExponent mantissa exponent) = aim at target
  have same : (ExtendedMantissa.ofMantissaAndAccuracy mantissa accuracy).mantissa = mantissa := by
    unfold ExtendedMantissa.ofMantissaAndAccuracy
    split <;> rfl
  refine ⟨by omega, ?_⟩
  rw [same, Nat.div_lt_iff_lt_mul (Nat.two_pow_pos _), ← Nat.pow_add]
  refine Nat.lt_of_lt_of_le below (Nat.pow_le_pow_right (by omega) (by omega))

theorem roundBelow {spec : Format} {k : Int} (low : spec.minExponent ≤ k) (sign : Sign)
    {mantissa : Nat} {exponent : Int} (some : mantissa ≠ 0)
    (below : mantissa < 2 ^ (k - exponent).toNat) (accuracy : Accuracy) :
    Below (k + 1) (roundWithAccuracy spec sign mantissa exponent accuracy) := by
  obtain ⟨inside, first⟩ := shiftBelow low some below accuracy
  unfold roundWithAccuracy
  generalize shiftToTargetExponent spec mantissa exponent accuracy = cut at inside first
  obtain ⟨em, place⟩ := cut
  simp only at inside first ⊢
  have carry : em.roundedMantissa < 2 ^ (k + 1 - place).toNat := by
    have wider : (k + 1 - place).toNat = (k - place).toNat + 1 := by omega
    have most := roundedAtMost em
    have room := Nat.two_pow_pos (k - place).toNat
    rw [wider, Nat.pow_succ]
    omega
  by_cases none : em.roundedMantissa = 0
  · have empty : (shiftToTargetExponent spec em.roundedMantissa place .exact).1.mantissa = 0 := by
      simp only [shiftToTargetExponent, shiftToExponent, shiftedMantissa, none]
      exact Nat.zero_div _
    rw [dif_pos empty]
    trivial
  · have above : spec.minExponent ≤ k + 1 := by omega
    have second := (shiftBelow above none carry .exact).2
    split
    · trivial
    · exact second

theorem roundNotNegative (mantissa : Nat) (exponent : Int) (accuracy : Accuracy) :
    NotNegative (roundWithAccuracy Format.binary64 .positive mantissa exponent accuracy) := by
  unfold roundWithAccuracy
  simp only
  split <;> rfl

end Rounding

section Products
variable {x y : Float}

theorem mulUnpack (x y : Float) : (x * y).toModel.unpack =
    (Float.Model.pack
      (UnpackedFloat.mul Format.binary64 x.toModel.unpack y.toModel.unpack)).unpack := rfl

theorem mulSpecial {u v : UnpackedFloat} (special : u.isFinite = false ∨ v.isFinite = false) :
    (UnpackedFloat.mul Format.binary64 u v).isFinite = false := by
  cases u <;> cases v <;> first | rfl | simp [UnpackedFloat.isFinite] at special

/- Nothing undoes an overflow: a product that is finite has finite factors. -/
theorem mulFinite (finite : (x * y).isFinite = true) : x.isFinite = true ∧ y.isFinite = true := by
  change (x * y).toModel.unpack.isFinite = true at finite
  change x.toModel.unpack.isFinite = true ∧ y.toModel.unpack.isFinite = true
  by_contra other
  have special : x.toModel.unpack.isFinite = false ∨ y.toModel.unpack.isFinite = false := by
    simpa only [not_and_or, Bool.not_eq_true] using other
  rw [mulUnpack, packSpecial (mulSpecial special)] at finite
  contradiction

theorem packZero (sign : Sign) : (Float.Model.pack (.zero sign)).unpack = .zero sign := by
  have packed := packs (.zero sign)
  generalize (Float.Model.pack (.zero sign)).unpack = v at packed
  cases packed with
  | special _ special => contradiction
  | zero _ _ fields =>
    cases fields with
    | infinity top => exact absurd top (by decide)
    | notANumber top => exact absurd top (by decide)
    | zero bottom => rfl
    | subnormal bottom some place least => exact absurd some (by decide)
    | normal inside above some => exact absurd rfl above

theorem mulZero {sign : Sign} (finite : x.isFinite = true) (zero : y.toModel.unpack = .zero sign) :
    ∃ other, (x * y).toModel.unpack = .zero other := by
  change x.toModel.unpack.isFinite = true at finite
  rw [mulUnpack, zero]
  generalize x.toModel.unpack = u at finite
  cases u with
  | infinity other => contradiction
  | notANumber => contradiction
  | zero other => exact ⟨_, packZero _⟩
  | finite other mantissa exponent some => exact ⟨_, packZero _⟩

theorem pairNotNegative {u v : UnpackedFloat} (left : NotNegative u) (right : NotNegative v) :
    NotNegative (UnpackedFloat.mul Format.binary64 u v) := by
  cases u <;> cases v <;> first
    | trivial
    | (cases left; cases right; first | rfl | exact roundNotNegative ..)

theorem mulNotNegative (left : NotNegative x.toModel.unpack) (right : NotNegative y.toModel.unpack) :
    NotNegative (x * y).toModel.unpack := packNotNegative (pairNotNegative left right)

theorem mulBelow {j k : Int} (low : -1022 ≤ j + k) (high : j + k ≤ 971)
    (left : Below j x.toModel.unpack) (right : Below k y.toModel.unpack) :
    Below (j + k + 1) (x * y).toModel.unpack := by
  rw [mulUnpack]
  refine packBelow (by omega) (by omega) ?_
  generalize x.toModel.unpack = u at left
  generalize y.toModel.unpack = v at right
  cases u with
  | infinity sign => exact left.elim
  | notANumber => exact left.elim
  | zero sign =>
    cases v with
    | infinity sign => exact right.elim
    | notANumber => exact right.elim
    | zero sign => trivial
    | finite sign mantissa exponent some => trivial
  | finite sign mantissa exponent some =>
    cases v with
    | infinity sign => exact right.elim
    | notANumber => exact right.elim
    | zero sign => trivial
    | finite other mantissa' exponent' some' =>
      simp only [Below] at left right
      have inside : exponent < j := by
        by_contra far
        rw [Int.toNat_eq_zero.mpr (by omega)] at left
        omega
      have inside' : exponent' < k := by
        by_contra far
        rw [Int.toNat_eq_zero.mpr (by omega)] at right
        omega
      refine roundBelow (by rw [leastExponent]; omega) _ (Nat.mul_ne_zero some.ne' some'.ne') ?_ _
      have total : (j + k - (exponent + exponent')).toNat =
          (j - exponent).toNat + (k - exponent').toNat := by omega
      rw [total, Nat.pow_add]
      exact Nat.mul_lt_mul'' left right

end Products

section Integers

theorem convertedBelow {n k : Nat} (small : n < 2 ^ k) :
    Below (k + 1) (UnpackedFloat.ofNat Format.binary64 n) := by
  unfold UnpackedFloat.ofNat UnpackedFloat.ofInt UnpackedFloat.normalize
  cases order : compare (n : Int) 0 with
  | lt =>
    rw [Int.compare_eq_lt] at order
    omega
  | eq => trivial
  | gt =>
    rw [Int.compare_eq_gt] at order
    simp only [Int.toNat_natCast, UnpackedFloat.round, decreaseExponent]
    generalize (0 - Format.binary64.targetExponent (totalExponent n 0)).toNat = shift
    have scaled : n <<< shift < 2 ^ ((k : Int) - (0 - (shift : Int))).toNat := by
      have total : ((k : Int) - (0 - (shift : Int))).toNat = k + shift := by omega
      rw [total, Nat.shiftLeft_eq, Nat.pow_add]
      exact Nat.mul_lt_mul_of_pos_right small (Nat.two_pow_pos shift)
    refine roundBelow (by rw [leastExponent]; omega) _ ?_ scaled _
    rw [Nat.shiftLeft_eq]
    exact Nat.mul_ne_zero (by omega) (Nat.two_pow_pos shift).ne'

theorem convertedNotNegative (n : Nat) : NotNegative (UnpackedFloat.ofNat Format.binary64 n) := by
  unfold UnpackedFloat.ofNat UnpackedFloat.ofInt UnpackedFloat.normalize
  cases order : compare (n : Int) 0 with
  | lt =>
    rw [Int.compare_eq_lt] at order
    omega
  | eq => rfl
  | gt => exact roundNotNegative ..

def tableOne : Float := Float.ofBits 0x3FF0000000000000

theorem ofNatSmall {n : Nat} (exact : n < 2 ^ 53) :
    Float.ofNat n = n.toUInt64.toFloat * tableOne := by
  unfold Float.ofNat OfScientific.ofScientific instOfScientificFloat Float.ofScientific
  simp only
  rw [dif_pos ⟨exact, by omega⟩]
  rfl

theorem ofNatBelow {n k : Nat} (small : n < 2 ^ k) (exact : k ≤ 53) :
    Below (k + 3) (Float.ofNat n).toModel.unpack := by
  have inside : n < 2 ^ 53 := Nat.lt_of_lt_of_le small (Nat.pow_le_pow_right (by omega) exact)
  have word : n.toUInt64.toNat = n := UInt64.toNat_ofNat_of_lt' (Nat.lt_trans inside (by decide))
  have left : Below (k + 1) (n.toUInt64.toFloat).toModel.unpack := by
    have converted := packBelow (by omega) (by omega) (convertedBelow small)
    rw [← word] at converted
    exact converted
  have one : Below 1 tableOne.toModel.unpack := by decide
  rw [ofNatSmall inside]
  have product := mulBelow (by omega) (by omega) left one
  exact product

theorem scientificNotNegative (n e : Nat) :
    NotNegative (UnpackedFloat.ofScientific Format.binary64 n e) := by
  unfold UnpackedFloat.ofScientific
  split
  · rfl
  · split
    · rfl
    · split
      · rfl
      · rw [if_pos (Int.natCast_nonneg e)]
        exact pairNotNegative rfl rfl

theorem ofNatNotNegative (n : Nat) : NotNegative (Float.ofNat n).toModel.unpack := by
  by_cases exact : n < 2 ^ 53
  · rw [ofNatSmall exact]
    exact mulNotNegative (packNotNegative (convertedNotNegative _)) rfl
  · have large : Float.ofNat n = Float.ofModel (Float.Model.ofScientific n 0) := by
      unfold Float.ofNat OfScientific.ofScientific instOfScientificFloat Float.ofScientific
      simp only
      rw [dif_neg (fun small => exact small.1)]
      rfl
    rw [large]
    exact packNotNegative (scientificNotNegative n 0)

theorem ofIntNotNegative {n : Int} (positive : 0 ≤ n) :
    NotNegative (Float.ofInt n).toModel.unpack := by
  obtain ⟨count, rfl⟩ := Int.eq_ofNat_of_zero_le positive
  exact ofNatNotNegative count

end Integers

section Order

theorem mantissaBound {x : Float} {sign : Sign} {mantissa : Nat} {exponent : Int} {some}
    (unpacked : x.toModel.unpack = .finite sign mantissa exponent some) : mantissa < 2 ^ 53 := by
  unfold Float.Model.unpack UnpackedFloat.unpack at unpacked
  simp only at unpacked
  split at unpacked
  · split at unpacked <;> contradiction
  · split at unpacked
    · split at unpacked
      · contradiction
      · cases unpacked
        exact Nat.lt_trans (BitVec.isLt _) (by decide)
    · cases unpacked
      exact BitVec.isLt _

theorem exponentBound {x : Float} {sign : Sign} {mantissa : Nat} {exponent : Int} {some}
    (unpacked : x.toModel.unpack = .finite sign mantissa exponent some) : exponent ≤ 971 := by
  unfold Float.Model.unpack UnpackedFloat.unpack at unpacked
  have bias : Format.binary64.exponentBias = 1023 := rfl
  simp only [bias] at unpacked
  split at unpacked
  · split at unpacked <;> contradiction
  · rename_i inside
    generalize @unpackExponent Format.binary64 x.toModel.toBits.toBitVec = field at inside unpacked
    have below : field.toNat < 2048 := field.isLt
    have top : field.toNat ≠ 2047 := fun same => inside (BitVec.eq_of_toNat_eq same)
    split at unpacked
    · split at unpacked
      · contradiction
      · rename_i bottom _
        cases unpacked
        rw [bottom]
        decide
    · cases unpacked
      omega

theorem leBelow {x : Float} (bound : Float) {mantissa : Nat} {exponent : Int} {some}
    (finite : bound.toModel.unpack = .finite .positive mantissa exponent some)
    (nonnegative : 0 ≤ x) (most : x ≤ bound) : Below (exponent + 53) x.toModel.unpack := by
  have left : (UnpackedFloat.compare (0 : Float).toModel.unpack x.toModel.unpack).any (·.isLE) :=
    of_decide_eq_true (p := (0 : Float).toModel ≤ x.toModel) nonnegative
  have right : (UnpackedFloat.compare x.toModel.unpack bound.toModel.unpack).any (·.isLE) :=
    of_decide_eq_true (p := x.toModel ≤ bound.toModel) most
  have zero : (0 : Float).toModel.unpack = .zero .positive := by rfl
  rw [zero] at left
  rw [finite] at right
  cases unpacked : x.toModel.unpack with
  | notANumber =>
    rw [unpacked] at left
    contradiction
  | zero sign => trivial
  | infinity sign =>
    rw [unpacked] at left right
    cases sign <;> contradiction
  | finite sign m e positive =>
    rw [unpacked] at left right
    cases sign with
    | negative => contradiction
    | positive =>
      have small := mantissaBound unpacked
      have order : ((compare e exponent).then (compare m mantissa)).isLE = true := right
      have place : e ≤ exponent := by
        by_contra far
        rw [Int.compare_eq_gt.mpr (Int.not_le.mp far)] at order
        contradiction
      exact Nat.lt_of_lt_of_le small (Nat.pow_le_pow_right (by omega) (by omega))

theorem ltLe {x y : Float} (less : x < y) : x ≤ y := by
  have ahead : UnpackedFloat.compare x.toModel.unpack y.toModel.unpack == .some .lt :=
    of_decide_eq_true (p := x.toModel < y.toModel) less
  refine decide_eq_true (p := x.toModel ≤ y.toModel) ?_
  change ((UnpackedFloat.compare x.toModel.unpack y.toModel.unpack).any (·.isLE)) = true
  rw [beq_iff_eq.mp ahead]
  rfl

theorem ltBelow {x : Float} (bound : Float) {mantissa : Nat} {exponent : Int} {some}
    (finite : bound.toModel.unpack = .finite .positive mantissa exponent some)
    (nonnegative : 0 ≤ x) (less : x < bound) : Below (exponent + 53) x.toModel.unpack :=
  leBelow bound finite nonnegative (ltLe less)

theorem beqZero {x : Float} (equal : (x == 0) = true) : ∃ sign, x.toModel.unpack = .zero sign := by
  have same : UnpackedFloat.beq x.toModel.unpack (.zero .positive) = true := equal
  obtain ⟨_, _, zero | ⟨zero, _⟩ | ⟨zero, _⟩⟩ := (beq_iff_ne_notANumber_and_eq _ _).mp same
  · exact ⟨_, zero⟩
  · exact ⟨_, zero⟩
  · exact ⟨_, zero⟩

theorem beqUnpack {x y : Float} {sign : Sign} {mantissa : Nat} {exponent : Int} {some}
    (finite : y.toModel.unpack = .finite sign mantissa exponent some) (equal : (y == x) = true) :
    x.toModel.unpack = .finite sign mantissa exponent some := by
  have same : UnpackedFloat.beq y.toModel.unpack x.toModel.unpack = true := equal
  obtain ⟨_, _, unpacked | ⟨zero, _⟩ | ⟨zero, _⟩⟩ := (beq_iff_ne_notANumber_and_eq _ _).mp same
  · rw [← unpacked, finite]
  · exact absurd (zero.symm.trans finite) (by simp)
  · exact absurd (zero.symm.trans finite) (by simp)

theorem comparedNumber {x y : Float} {order : Ordering}
    (compared : UnpackedFloat.compare x.toModel.unpack y.toModel.unpack = some order) :
    x.isNaN = false ∧ y.isNaN = false := by
  change x.toModel.unpack.isNaN = false ∧ y.toModel.unpack.isNaN = false
  generalize x.toModel.unpack = u at compared
  generalize y.toModel.unpack = v at compared
  cases u <;> cases v <;> first | exact ⟨rfl, rfl⟩ | contradiction

theorem leNumber {x y : Float} (le : x ≤ y) : x.isNaN = false ∧ y.isNaN = false := by
  have compared : (UnpackedFloat.compare x.toModel.unpack y.toModel.unpack).any (·.isLE) :=
    of_decide_eq_true (p := x.toModel ≤ y.toModel) le
  obtain ⟨order, found, _⟩ := (Option.any_eq_true _ _).mp compared
  exact comparedNumber found

theorem ltNumber {x y : Float} (less : x < y) : x.isNaN = false ∧ y.isNaN = false := by
  have compared : UnpackedFloat.compare x.toModel.unpack y.toModel.unpack == .some .lt :=
    of_decide_eq_true (p := x.toModel < y.toModel) less
  exact comparedNumber (beq_iff_eq.mp compared)

theorem compareSwap (u v : UnpackedFloat) :
    UnpackedFloat.compare v u = (UnpackedFloat.compare u v).map Ordering.swap := by
  have places (e f : Int) (m n : Nat) : ((compare e f).then (compare m n)).swap =
      (compare f e).then (compare n m) := by
    rw [Ordering.swap_then, Int.compare_swap, Nat.compare_swap]
  cases u with
  | notANumber => cases v <;> rfl
  | infinity sign =>
    cases v with
    | infinity other => cases sign <;> cases other <;> rfl
    | _ => cases sign <;> rfl
  | zero sign =>
    cases v with
    | infinity other => cases other <;> rfl
    | finite other n f more => cases other <;> rfl
    | _ => rfl
  | finite sign m e some =>
    cases v with
    | infinity other => cases sign <;> cases other <;> rfl
    | finite other n f more =>
      cases sign <;> cases other <;> simp [UnpackedFloat.compare, ← places e f m n]
    | _ => cases sign <;> rfl

theorem ltNotLe {x y : Float} (less : x < y) : ¬ y ≤ x := by
  intro le
  have ahead : UnpackedFloat.compare x.toModel.unpack y.toModel.unpack == .some .lt :=
    of_decide_eq_true (p := x.toModel < y.toModel) less
  have back : (UnpackedFloat.compare y.toModel.unpack x.toModel.unpack).any (·.isLE) :=
    of_decide_eq_true (p := y.toModel ≤ x.toModel) le
  rw [compareSwap, beq_iff_eq.mp ahead] at back
  contradiction

theorem beqNumber {x y : Float} (equal : (x == y) = true) : x.isNaN = false ∧ y.isNaN = false := by
  have compared : (UnpackedFloat.compare x.toModel.unpack y.toModel.unpack == some .eq) = true := equal
  exact comparedNumber (beq_iff_eq.mp compared)

theorem beqSelf (x : Float) : (x == x) = !x.isNaN := by
  rw [Bool.eq_iff_iff, Float.beq_self_iff, Float.isNaN_eq_decide_eq_nan, Bool.not_eq_true',
    decide_eq_false_iff_not]

end Order

end KaraokeAnything.Binary64
