import KaraokeAnything.Library.Binary64

/-! Arithmetic of `Float32` that changes nothing: what packing keeps, products with one
and zero, and sums with zero. -/
namespace KaraokeAnything.Binary32
open Binary64 (Below roundBelow)
open Float.Model (Format UnpackedFloat totalExponent)
open Float.Model.UnpackedFloat

section Packing

inductive Fields (sign : Sign) (exponent : BitVec 8) (mantissa : BitVec 23) :
    UnpackedFloat → Prop where
  | infinity (top : exponent = -1) (clear : mantissa = 0) :
    Fields sign exponent mantissa (.infinity sign)
  | notANumber (top : exponent = -1) (set : mantissa ≠ 0) : Fields sign exponent mantissa .notANumber
  | zero (bottom : exponent = 0) (clear : mantissa = 0) : Fields sign exponent mantissa (.zero sign)
  | subnormal (bottom : exponent = 0) (some : 0 < mantissa.toNat) :
    Fields sign exponent mantissa (.finite sign mantissa.toNat (-149) some)
  | normal (inside : exponent ≠ -1) (above : exponent ≠ 0) (some : 0 < (1#1 ++ mantissa).toNat) :
    Fields sign exponent mantissa
      (.finite sign (1#1 ++ mantissa).toNat (exponent.toNat - 150) some)

variable (b : BitVec Format.binary32.numBits)

theorem unpackFields :
    Fields (Sign.ofBitVec (unpackSign b)) (unpackExponent b) (unpackMantissa b)
      (unpack Format.binary32 b) := by
  unfold unpack
  simp only
  split
  · split
    · exact .infinity ‹_› ‹_›
    · exact .notANumber ‹_› ‹_›
  · split
    · rename_i bottom
      split
      · exact .zero bottom ‹_›
      · have least : ((unpackExponent b).toNat : Int) - (Format.binary32.exponentBias +
            Format.binary32.mantissaBitsWithoutImplicit) + 1 = -149 := by
          rw [bottom]
          rfl
        simp only [least]
        exact .subnormal bottom _
    · exact .normal ‹_› ‹_› _

theorem implicitBit (mantissa : BitVec 23) : (1#1 ++ mantissa).toNat = 2 ^ 23 + mantissa.toNat := by
  have small := mantissa.isLt
  rw [BitVec.toNat_append, ← Nat.shiftLeft_add_eq_or_of_lt small]
  rfl

theorem normalBits (mantissa : BitVec 23) : (1#1 ++ mantissa).toNat.log2 = 23 := by
  have small := mantissa.isLt
  rw [Nat.log2_eq_iff (by rw [implicitBit]; omega), implicitBit]
  omega

theorem subnormalBits {mantissa : BitVec 23} (some : 0 < mantissa.toNat) :
    mantissa.toNat.log2 < 23 :=
  (Nat.log2_lt (Nat.ne_of_gt some)).mpr mantissa.isLt

theorem exponentInside {exponent : BitVec 8} (inside : exponent ≠ -1) (above : exponent ≠ 0) :
    1 ≤ exponent.toNat ∧ exponent.toNat ≤ 254 := by
  have top : exponent.toNat ≠ 255 := fun same => inside (BitVec.eq_of_toNat_eq same)
  have bottom : exponent.toNat ≠ 0 := fun same => above (BitVec.eq_of_toNat_eq same)
  have small := exponent.isLt
  omega

end Packing

section Rounding

def Canonical : UnpackedFloat → Prop
  | .finite _ mantissa exponent _ =>
    Format.binary32.targetExponent (totalExponent mantissa exponent) = exponent
  | _ => True

theorem fieldsCanonical {sign : Sign} {exponent : BitVec 8} {mantissa : BitVec 23}
    {u : UnpackedFloat} (fields : Fields sign exponent mantissa u) : Canonical u := by
  cases fields with
  | infinity | notANumber | zero => trivial
  | subnormal bottom some =>
    have bits := subnormalBits some
    change max ((mantissa.toNat.log2 : Int) + 1 + -149 - 24) (-149) = -149
    omega
  | normal inside above some =>
    obtain ⟨low, high⟩ := exponentInside inside above
    change max (((1#1 ++ mantissa).toNat.log2 : Int) + 1 + (exponent.toNat - 150) - 24) (-149) = _
    rw [normalBits]
    omega

theorem scaledBits {mantissa : Nat} (some : 0 < mantissa) (k : Nat) :
    (mantissa * 2 ^ k).log2 = mantissa.log2 + k := by
  induction k with
  | zero => rw [Nat.pow_zero, Nat.mul_one, Nat.add_zero]
  | succ k ih =>
    have whole : mantissa * 2 ^ k ≠ 0 := Nat.ne_of_gt (Nat.mul_pos some (Nat.two_pow_pos k))
    rw [Nat.pow_succ, ← Nat.mul_assoc, Nat.mul_comm _ 2, Nat.log2_two_mul whole, ih]
    rfl

theorem shiftBack (mantissa k : Nat) :
    (ExtendedMantissa.mk (mantissa * 2 ^ k) false false) >>> k = ⟨mantissa, false, false⟩ := by
  induction k generalizing mantissa with
  | zero => rw [Nat.pow_zero, Nat.mul_one]; rfl
  | succ k ih =>
    have once := ih (mantissa * 2)
    rw [Nat.mul_assoc, Nat.mul_comm 2, ← Nat.pow_succ] at once
    change ExtendedMantissa.shiftRightOne
      ((ExtendedMantissa.mk (mantissa * 2 ^ (k + 1)) false false) >>> k) = _
    rw [once, ExtendedMantissa.shiftRightOne]
    simp

theorem shiftScaled {mantissa : Nat} {exponent : Int} (some : 0 < mantissa)
    (canonical : Format.binary32.targetExponent (totalExponent mantissa exponent) = exponent)
    (k : Nat) : shiftToTargetExponent Format.binary32 (mantissa * 2 ^ k) (exponent - k) .exact =
      (⟨mantissa, false, false⟩, exponent) := by
  have same : totalExponent (mantissa * 2 ^ k) (exponent - k) = totalExponent mantissa exponent := by
    rw [totalExponent, totalExponent, scaledBits some]
    omega
  have amount : (exponent - (exponent - k)).toNat = k := by omega
  rw [shiftToTargetExponent, same, canonical, shiftToExponent, amount]
  simp only [ExtendedMantissa.ofMantissaAndAccuracy, shiftBack, Int.sub_add_cancel]

theorem roundScaled (sign : Sign) {mantissa : Nat} {exponent : Int} (some : 0 < mantissa)
    (canonical : Format.binary32.targetExponent (totalExponent mantissa exponent) = exponent)
    (k : Nat) : roundWithAccuracy Format.binary32 sign (mantissa * 2 ^ k) (exponent - k) .exact =
      .finite sign mantissa exponent some := by
  have again := shiftScaled some canonical 0
  rw [Nat.pow_zero, Nat.mul_one, Int.natCast_zero, Int.sub_zero] at again
  unfold roundWithAccuracy
  simp only [shiftScaled some canonical k, ExtendedMantissa.roundedMantissa,
    ExtendedMantissa.accuracy, Accuracy.roundToNearestEven, again, Nat.ne_of_gt some, dite_false]

theorem packFinite {k : Int} (high : k ≤ 104) {u : UnpackedFloat} (below : Below k u) :
    (unpack Format.binary32 (pack Format.binary32 u)).isFinite = true := by
  have fields := unpackFields (pack Format.binary32 u)
  have inside : unpackExponent (pack Format.binary32 u) ≠ -1 := by
    cases u with
    | infinity sign => exact below.elim
    | notANumber => exact below.elim
    | zero sign =>
      rw [pack, packedZero, unpackExponent_packComponents]
      decide
    | finite sign mantissa exponent some =>
      have least : exponent < k := by
        by_contra far
        have none : (k - exponent).toNat = 0 := by omega
        have small : mantissa < 2 ^ (k - exponent).toNat := below
        rw [none] at small
        omega
      have biased : (exponent + Format.binary32.exponentBias +
          Format.binary32.mantissaBitsWithoutImplicit).toNat ≤ 253 := by
        change (exponent + 127 + 23).toNat ≤ 253
        omega
      rw [pack]
      generalize (exponent + Format.binary32.exponentBias +
          Format.binary32.mantissaBitsWithoutImplicit).toNat = field at biased
      have room : ¬ 2 ^ Format.binary32.exponentBits ≤ field + 1 := by
        change ¬ 256 ≤ field + 1
        omega
      simp only [room, if_false]
      split
      · rw [unpackExponent_packComponents]
        intro same
        have top := congrArg BitVec.toNat same
        change field % 256 = 255 at top
        omega
      · rw [unpackExponent_packComponents]
        decide
  generalize unpack Format.binary32 (pack Format.binary32 u) = v at fields
  cases fields with
  | infinity top => exact absurd top inside
  | notANumber top => exact absurd top inside
  | zero | subnormal | normal => rfl

theorem roundFinite {k : Int} (low : -149 ≤ k) (high : k ≤ 103) (sign : Sign) {mantissa : Nat}
    {exponent : Int} (some : mantissa ≠ 0) (below : mantissa < 2 ^ (k - exponent).toNat) :
    (unpack Format.binary32 (pack Format.binary32
      (round Format.binary32 sign mantissa exponent))).isFinite = true := by
  have least : Format.binary32.minExponent ≤ k := low
  refine packFinite (k := k + 1) (by omega) ?_
  rw [UnpackedFloat.round]
  simp only [decreaseExponent]
  generalize (exponent - Format.binary32.targetExponent
    (totalExponent mantissa exponent)).toNat = count
  rw [Nat.shiftLeft_eq]
  have wide : (k - (exponent - count)).toNat = (k - exponent).toNat + count := by
    have near : exponent < k := by
      by_contra far
      have none : (k - exponent).toNat = 0 := by omega
      rw [none] at below
      omega
    omega
  refine roundBelow least sign (Nat.mul_ne_zero some (Nat.two_pow_pos count).ne') ?_ .exact
  rw [wide, Nat.pow_add]
  exact Nat.mul_lt_mul_of_pos_right below (Nat.two_pow_pos count)

end Rounding

section Identities
variable {x y : Float32}

theorem unpackedCanonical (x : Float32) : Canonical x.toModel.unpack :=
  fieldsCanonical (unpackFields x.toModel.toBits.toBitVec)

theorem repacked (x : Float32) : Float32.ofModel (.pack x.toModel.unpack) = x := by
  obtain ⟨⟨bits, valid⟩⟩ := x
  have same := congrArg UInt32.ofBitVec (pack_unpack_of_valid valid)
  exact congrArg Float32.ofModel ((Float32.Model.mk.injEq ..).mpr same)

theorem zeroKept (sign : Sign) : (Float32.Model.pack (.zero sign)).unpack = .zero sign := by
  cases sign with
  | negative => rfl
  | positive => rfl

def IsOne (x : Float32) : Prop :=
  x.toModel.unpack = .finite .positive (2 ^ 23) (-23) (Nat.two_pow_pos 23)

def IsZero (sign : Sign) (x : Float32) : Prop := x.toModel.unpack = .zero sign

theorem signPositive (sign : Sign) : sign * .positive = sign := by
  cases sign with
  | negative => rfl
  | positive => rfl

def SameNumber (x y : Float32) : Prop := x = y ∨ (x == y) = true

theorem zerosSame {s t : Sign} (first : IsZero s x) (second : IsZero t y) : SameNumber x y := by
  refine .inr ?_
  change UnpackedFloat.compare x.toModel.unpack y.toModel.unpack == some .eq
  rw [first, second]
  rfl

theorem subZero {sign : Sign} (zero : IsZero sign y) :
    x - y = x ∨ ∃ s t, IsZero s (x - y) ∧ IsZero t x := by
  have whole : x - y = Float32.ofModel (.pack
      (UnpackedFloat.sub Format.binary32 x.toModel.unpack y.toModel.unpack)) := rfl
  have kept (same : UnpackedFloat.sub Format.binary32 x.toModel.unpack (.zero sign) =
      x.toModel.unpack) : x - y = x := by rw [whole, zero, same, repacked]
  cases known : x.toModel.unpack with
  | infinity other => exact .inl (kept (by rw [known]; rfl))
  | notANumber => exact .inl (kept (by rw [known]; rfl))
  | zero other =>
    have result : ∃ s, UnpackedFloat.sub Format.binary32 (.zero other) (.zero sign) = .zero s := by
      cases other <;> cases sign <;> exact ⟨_, rfl⟩
    obtain ⟨s, result⟩ := result
    refine .inr ⟨s, other, ?_, known⟩
    rw [whole, known, zero, result]
    exact zeroKept s
  | finite other mantissa exponent some => exact .inl (kept (by rw [known]; rfl))

theorem mulOne (finite : x.isFinite = true) (one : IsOne y) : x * y = x := by
  change x.toModel.unpack.isFinite = true at finite
  have canonical := unpackedCanonical x
  have same : UnpackedFloat.mul Format.binary32 x.toModel.unpack y.toModel.unpack =
      x.toModel.unpack := by
    rw [one]
    cases known : x.toModel.unpack with
    | infinity sign => rw [known] at finite; contradiction
    | notANumber => rw [known] at finite; contradiction
    | zero sign => exact congrArg UnpackedFloat.zero (signPositive sign)
    | finite sign mantissa exponent some =>
      rw [known] at canonical
      rw [UnpackedFloat.mul, signPositive]
      exact roundScaled sign some canonical 23
  have whole : x * y = Float32.ofModel (.pack
      (UnpackedFloat.mul Format.binary32 x.toModel.unpack y.toModel.unpack)) := rfl
  rw [whole, same, repacked]

theorem zeroMul {sign : Sign} (zero : IsZero sign x) (finite : y.isFinite = true) :
    ∃ other, IsZero other (x * y) := by
  change y.toModel.unpack.isFinite = true at finite
  have whole : (x * y).toModel.unpack = (Float32.Model.pack
      (UnpackedFloat.mul Format.binary32 x.toModel.unpack y.toModel.unpack)).unpack := rfl
  simp only [IsZero, whole] at zero ⊢
  rw [zero]
  cases known : y.toModel.unpack with
  | infinity sign => rw [known] at finite; contradiction
  | notANumber => rw [known] at finite; contradiction
  | zero other => exact ⟨_, zeroKept _⟩
  | finite other mantissa exponent some => exact ⟨_, zeroKept _⟩

theorem mulZero (finite : x.isFinite = true) (zero : IsZero .positive y) :
    ∃ sign, IsZero sign (x * y) ∧ ∀ other, IsZero other x → other = sign := by
  change x.toModel.unpack.isFinite = true at finite
  have whole : (x * y).toModel.unpack = (Float32.Model.pack
      (UnpackedFloat.mul Format.binary32 x.toModel.unpack y.toModel.unpack)).unpack := rfl
  simp only [IsZero, whole] at zero ⊢
  rw [zero]
  cases known : x.toModel.unpack with
  | infinity sign => rw [known] at finite; contradiction
  | notANumber => rw [known] at finite; contradiction
  | zero sign =>
    refine ⟨sign, ?_, fun other same => ?_⟩
    · rw [UnpackedFloat.mul, signPositive, zeroKept]
    · cases same
      rfl
  | finite sign mantissa exponent some =>
    refine ⟨sign, ?_, nofun⟩
    rw [UnpackedFloat.mul, signPositive, zeroKept]

theorem addZero {sign : Sign} (zero : IsZero sign y) (signs : ∀ other, IsZero other x → other = sign) :
    x + y = x ∧ y + x = x := by
  have same : UnpackedFloat.add Format.binary32 x.toModel.unpack (.zero sign) = x.toModel.unpack ∧
      UnpackedFloat.add Format.binary32 (.zero sign) x.toModel.unpack = x.toModel.unpack := by
    simp only [IsZero] at signs
    cases known : x.toModel.unpack with
    | infinity sign => exact ⟨rfl, rfl⟩
    | notANumber => exact ⟨rfl, rfl⟩
    | zero other =>
      cases signs other known
      cases sign <;> exact ⟨rfl, rfl⟩
    | finite sign mantissa exponent some => exact ⟨rfl, rfl⟩
  have first : x + y = Float32.ofModel (.pack
      (UnpackedFloat.add Format.binary32 x.toModel.unpack y.toModel.unpack)) := rfl
  have second : y + x = Float32.ofModel (.pack
      (UnpackedFloat.add Format.binary32 y.toModel.unpack x.toModel.unpack)) := rfl
  rw [first, second, zero, same.1, same.2, repacked]
  exact ⟨rfl, rfl⟩

theorem blendWhole {a b : Float32} (finite : x.isFinite = true) (one : IsOne a)
    (zero : IsZero .positive b) : x * a + x * b = x ∧ x * b + x * a = x := by
  obtain ⟨sign, nothing, signs⟩ := mulZero finite zero
  rw [mulOne finite one]
  exact addZero nothing signs

end Identities

end KaraokeAnything.Binary32
