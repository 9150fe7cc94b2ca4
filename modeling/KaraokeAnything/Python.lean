import Mathlib.Algebra.Group.Nat.Defs

/-! The built-in behaviour of the server's language that the model leans on:
exceptions, rounding, truth values, and the items of an `array("f")`. Python's
`float` is Lean's binary64 `Float`. -/
namespace KaraokeAnything.Python
open Float.Model (UnpackedFloat Format)

/- The exceptions a processor or a control call of the server raises.
`asyncio.CancelledError` is no `Exception`, so handlers treat it apart. -/
inductive PyError where
  | valueError (message : String)
  | runtimeError (message : String)
  | overflowError (message : String)
  | exception (message : String)
  | cancelledError
  deriving DecidableEq, Repr

theorem okBind {ε α β : Type} {first : Except ε α} {next : α → Except ε β} {b : β} :
    (first >>= next) = .ok b ↔ ∃ a, first = .ok a ∧ next a = .ok b := by
  cases first <;> simp [bind, Except.bind]

theorem okMap {ε α β : Type} {f : α → β} {result : Except ε α} {b : β} :
    f <$> result = .ok b ↔ ∃ a, result = .ok a ∧ f a = b := by
  cases result <;> simp [Functor.map, Except.map]

def roundHalfEven (numerator shift : Nat) : Nat :=
  let quotient := numerator / 2 ^ shift
  let twice := 2 * (numerator % 2 ^ shift)
  if twice < 2 ^ shift then quotient
  else if 2 ^ shift < twice then quotient + 1
  else quotient + quotient % 2

def round (x : Float) : Except PyError Int :=
  match x.toModel.unpack with
  | .notANumber => .error (.valueError "cannot convert float NaN to integer")
  | .infinity _ => .error (.overflowError "cannot convert float infinity to integer")
  | .zero _ => .ok 0
  | .finite sign mantissa exponent _ =>
    let magnitude :=
      if 0 ≤ exponent then mantissa * 2 ^ exponent.toNat
      else roundHalfEven mantissa (-exponent).toNat
    .ok (match sign with
      | .positive => magnitude
      | .negative => -magnitude)

theorem roundDefined (x : Float) : (∃ n, round x = .ok n) ↔ x.isFinite = true := by
  change _ ↔ x.toModel.unpack.isFinite = true
  unfold round
  cases x.toModel.unpack with
  | notANumber | infinity =>
    refine ⟨?_, nofun⟩
    rintro ⟨n, known⟩
    contradiction
  | zero | finite => exact ⟨fun _ => rfl, fun _ => ⟨_, rfl⟩⟩

/- Arithmetic of a float with an `int` converts the `int` first, and raises where that
overflows. -/
def intToFloat (n : Int) : Except PyError Float :=
  if (Float.ofInt n).isFinite then .ok (Float.ofInt n)
  else .error (.overflowError "int too large to convert to float")

/- `a / b` of two `int`s: the exact quotient, rounded once. Neither operand is converted. -/
def divide (a b : Int) : Except PyError Float :=
  if divisor : b = 0 then .error (.exception "division by zero")
  else if dividend : a = 0 then .ok 0.0
  else
    let sign (n : Int) : UnpackedFloat.Sign := if n < 0 then .negative else .positive
    let quotient := Float.ofModel (Float.Model.pack (UnpackedFloat.div Format.binary64
      (.finite (sign a) a.natAbs 0 (Int.natAbs_pos.mpr dividend))
      (.finite (sign b) b.natAbs 0 (Int.natAbs_pos.mpr divisor))))
    if quotient.isFinite then .ok quotient
    else .error (.overflowError "integer division result too large for a float")

def divideFloats (x y : Float) : Except PyError Float :=
  if y == 0.0 then .error (.exception "float division by zero") else .ok (x / y)

/- Reading an item of an `array("f")` widens it to a float; storing one rounds. -/
def itemToFloat (item : UInt32) : Float :=
  .ofModel (Float.Model.pack (match UnpackedFloat.unpack Format.binary32 item.toBitVec with
    | .finite sign mantissa exponent _ =>
      UnpackedFloat.round Format.binary64 sign mantissa exponent
    | special => special))

def floatToItem (x : Float) : UInt32 :=
  UInt32.ofBitVec (UnpackedFloat.pack Format.binary32 (match x.toModel.unpack with
    | .finite sign mantissa exponent _ =>
      UnpackedFloat.round Format.binary32 sign mantissa exponent
    | special => special))

/- `left or right` where `left` is an optional string: an empty one counts as absent. -/
def orElse (left right : Option String) : Option String :=
  match left with
  | some text => if text.isEmpty then right else left
  | none => right

def isSpace (c : Char) : Bool :=
  let code := c.toNat
  (9 ≤ code && code ≤ 13) || (28 ≤ code && code ≤ 32) || code == 0x85 || code == 0xa0 ||
  code == 0x1680 || (0x2000 ≤ code && code ≤ 0x200a) || code == 0x2028 || code == 0x2029 ||
  code == 0x202f || code == 0x205f || code == 0x3000

def hasText (text : String) : Bool := text.toList.any (fun c => !isSpace c)

def startsWith (text head : String) : Bool := head.toList.isPrefixOf text.toList

def removePrefix (text head : String) : String :=
  if startsWith text head then String.ofList (text.toList.drop head.toList.length) else text

theorem startsWithIff {text head : String} :
    startsWith text head = true ↔ text = head ++ removePrefix text head := by
  constructor
  · intro starts
    rw [removePrefix, if_pos starts]
    refine String.toList_inj.mp ?_
    rw [String.toList_append, String.toList_ofList]
    exact (List.prefix_iff_eq_append.mp (List.isPrefixOf_iff_prefix.mp starts)).symm
  · intro same
    rw [startsWith, same, String.toList_append]
    exact List.isPrefixOf_iff_prefix.mpr (List.prefix_append _ _)

example : (round 0.5, round 1.5, round (-2.5)) = (.ok 0, .ok 2, .ok (-2)) := by rfl
example : floatToItem (itemToFloat 0x3dcccccd) = 0x3dcccccd := by decide

end KaraokeAnything.Python
