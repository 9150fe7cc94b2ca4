import KaraokeAnything.CentreReduction
import KaraokeAnything.KanyReply
import Mathlib

/-! What centre reduction does to the sides and the middle of every frame, in exact
arithmetic. -/
namespace KaraokeAnything.CentreReduction
open ByteOrder Kany Models Python
open SegmentedInference (decodeStereoOk encodeSamplesOk itemBytes samplesRead)

structure Arithmetic (K α : Type) where
  minusOne : K
  one : K
  half : K
  read : α → K
  write : K → α

def floats : Arithmetic Float UInt32 where
  minusOne := -1.0
  one := 1.0
  half := 0.5
  read := itemToFloat
  write := floatToItem

local instance atLeastTwo : Nat.AtLeastTwo 2 := ⟨Nat.le_refl 2⟩

def exact (K : Type) [Field K] : Arithmetic K K where
  minusOne := -1
  one := 1
  half := 1 / 2
  read := id
  write := id

section Loop
variable {K α : Type} [Add K] [Sub K] [Mul K] [LT K] [DecidableLT K]

def Arithmetic.reduce (arithmetic : Arithmetic K α) (reduction : K) : List α → List α
  | left :: right :: rest =>
    let frame := reduceFrame arithmetic.minusOne arithmetic.one arithmetic.half reduction
      (arithmetic.read left) (arithmetic.read right)
    arithmetic.write frame.1 :: arithmetic.write frame.2 :: arithmetic.reduce reduction rest
  | items => items

theorem reduceLength (arithmetic : Arithmetic K α) (reduction : K) (items : List α) :
    (arithmetic.reduce reduction items).length = items.length := by
  fun_induction Arithmetic.reduce arithmetic reduction items with
  | case1 left right rest frame ih => simp only [List.length_cons, ih]
  | case2 items => rfl

theorem reducePosition (arithmetic : Arithmetic K α) (reduction : K) {items : List α} {i : Nat}
    {left right : α} (atLeft : items[2 * i]? = some left) (atRight : items[2 * i + 1]? = some right) :
    let frame := reduceFrame arithmetic.minusOne arithmetic.one arithmetic.half reduction
      (arithmetic.read left) (arithmetic.read right)
    (arithmetic.reduce reduction items)[2 * i]? = some (arithmetic.write frame.1) ∧
      (arithmetic.reduce reduction items)[2 * i + 1]? = some (arithmetic.write frame.2) := by
  induction i generalizing items with
  | zero =>
    match items with
    | [] | [_] => contradiction
    | first :: second :: rest =>
      cases atLeft
      cases atRight
      exact ⟨rfl, rfl⟩
  | succ i ih =>
    have place : 2 * (i + 1) = 2 * i + 1 + 1 := by omega
    rw [place] at atLeft atRight ⊢
    match items with
    | [] | [_] => contradiction
    | first :: second :: rest => exact ih atLeft atRight

end Loop

theorem reduceFloats (reduction : Float) (items : List UInt32) :
    floats.reduce reduction items = reduceSamples reduction items := by
  fun_induction reduceSamples reduction items with
  | case1 left right rest frame ih => rw [Arithmetic.reduce, ih]; rfl
  | case2 items short => rw [Arithmetic.reduce]; exact short

section Frame
variable {K : Type} [Field K] [LinearOrder K] [IsStrictOrderedRing K] {r x left right : K}

def InRange (x : K) : Prop := -1 ≤ x ∧ x ≤ 1

theorem clampRange (x : K) : InRange (greatest (-1) (least 1 x)) := by
  unfold InRange greatest least
  split <;> split <;> constructor <;> linarith

theorem clampInert (inside : InRange x) : greatest (-1) (least 1 x) = x := by
  obtain ⟨low, high⟩ := inside
  unfold greatest least
  split <;> split <;> linarith

/- A frame without its centre is a mixture of its samples, one of them negated. -/
theorem mixtureInside (bounds : 0 ≤ r ∧ r ≤ 1) (inLeft : InRange left) (inRight : InRange right) :
    InRange (left - r * ((left + right) * (1 / 2))) := by
  have mixture : left - r * ((left + right) * (1 / 2)) = (1 - r / 2) * left - r / 2 * right := by ring
  have most : 0 ≤ 1 - r / 2 := by linarith
  have least : 0 ≤ r / 2 := by linarith
  rw [InRange, mixture]
  constructor
  · have low := mul_le_mul_of_nonneg_left inLeft.1 most
    have high := mul_le_mul_of_nonneg_left inRight.2 least
    linarith
  · have high := mul_le_mul_of_nonneg_left inLeft.2 most
    have low := mul_le_mul_of_nonneg_left inRight.1 least
    linarith

theorem frameInert (bounds : 0 ≤ r ∧ r ≤ 1) (inLeft : InRange left) (inRight : InRange right) :
    reduceFrame (-1) 1 (1 / 2) r left right =
      (left - r * ((left + right) * (1 / 2)), right - r * ((left + right) * (1 / 2))) := by
  have other := mixtureInside bounds inRight inLeft
  rw [add_comm right left] at other
  rw [reduceFrame, clampInert (mixtureInside bounds inLeft inRight), clampInert other]

end Frame

section Frames
variable {K : Type} [Field K] [LinearOrder K] [IsStrictOrderedRing K] {r s : K} {samples : List K}

theorem reducedRange (r : K) {frames : Nat} (whole : samples.length = 2 * frames) :
    ∀ sample ∈ (exact K).reduce r samples, InRange sample := by
  induction frames generalizing samples with
  | zero =>
    rw [List.length_eq_zero_iff.mp whole]
    exact nofun
  | succ frames ih =>
    match samples with
    | left :: right :: rest =>
      have less : rest.length = 2 * frames := by
        simp only [List.length_cons] at whole
        omega
      rw [Arithmetic.reduce]
      simp only [List.mem_cons, forall_eq_or_imp]
      exact ⟨clampRange _, clampRange _, ih less⟩
    | [_] =>
      simp only [List.length_cons, List.length_nil] at whole
      omega

theorem bothBounds (first : 0 ≤ r ∧ r ≤ 1) (second : 0 ≤ s ∧ s ≤ 1) :
    0 ≤ r + s - r * s ∧ r + s - r * s ≤ 1 := by
  have product := mul_nonneg (sub_nonneg.mpr first.2) (sub_nonneg.mpr second.2)
  have part := mul_nonneg first.1 (sub_nonneg.mpr second.2)
  constructor <;> linarith

theorem frameTwice (first : 0 ≤ r ∧ r ≤ 1) (second : 0 ≤ s ∧ s ≤ 1) {left right : K}
    (inLeft : InRange left) (inRight : InRange right) :
    let frame := reduceFrame (-1) 1 (1 / 2) r left right
    reduceFrame (-1) 1 (1 / 2) s frame.1 frame.2 =
      reduceFrame (-1) 1 (1 / 2) (r + s - r * s) left right := by
  have other := mixtureInside first inRight inLeft
  rw [add_comm right left] at other
  rw [frameInert first inLeft inRight, frameInert (bothBounds first second) inLeft inRight]
  simp only
  rw [frameInert second (mixtureInside first inLeft inRight) other]
  refine Prod.ext ?_ ?_ <;> ring

theorem reducedTwice (first : 0 ≤ r ∧ r ≤ 1) (second : 0 ≤ s ∧ s ≤ 1)
    (inside : ∀ sample ∈ samples, InRange sample) :
    (exact K).reduce s ((exact K).reduce r samples) = (exact K).reduce (r + s - r * s) samples := by
  fun_induction (exact K).reduce r samples with
  | case1 left right rest frame ih =>
    simp only [List.mem_cons, forall_eq_or_imp] at inside
    obtain ⟨inLeft, inRight, others⟩ := inside
    have twice : reduceFrame (-1) 1 (1 / 2) s frame.1 frame.2 = _ :=
      frameTwice first second inLeft inRight
    rw [Arithmetic.reduce, Arithmetic.reduce, ih others]
    simp only [exact, id_eq] at twice ⊢
    rw [twice]
  | case2 samples short => rw [Arithmetic.reduce, Arithmetic.reduce] <;> exact short

def Centred (r : K) (samples : List K) (i : Nat) : Prop :=
  ∃ left right left' right', samples[2 * i]? = some left ∧ samples[2 * i + 1]? = some right ∧
    ((exact K).reduce r samples)[2 * i]? = some left' ∧
    ((exact K).reduce r samples)[2 * i + 1]? = some right' ∧
    left' = left - r * ((left + right) / 2) ∧ right' = right - r * ((left + right) / 2) ∧
    left' - right' = left - right ∧ (left' + right') / 2 = (1 - r) * ((left + right) / 2)

theorem framesCentred (bounds : 0 ≤ r ∧ r ≤ 1) {frames : Nat}
    (whole : samples.length = 2 * frames) (inside : ∀ sample ∈ samples, InRange sample) {i : Nat}
    (within : i < frames) : Centred r samples i := by
  have atLeft := List.getElem?_eq_getElem (show 2 * i < samples.length by omega)
  have atRight := List.getElem?_eq_getElem (show 2 * i + 1 < samples.length by omega)
  obtain ⟨outLeft, outRight⟩ := reducePosition (exact K) r atLeft atRight
  have inert := frameInert bounds (inside _ (List.mem_of_getElem? atLeft))
    (inside _ (List.mem_of_getElem? atRight))
  simp only [exact, id_eq, inert] at outLeft outRight
  refine ⟨_, _, _, _, atLeft, atRight, outLeft, outRight, ?_, ?_, ?_, ?_⟩ <;> ring

end Frames

section Packet
variable {host : HostOrder} {payload : Bytes} {packet : KanyPacket}

theorem processKeeps (reduction : Float) (accepted : decode host payload = .ok packet)
    (stereo : packet.channels = 2) : ∃ reply decoded,
      process host reduction payload = .ok [{ payload := reply }] ∧
      reply.take headerSize = payload.take headerSize ∧ decode host reply = .ok decoded ∧
      decoded.frames = packet.frames ∧
      decoded.samples = floats.reduce reduction packet.samples := by
  have count : (reduceSamples reduction packet.samples).length = packet.channels * packet.frames := by
    rw [reduceSamplesLength, packet.sampleCount]
  have encoded : encodeSamples host packet (reduceSamples reduction packet.samples) = .ok _ :=
    encodeSamplesOk count
  obtain ⟨header, decoded, read, _, frames, samples⟩ := replyKept accepted encoded
  refine ⟨_, decoded, ?_, header, read, frames, ?_⟩
  · exact okBind.mpr ⟨packet, decodeStereoOk.mpr ⟨accepted, stereo⟩,
      okBind.mpr ⟨_, by rw [encoded]; rfl, rfl⟩⟩
  · rw [reduceFloats, samples]

theorem centreReduced (host : HostOrder) (payload : Bytes) (packet : KanyPacket)
    (accepted : decode host payload = .ok packet) (stereo : packet.channels = 2) :
    (∀ reduction : Float, ∃ reply decoded,
      process host reduction payload = .ok [{ payload := reply }] ∧
      reply.take headerSize = payload.take headerSize ∧ decode host reply = .ok decoded ∧
      decoded.frames = packet.frames ∧ decoded.samples = floats.reduce reduction packet.samples ∧
      decoded.samples.length = packet.samples.length) ∧
    ∀ (K : Type) [Field K] [LinearOrder K] [IsStrictOrderedRing K] (r : K) (samples : List K),
      0 ≤ r ∧ r ≤ 1 → samples.length = packet.samples.length →
      ((exact K).reduce r samples).length = samples.length ∧
      (∀ sample ∈ (exact K).reduce r samples, InRange sample) ∧
      ((∀ sample ∈ samples, InRange sample) →
        (∀ i < packet.frames, Centred r samples i) ∧
        ∀ s, 0 ≤ s ∧ s ≤ 1 → (exact K).reduce s ((exact K).reduce r samples) =
          (exact K).reduce (r + s - r * s) samples) := by
  refine ⟨fun reduction => ?_, fun K _ _ _ r samples bounds size => ?_⟩
  · obtain ⟨reply, decoded, answered, header, read, frames, items⟩ :=
      processKeeps reduction accepted stereo
    refine ⟨reply, decoded, answered, header, read, frames, items, ?_⟩
    rw [items, reduceLength]
  · have whole : samples.length = 2 * packet.frames := by rw [size, packet.sampleCount, stereo]
    refine ⟨reduceLength _ r samples, reducedRange r whole, fun inside => ⟨fun i within => ?_, ?_⟩⟩
    · exact framesCentred bounds whole inside within
    · exact fun s second => reducedTwice bounds second inside

theorem centreReducedReserved : ∃ packet, decode .big reservedFrame = .ok packet ∧
    (∃ reply, process .big 0.7 reservedFrame = .ok [{ payload := reply }] ∧
      reply.take headerSize = reservedFrame.take headerSize) ∧
    (exact ℚ).reduce 1 ((exact ℚ).reduce (1 / 2) [1, 1 / 2]) =
      (exact ℚ).reduce (1 / 2 + 1 - 1 / 2 * 1) [1, 1 / 2] := by
  obtain ⟨code, arithmetic⟩ := centreReduced .big reservedFrame _ rfl rfl
  obtain ⟨reply, _, answered, header, _⟩ := code 0.7
  obtain ⟨_, _, inside⟩ := arithmetic ℚ (1 / 2) [1, 1 / 2] (by norm_num) rfl
  refine ⟨_, rfl, ⟨reply, answered, header⟩, (inside ?_).2 1 (by norm_num)⟩
  simp only [List.mem_cons, List.not_mem_nil, or_false, forall_eq_or_imp, forall_eq, InRange]
  norm_num

end Packet

end KaraokeAnything.CentreReduction
