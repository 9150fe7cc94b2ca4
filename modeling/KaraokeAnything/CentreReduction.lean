import KaraokeAnything.SegmentedInference

/-! app/audio_trombone/processors/centre_reduction.py. -/
namespace KaraokeAnything.CentreReduction
open ByteOrder Kany Models Python
open SegmentedInference (decodeStereo)

section Arithmetic
variable {K : Type} [Add K] [Sub K] [Mul K] [LT K] [DecidableLT K]

/- `min(a, b)` and `max(a, b)` of Python return the first argument unless the second is
beyond it. With a float that is no number the order of the arguments decides. -/
def least (a b : K) : K := if b < a then b else a
def greatest (a b : K) : K := if a < b then b else a

def reduceFrame (minusOne one half reduction left right : K) : K × K :=
  let centre := (left + right) * half
  (greatest minusOne (least one (left - reduction * centre)),
    greatest minusOne (least one (right - reduction * centre)))

end Arithmetic

def reduceSamples (reduction : Float) : List UInt32 → List UInt32
  | left :: right :: rest =>
    let frame := reduceFrame (-1.0) 1.0 0.5 reduction (itemToFloat left) (itemToFloat right)
    floatToItem frame.1 :: floatToItem frame.2 :: reduceSamples reduction rest
  | items => items

def process (host : HostOrder) (reduction : Float) (payload : Bytes) :
    Except PyError (List ProcessedPacket) := do
  let decoded ← decodeStereo "Stereo centre reduction requires KANY v1 f32 PCM packets"
    (fun channels =>
      s!"Stereo centre reduction requires stereo input; received {channels} channels")
    host payload
  let payload ← (encodeSamples host decoded (reduceSamples reduction decoded.samples)).mapError
    (fun e => .valueError e.message)
  pure [{ payload }]

theorem reduceSamplesLength (reduction : Float) (items : List UInt32) :
    (reduceSamples reduction items).length = items.length := by
  fun_induction reduceSamples reduction items with
  | case1 left right rest frame ih => simp [ih]
  | case2 items => rfl

end KaraokeAnything.CentreReduction
