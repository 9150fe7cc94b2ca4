import KaraokeAnything.Library.ByteOrder
import KaraokeAnything.Library.Outcome

/-! The client's KANY v1 codec, client/src/protocol.rs. Samples are the 32-bit
patterns of the `f32` values, so that NaN payloads and signed zeros count. -/
namespace KaraokeAnything.Protocol
open ByteOrder Outcome

def magic : Bytes := [75, 65, 78, 89]
def version : UInt8 := 1
def headerSize : Nat := 28
def sampleFormatF32Le : UInt8 := 1
def reservedByte : UInt8 := 0
def reservedTrailer : UInt16 := 0

inductive Target where
  | bits32
  | bits64
  deriving DecidableEq, Repr

def Target.usizeLimit : Target → Nat
  | .bits32 => 2 ^ 32
  | .bits64 => 2 ^ 64

@[ext] structure AudioPacket where
  channels : UInt16
  sampleRate : UInt32
  sequence : UInt32
  timestampUs : UInt64
  frames : UInt16
  samples : List UInt32
  deriving DecidableEq, Repr

def encodePacket (target : Target) (packet : AudioPacket) : Outcome Bytes := do
  bailIf (packet.channels = 0 ∨ packet.channels > 255)
    "channel count must be between 1 and 255"
  bailIf (packet.frames = 0) "frame count must be greater than zero"
  let expectedSamples ← mulBelow target.usizeLimit packet.frames.toNat packet.channels.toNat
  bailIf (packet.samples.length ≠ expectedSamples)
    s!"sample count {packet.samples.length} does not match {packet.frames} frames × {packet.channels} channels"
  let sampleBytes ← mulBelow target.usizeLimit packet.samples.length 4
  let _capacity ← addBelow target.usizeLimit headerSize sampleBytes
  pure (magic ++ [version, reservedByte, packet.channels.toUInt8, sampleFormatF32Le] ++
    be 4 packet.sampleRate.toNat ++ be 4 packet.sequence.toNat ++
    be 8 packet.timestampUs.toNat ++ be 2 packet.frames.toNat ++
    be 2 reservedTrailer.toNat ++
    packet.samples.flatMap (fun sample => le 4 sample.toNat))

def decodePacket (target : Target) (data : Bytes) : Outcome AudioPacket := do
  bailIf (data.length < headerSize) s!"packet is shorter than the {headerSize}-byte header"
  bailIf ((← slice data 0 4) ≠ magic) "incorrect packet magic"
  let dataVersion ← index data 4
  bailIf (dataVersion ≠ version) s!"unsupported protocol version {dataVersion}"
  let dataFormat ← index data 7
  bailIf (dataFormat ≠ sampleFormatF32Le) s!"unsupported sample format {dataFormat}"
  let channels := (← index data 6).toUInt16
  let sampleRate := UInt32.ofNat (readBE (← exactly 4 (← slice data 8 12)))
  let sequence := UInt32.ofNat (readBE (← exactly 4 (← slice data 12 16)))
  let timestampUs := UInt64.ofNat (readBE (← exactly 8 (← slice data 16 24)))
  let frames := UInt16.ofNat (readBE (← exactly 2 (← slice data 24 26)))
  bailIf (channels = 0 ∨ frames = 0) "channels and frames must be non-zero"
  let frameSamples ← mulBelow target.usizeLimit frames.toNat channels.toNat
  let expectedPayload ← mulBelow target.usizeLimit frameSamples 4
  let expectedSize ← addBelow target.usizeLimit headerSize expectedPayload
  let received := data.length - headerSize
  bailIf (data.length ≠ expectedSize)
    s!"payload length mismatch: expected {expectedPayload}, received {received}"
  let payload ← slice data headerSize data.length
  let samples := (chunksExact 4 payload).map (fun chunk => UInt32.ofNat (readLE chunk))
  pure ⟨channels, sampleRate, sequence, timestampUs, frames, samples⟩

end KaraokeAnything.Protocol
