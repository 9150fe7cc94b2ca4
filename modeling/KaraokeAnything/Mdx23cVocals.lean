import KaraokeAnything.SegmentedInference

/-! app/audio_trombone/processors/mdx23c_vocals.py: its own copy of the segment
machinery, with a crossfade between segments and a bound on the buffered input. -/
namespace KaraokeAnything.Mdx23cVocals
open ByteOrder Kany Models Python Stateful
open SegmentedInference (InferenceOutcome InferenceTask decodeStereo decodeStereoOk takeSegment)

def supportedSegments : List Float := [0.25, 0.5, 0.75, 1.0, 1.5, 2.0]

abbrev StereoPacket := { packet : KanyPacket // packet.channels = 2 }

structure State where
  segmentSeconds : Float
  overlap : Float
  maxBufferedSegments : Int := 3
  inputPackets : List StereoPacket := []
  inputFrames : Int := 0
  readyOutput : List ProcessedPacket := []
  inferenceTask : Option InferenceTask := none
  activePackets : List StereoPacket := []
  streamSampleRate : Option Nat := none
  streamChannels : Option Nat := none
  previousTail : Option (List UInt32) := none
  segmentsStarted : Nat := 0
  segmentsCompleted : Nat := 0
  droppedPackets : Nat := 0
  underruns : Nat := 0
  lastError : Option String := none
  deriving DecidableEq

abbrev Method := Stateful State PyError

def decodeAndValidate (host : HostOrder) (payload : Bytes) : Except PyError StereoPacket :=
  match decoded : decodeStereo "MDX23C requires KANY v1 f32 PCM"
      (fun _ => "MDX23C requires stereo input") host payload with
  | .error e => .error e
  | .ok packet => .ok ⟨packet, (decodeStereoOk.mp decoded).2⟩

def dropOldest (maximum : Int) : List StereoPacket → Int → List StereoPacket × Int × Nat
  | [], frames => ([], frames, 0)
  | oldest :: rest, frames =>
    if maximum < frames then
      let (kept, total, dropped) := dropOldest maximum rest (frames - oldest.val.frames)
      (kept, total, dropped + 1)
    else (oldest :: rest, frames, 0)

def bufferPacket (decoded : StereoPacket) : Method Unit := do
  modify fun s => { s with
    inputPackets := s.inputPackets ++ [decoded]
    inputFrames := s.inputFrames + decoded.val.frames }
  let self ← get
  let segments ← ofExcept (intToFloat self.maxBufferedSegments)
  let maximum ← ofExcept (round
    (Float.ofNat decoded.val.sampleRate * self.segmentSeconds * segments))
  modify fun s =>
    let (kept, frames, dropped) := dropOldest maximum s.inputPackets s.inputFrames
    { s with
      inputPackets := kept, inputFrames := frames, droppedPackets := s.droppedPackets + dropped }

/- The assertion of the source holds behind `_track_stream_format`, which sets the rate. -/
def targetSegmentFrames : Method Int := do
  let self ← get
  match self.streamSampleRate with
  | none => throw (.exception "")
  | some rate => ofExcept (round (Float.ofNat rate * self.segmentSeconds))

def launchSegment : Method Unit := do
  let target ← targetSegmentFrames
  modify fun s =>
    let (packets, frames, rest) := takeSegment (·.val.frames) target s.inputPackets 0
    let items := packets.map (·.val)
    { s with
      inputPackets := rest
      inputFrames := s.inputFrames - frames
      activePackets := packets
      segmentsStarted := s.segmentsStarted + 1
      inferenceTask := some ⟨⟨items, frames, items.flatMap (·.samples)⟩, none⟩ }

def launchWhenReady : Method Unit := do
  let self ← get
  if self.inferenceTask.isNone then
    let target ← targetSegmentFrames
    if target ≤ self.inputFrames then launchSegment

/- A cancelled task raises `CancelledError`, which is no `Exception`: the handler is passed
by, and the active packets stay. -/
def awaitSegmentResult (outcome : InferenceOutcome) : Method (List UInt32) :=
  match outcome with
  | .returned output => pure output
  | .cancelled => throw .cancelledError
  | .raised text => do
    modify fun s => { s with activePackets := [], lastError := some text }
    throw (.runtimeError s!"MDX23C inference failed: {text}")

def usableTail (s : State) (samples : Nat) : Option (List UInt32) :=
  match s.previousTail with
  | none => none
  | some tail => if samples = 0 ∨ tail.length < samples then none else some tail

def blend {K : Type} [Add K] [Sub K] [Mul K] (one alpha tail sample : K) : K :=
  tail * (one - alpha) + sample * alpha

def crossfadeFrames (overlapFrames : Nat) : Nat → List UInt32 → List UInt32 → List UInt32
  | frame, tailLeft :: tailRight :: tail, left :: right :: rest =>
    if frame < overlapFrames then
      let alpha := Float.ofNat (frame + 1) / Float.ofNat (overlapFrames + 1)
      let mix := fun tail sample =>
        floatToItem (blend 1.0 alpha (itemToFloat tail) (itemToFloat sample))
      mix tailLeft left :: mix tailRight right ::
        crossfadeFrames overlapFrames (frame + 1) tail rest
    else left :: right :: rest
  | _, _, output => output

def fade (s : State) (overlapFrames : Nat) (output : List UInt32) : List UInt32 :=
  match usableTail s (overlapFrames * 2) with
  | some tail => crossfadeFrames overlapFrames 0 tail output
  | none => output

/- The registry builds the processor with `0 <= overlap`, so nothing is negative here. -/
def crossfade (output : List UInt32) : Method (List UInt32) := do
  let self ← get
  let frames := output.length / 2
  let wanted ← ofExcept (round (Float.ofNat frames * self.overlap))
  let overlapFrames := (min wanted (frames / 2 : Nat)).toNat
  let samples := overlapFrames * 2
  let faded := fade self overlapFrames output
  let tail := if samples = 0 then none else some (faded.drop (faded.length - samples))
  modify fun s => { s with previousTail := tail }
  pure faded

section Harvest
variable (host : HostOrder)

def distributePackets (output : List UInt32) : List StereoPacket → Nat → Method Unit
  | [], _ => pure ()
  | original :: rest, offset => do
    let count := original.val.frames * 2
    let payload ← ofExcept ((encodeSamples host original.val ((output.drop offset).take count)).mapError
      (fun e => PyError.valueError e.message))
    modify fun s => { s with readyOutput := s.readyOutput ++ [{ payload }] }
    distributePackets output rest (offset + count)

def sampleTotal (packets : List StereoPacket) : Nat := (packets.map (·.val.frames * 2)).sum

def distributeSegmentOutput (output : List UInt32) : Method Unit := do
  let self ← get
  let expected := sampleTotal self.activePackets
  if output.length ≠ expected then
    modify fun s => { s with activePackets := [] }
    throw (.runtimeError s!"MDX23C returned {output.length} samples; expected {expected}")
  else
    let faded ← crossfade output
    distributePackets host faded self.activePackets 0

def finishSegment : Method Unit :=
  modify fun s => { s with
    activePackets := [], segmentsCompleted := s.segmentsCompleted + 1, lastError := none }

def harvestInference : Method Unit := do
  let self ← get
  match self.inferenceTask.bind (·.outcome) with
  | none => pure ()
  | some outcome =>
    modify fun s => { s with inferenceTask := none }
    let output ← awaitSegmentResult outcome
    distributeSegmentOutput host output
    finishSegment

def cancelInference (s : State) : State :=
  { s with inferenceTask := s.inferenceTask.map (·.cancel) }

def clear (s : State) : State :=
  { s with
    inferenceTask := none
    activePackets := []
    inputPackets := []
    readyOutput := []
    inputFrames := 0
    streamSampleRate := none
    streamChannels := none
    previousTail := none
    lastError := none }

def formatChanged : PyError := .valueError "audio format changed; MDX23C state was reset"

/- Returns false where the reset of a changed stream awaits the running inference;
a harvest came before, so a task that is still there is running. -/
def trackStreamFormat (decoded : StereoPacket) : Method Bool := do
  let self ← get
  match self.streamSampleRate with
  | none =>
    modify fun s => { s with
      streamSampleRate := some decoded.val.sampleRate
      streamChannels := some decoded.val.channels }
    pure true
  | some rate =>
    if decoded.val.sampleRate ≠ rate ∨ some decoded.val.channels ≠ self.streamChannels then
      if self.inferenceTask.isSome then
        modify cancelInference
        pure false
      else
        modify clear
        throw formatChanged
    else pure true

def popReady : Method (List ProcessedPacket) := do
  let self ← get
  match self.readyOutput with
  | first :: rest =>
    modify fun s => { s with readyOutput := rest }
    pure [first]
  | [] =>
    if self.inferenceTask.isSome then
      modify fun s => { s with underruns := s.underruns + 1 }
    pure []

/- `none` where the call is suspended in the reset of `_track_stream_format`. Once that is
through, the call raises. -/
def process (payload : Bytes) : Method (Option (List ProcessedPacket)) := do
  harvestInference host
  let decoded ← ofExcept (decodeAndValidate host payload)
  let steady ← trackStreamFormat decoded
  if steady then
    bufferPacket decoded
    launchWhenReady
    let outputs ← popReady
    pure (some outputs)
  else pure none

def flush : Method (List ProcessedPacket) := do
  harvestInference host
  let self ← get
  modify fun s => { s with readyOutput := [] }
  pure self.readyOutput

end Harvest

def inferenceEnds (outcome : InferenceOutcome) (s : State) : Option State :=
  match s.inferenceTask with
  | some ⟨segment, none⟩ => some { s with inferenceTask := some ⟨segment, some outcome⟩ }
  | _ => none

end KaraokeAnything.Mdx23cVocals
