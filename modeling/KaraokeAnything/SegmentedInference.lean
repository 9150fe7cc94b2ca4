import KaraokeAnything.Kany
import KaraokeAnything.Library.Stateful
import KaraokeAnything.Models
import KaraokeAnything.Python

/-! app/audio_trombone/processors/segmented_inference.py: the buffering, launching
and harvesting shared by HTDemucs and ConvTasNet. The inference call runs on a
thread; its result, whenever it comes, is the `outcome` of the task. Durations
and the real-time factor are left out: they only feed log lines. -/
namespace KaraokeAnything.SegmentedInference
open ByteOrder Kany Models Python Stateful

/- What a subclass adds: `_model_label` and `_decode_and_validate`, which decodes a
KANY packet and refuses some of those it decoded. -/
structure SegmentModel where
  label : String
  decodeAndValidate : HostOrder → Bytes → Except PyError KanyPacket
  decodes : ∀ {host payload packet}, decodeAndValidate host payload = .ok packet →
    decode host payload = .ok packet

/- The four KANY processors accept stereo packets only; their texts differ. -/
def decodeStereo (requires : String) (stereo : Nat → String) (host : HostOrder)
    (payload : Bytes) : Except PyError KanyPacket :=
  match decode host payload with
  | .error e => .error (.valueError s!"{requires}: {e.message}")
  | .ok decoded =>
    if decoded.channels ≠ 2 then .error (.valueError (stereo decoded.channels)) else .ok decoded

theorem decodeStereoOk {requires : String} {stereo : Nat → String} {host : HostOrder}
    {payload : Bytes} {packet : KanyPacket} :
    decodeStereo requires stereo host payload = .ok packet ↔
      decode host payload = .ok packet ∧ packet.channels = 2 := by
  unfold decodeStereo
  split
  · simp [*]
  · rename_i decoded known
    rw [known]
    split
    · rename_i channels
      refine ⟨fun h => by contradiction, fun ⟨same, stereo⟩ => ?_⟩
      cases Except.ok.inj same
      exact absurd stereo channels
    · rename_i channels
      refine ⟨fun same => ?_, fun ⟨same, _⟩ => ?_⟩
      · cases Except.ok.inj same
        exact ⟨rfl, not_not.mp channels⟩
      · cases Except.ok.inj same
        rfl

def htdemucs : SegmentModel where
  label := "HTDemucs"
  decodeAndValidate := decodeStereo "HTDemucs requires KANY v1 f32 PCM packets"
    (fun channels => s!"HTDemucs prototype requires stereo input; received {channels} channels")
  decodes h := (decodeStereoOk.mp h).1

def convTasNet : SegmentModel where
  label := "ConvTasNet"
  decodeAndValidate := decodeStereo "ConvTasNet requires KANY v1 f32 PCM packets"
    (fun channels =>
      s!"ConvTasNet lyrics processor requires stereo input; received {channels} channels")
  decodes h := (decodeStereoOk.mp h).1

inductive InferenceOutcome where
  | returned (separated : List UInt32)
  | raised (text : String)
  | cancelled
  deriving DecidableEq, Repr

structure Segment where
  packets : List KanyPacket
  frames : Int
  samples : List UInt32
  deriving DecidableEq

structure InferenceTask where
  segment : Segment
  outcome : Option InferenceOutcome
  deriving DecidableEq

/- `Task.cancel()` of a finished task does nothing: it keeps its outcome, and the harvest
still finds it. -/
def InferenceTask.cancel (task : InferenceTask) : InferenceTask :=
  { task with outcome := some (task.outcome.getD .cancelled) }

structure State where
  segmentSeconds : Float
  inputPackets : List KanyPacket := []
  inputFrames : Int := 0
  readyOutput : List ProcessedPacket := []
  inferenceTask : Option InferenceTask := none
  activePackets : List KanyPacket := []
  streamSampleRate : Option Nat := none
  streamChannels : Option Nat := none
  segmentsStarted : Nat := 0
  segmentsCompleted : Nat := 0
  lastError : Option String := none
  deriving DecidableEq

abbrev Method := Stateful State PyError

def acceptStreamFormat (packet : KanyPacket) : Method Unit := do
  let self ← get
  match self.streamSampleRate with
  | none =>
    modify fun s => { s with
      streamSampleRate := some packet.sampleRate, streamChannels := some packet.channels }
  | some rate =>
    if packet.sampleRate ≠ rate ∨ some packet.channels ≠ self.streamChannels then
      let channels := self.streamChannels.getD 0
      throw (.valueError s!"audio format changed without processor reset: expected {rate}Hz/{channels}ch, received {packet.sampleRate}Hz/{packet.channels}ch")

def targetSegmentFrames : Method Int := do
  let self ← get
  match self.streamSampleRate with
  | none => throw (.runtimeError "stream format is not known")
  | some rate =>
    let frames ← ofExcept (round (Float.ofNat rate * self.segmentSeconds))
    pure (max 1 frames)

def segmentReady : Method Bool := do
  let target ← targetSegmentFrames
  let self ← get
  pure (target ≤ self.inputFrames)

def takeSegment {α : Type} (framesOf : α → Nat) (target : Int) : List α → Int → List α × Int × List α
  | [], frames => ([], frames, [])
  | current :: rest, frames =>
    if frames < target then
      let (packets, total, left) := takeSegment framesOf target rest (frames + framesOf current)
      (current :: packets, total, left)
    else ([], frames, current :: rest)

theorem takenSegment {α : Type} (framesOf : α → Nat) (target : Int) (packets : List α)
    (frames : Int) :
    let cut := takeSegment framesOf target packets frames
    packets = cut.1 ++ cut.2.2 ∧ cut.2.1 = frames + ((cut.1.map framesOf).sum : Nat) := by
  induction packets generalizing frames with
  | nil => simp [takeSegment]
  | cons current rest ih =>
    obtain ⟨split, total⟩ := ih (frames + framesOf current)
    simp only [takeSegment]
    split
    · refine ⟨congrArg (current :: ·) split, ?_⟩
      rw [total]
      simp only [List.map_cons, List.sum_cons]
      omega
    · simp

def launchSegment : Method Unit := do
  let target ← targetSegmentFrames
  modify fun s =>
    let (packets, frames, rest) := takeSegment (·.frames) target s.inputPackets 0
    { s with
      inputPackets := rest
      inputFrames := s.inputFrames - frames
      activePackets := packets
      segmentsStarted := s.segmentsStarted + 1
      inferenceTask := some ⟨⟨packets, frames, packets.flatMap (·.samples)⟩, none⟩ }

/- `segment_ready` is evaluated only when no task is there. -/
def launchWhenReady : Method Unit := do
  let self ← get
  if self.inferenceTask.isNone then
    let ready ← segmentReady
    if ready then launchSegment

section Harvest
variable (host : HostOrder) (model : SegmentModel)

def awaitSegmentResult (outcome : InferenceOutcome) : Method (List UInt32) :=
  match outcome with
  | .returned separated => pure separated
  | .cancelled => do
    modify fun s => { s with activePackets := [] }
    throw .cancelledError
  | .raised text => do
    modify fun s => { s with lastError := some text, activePackets := [] }
    throw (.runtimeError s!"{model.label} inference failed: {text}")

def distributePackets (separated : List UInt32) : List KanyPacket → Nat → Method Unit
  | [], _ => pure ()
  | original :: rest, offset => do
    let count := original.frames * original.channels
    let packetSamples := (separated.drop offset).take count
    let payload ← ofExcept ((encodeSamples host original packetSamples).mapError
      (fun e => PyError.valueError e.message))
    modify fun s => { s with readyOutput := s.readyOutput ++ [{ payload }] }
    distributePackets separated rest (offset + count)

def sampleTotal (packets : List KanyPacket) : Nat :=
  (packets.map (fun packet => packet.frames * packet.channels)).sum

def distributeSegmentOutput (separated : List UInt32) : Method Unit := do
  let self ← get
  let expected := sampleTotal self.activePackets
  if separated.length ≠ expected then
    modify fun s => { s with activePackets := [] }
    throw (.runtimeError s!"{model.label} returned {separated.length} samples; expected {expected}")
  else
    distributePackets host separated self.activePackets 0

def finishSegment : Method Unit :=
  modify fun s => { s with
    activePackets := [], segmentsCompleted := s.segmentsCompleted + 1, lastError := none }

/- Awaiting a task that is done does not suspend. -/
def harvestInference : Method Unit := do
  let self ← get
  match self.inferenceTask.bind (·.outcome) with
  | none => pure ()
  | some outcome =>
    modify fun s => { s with inferenceTask := none }
    let separated ← awaitSegmentResult model outcome
    distributeSegmentOutput host model separated
    finishSegment

def popReady : Method (List ProcessedPacket) := do
  let self ← get
  match self.readyOutput with
  | [] => pure []
  | first :: rest =>
    modify fun s => { s with readyOutput := rest }
    pure [first]

def process (payload : Bytes) : Method (List ProcessedPacket) := do
  harvestInference host model
  let decoded ← ofExcept (model.decodeAndValidate host payload)
  acceptStreamFormat decoded
  modify fun s => { s with
    inputPackets := s.inputPackets ++ [decoded]
    inputFrames := s.inputFrames + decoded.frames }
  launchWhenReady
  popReady

def flush : Method (List ProcessedPacket) := do
  harvestInference host model
  let self ← get
  modify fun s => { s with readyOutput := [] }
  pure self.readyOutput

end Harvest

def cancelInference (s : State) : State :=
  { s with inferenceTask := s.inferenceTask.map (·.cancel) }

def clear (s : State) : State :=
  { s with
    inferenceTask := none
    activePackets := []
    inputPackets := []
    inputFrames := 0
    readyOutput := []
    streamSampleRate := none
    streamChannels := none
    lastError := none }

/- The background task ends; a task that is done or cancelled keeps its outcome. -/
def inferenceEnds (outcome : InferenceOutcome) (s : State) : Option State :=
  match s.inferenceTask with
  | some ⟨segment, none⟩ => some { s with inferenceTask := some ⟨segment, some outcome⟩ }
  | _ => none

end KaraokeAnything.SegmentedInference
