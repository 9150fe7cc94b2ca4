import KaraokeAnything.CentreReduction
import KaraokeAnything.Mdx23cVocals
import KaraokeAnything.Settings

/-! app/audio_trombone/processors: the seven processors behind their base class, and
the registry that builds them from the settings it captured. Model weights, devices
and the tensor code are left out; loading them is the `start` the service awaits. -/
namespace KaraokeAnything.Processors
open ByteOrder Config Kany Models Python Stateful
open SegmentedInference (InferenceOutcome)

section Configs

structure HTDemucsConfig where
  modelName : String := "htdemucs"
  device : String := "auto"
  segmentSeconds : Float := 6.0
  overlap : Float := 0.25
  shifts : Int := 0
  vocalReduction : Float := 1.0
  deriving DecidableEq, Repr

def HTDemucsConfig.checked (config : HTDemucsConfig) : Except PyError HTDemucsConfig :=
  if config.segmentSeconds ≤ 0 then
    .error (.valueError "segment_seconds must be greater than zero")
  else if ¬ (0 ≤ config.overlap ∧ config.overlap < 1) then
    .error (.valueError "overlap must be between zero and one")
  else if ¬ (0 ≤ config.vocalReduction ∧ config.vocalReduction ≤ 1) then
    .error (.valueError "vocal_reduction must be between 0.0 and 1.0")
  else .ok config

structure ConvTasNetLyricsConfig where
  modelPath : String := "/models/convtasnet-lyrics-causal"
  device : String := "auto"
  segmentSeconds : Float := 1.0
  vocalReduction : Float := 1.0
  vocalSourceIndex : Int := 0
  accompanimentSourceIndex : Int := 1
  deriving DecidableEq, Repr

def ConvTasNetLyricsConfig.checked (config : ConvTasNetLyricsConfig) :
    Except PyError ConvTasNetLyricsConfig :=
  if config.segmentSeconds ≤ 0 then
    .error (.valueError "segment_seconds must be greater than zero")
  else if ¬ (0 ≤ config.vocalReduction ∧ config.vocalReduction ≤ 1) then
    .error (.valueError "vocal_reduction must be between 0.0 and 1.0")
  else if config.vocalSourceIndex < 0 ∨ config.accompanimentSourceIndex < 0 then
    .error (.valueError "source indexes must be zero or greater")
  else .ok config

structure MDX23CVocalsConfig where
  configPath : String := "/models/mdx23c/model_2_stem_full_band_8k.yaml"
  checkpointPath : String := "/models/mdx23c/MDX23C-8KFFT-InstVoc_HQ.ckpt"
  device : String := "auto"
  segmentSeconds : Float := 1.0
  overlap : Float := 0.25
  batchSize : Int := 1
  vocalReduction : Float := 1.0
  precision : String := "float32"
  warmUp : Bool := false
  maxBufferedSegments : Int := 3
  deriving DecidableEq, Repr

def precisions : List String := ["float32", "float16", "bfloat16"]

def raiseFirstFailure : List (Bool × String) → Except PyError Unit
  | [] => .ok ()
  | (passed, message) :: rest =>
    if passed then raiseFirstFailure rest else .error (.valueError message)

theorem raiseFirstFailureOk {checks : List (Bool × String)} :
    raiseFirstFailure checks = .ok () ↔ ∀ check ∈ checks, check.1 = true := by
  induction checks with
  | nil => simp [raiseFirstFailure]
  | cons check rest ih =>
    obtain ⟨passed, message⟩ := check
    cases passed <;> simp [raiseFirstFailure, ih]

def MDX23CVocalsConfig.checked (config : MDX23CVocalsConfig) :
    Except PyError MDX23CVocalsConfig := do
  raiseFirstFailure [
    (Mdx23cVocals.supportedSegments.any (· == config.segmentSeconds),
      "segment_seconds must be one of (0.25, 0.5, 0.75, 1.0, 1.5, 2.0)"),
    (0 ≤ config.overlap ∧ config.overlap < 0.5, "overlap must be between 0.0 and less than 0.5"),
    (config.batchSize == 1, "batch_size must be 1 for paced interactive processing"),
    (0 ≤ config.vocalReduction ∧ config.vocalReduction ≤ 1,
      "vocal_reduction must be between 0.0 and 1.0"),
    (precisions.contains config.precision, "precision must be float32, float16, or bfloat16")]
  pure config

end Configs

structure HTDemucsProcessor where
  modelName : String
  requestedDevice : String
  overlap : Float
  shifts : Int
  vocalReduction : Float
  base : SegmentedInference.State

structure ConvTasNetLyricsProcessor where
  modelPath : String
  requestedDevice : String
  vocalReduction : Float
  vocalSourceIndex : Int
  accompanimentSourceIndex : Int
  base : SegmentedInference.State

structure MDX23CVocalsProcessor where
  configPath : String
  checkpointPath : String
  requestedDevice : String
  batchSize : Int
  vocalReduction : Float
  precision : String
  warmUp : Bool
  base : Mdx23cVocals.State

inductive Processor where
  | passthrough
  | delayPassthrough (delaySeconds : Float)
  | null
  | centreReduction (centreReduction : Float)
  | htdemucs (self : HTDemucsProcessor)
  | convTasNet (self : ConvTasNetLyricsProcessor)
  | mdx23c (self : MDX23CVocalsProcessor)

instance : Inhabited Processor := ⟨.passthrough⟩

namespace Processor

def name : Processor → String
  | passthrough => "passthrough"
  | delayPassthrough _ => "delay-passthrough"
  | null => "null"
  | centreReduction _ => "stereo-centre-reduction"
  | htdemucs _ => "htdemucs-vocals"
  | convTasNet _ => "convtasnet-lyrics-causal"
  | mdx23c _ => "mdx23c-vocals"

/- Where a call stands when it gives control back: suspended inside the processor,
or over. Outputs reach the caller as they are yielded, and nothing yields before a
suspension or a raise, so the outputs of a call come as one list. -/
inductive Progress where
  | suspended (self : Processor)
  | returned (outputs : List ProcessedPacket) (self : Processor)
  | raised (error : PyError) (self : Processor)

def settled {σ : Type} (wrap : σ → Processor) :
    Except PyError (List ProcessedPacket) × σ → Progress
  | (.ok outputs, self) => .returned outputs (wrap self)
  | (.error e, self) => .raised e (wrap self)

def process (host : HostOrder) : Processor → Bytes → Progress
  | passthrough, payload => .returned [{ payload }] passthrough
  | delayPassthrough delay, _ => .suspended (delayPassthrough delay)
  | null, _ => .returned [] null
  | centreReduction reduction, payload =>
    settled (fun _ => centreReduction reduction) (CentreReduction.process host reduction payload, ())
  | htdemucs self, payload =>
    settled (fun base => htdemucs { self with base })
      (exec (SegmentedInference.process host SegmentedInference.htdemucs payload) self.base)
  | convTasNet self, payload =>
    settled (fun base => convTasNet { self with base })
      (exec (SegmentedInference.process host SegmentedInference.convTasNet payload) self.base)
  | mdx23c self, payload =>
    match exec (Mdx23cVocals.process host payload) self.base with
    | (.ok none, base) => .suspended (mdx23c { self with base })
    | (.ok (some outputs), base) => .returned outputs (mdx23c { self with base })
    | (.error e, base) => .raised e (mdx23c { self with base })

def resume : Processor → Bytes → Progress
  | delayPassthrough delay, payload => .returned [{ payload }] (delayPassthrough delay)
  | mdx23c self, _ =>
    .raised Mdx23cVocals.formatChanged (mdx23c { self with base := Mdx23cVocals.clear self.base })
  | other, _ => .returned [] other

/- The same when the caller's task is cancelled meanwhile: sleeping passes the
cancellation on, the reset inside MDX23C swallows it. -/
def interrupt : Processor → Bytes → Progress
  | mdx23c self, payload => resume (mdx23c self) payload
  | other, _ => .raised .cancelledError other

def flush (host : HostOrder) : Processor → Except PyError (List ProcessedPacket) × Processor
  | htdemucs self =>
    let (result, base) := exec (SegmentedInference.flush host SegmentedInference.htdemucs) self.base
    (result, htdemucs { self with base })
  | convTasNet self =>
    let (result, base) :=
      exec (SegmentedInference.flush host SegmentedInference.convTasNet) self.base
    (result, convTasNet { self with base })
  | mdx23c self =>
    let (result, base) := exec (Mdx23cVocals.flush host) self.base
    (result, mdx23c { self with base })
  | other => (.ok [], other)

/- `reset`, up to its await and from there on; `stop` is a reset, too, and then drops
the model, and both do nothing in the other processors. -/
def beginReset : Processor → Processor
  | htdemucs self => htdemucs { self with base := SegmentedInference.cancelInference self.base }
  | convTasNet self => convTasNet { self with base := SegmentedInference.cancelInference self.base }
  | mdx23c self => mdx23c { self with base := Mdx23cVocals.cancelInference self.base }
  | other => other

def endReset : Processor → Processor
  | htdemucs self => htdemucs { self with base := SegmentedInference.clear self.base }
  | convTasNet self => convTasNet { self with base := SegmentedInference.clear self.base }
  | mdx23c self => mdx23c { self with base := Mdx23cVocals.clear self.base }
  | other => other

def inferenceEnds (outcome : InferenceOutcome) : Processor → Option Processor
  | htdemucs self =>
    (SegmentedInference.inferenceEnds outcome self.base).map (fun base => htdemucs { self with base })
  | convTasNet self =>
    (SegmentedInference.inferenceEnds outcome self.base).map
      (fun base => convTasNet { self with base })
  | mdx23c self =>
    (Mdx23cVocals.inferenceEnds outcome self.base).map (fun base => mdx23c { self with base })
  | _ => none

inductive Attribute where
  | vocalReduction
  | centreReduction
  deriving DecidableEq, Repr

def hasAttribute : Processor → Attribute → Bool
  | centreReduction _, .centreReduction => true
  | htdemucs _, .vocalReduction => true
  | convTasNet _, .vocalReduction => true
  | mdx23c _, .vocalReduction => true
  | _, _ => false

def setAttribute : Processor → Attribute → Float → Processor
  | centreReduction _, .centreReduction, value => centreReduction value
  | htdemucs self, .vocalReduction, value => htdemucs { self with vocalReduction := value }
  | convTasNet self, .vocalReduction, value => convTasNet { self with vocalReduction := value }
  | mdx23c self, .vocalReduction, value => mdx23c { self with vocalReduction := value }
  | other, _, _ => other

inductive Parameters where
  | untuned
  | delay (delaySeconds : Float)
  | centre (centreReduction : Float)
  | demucs (config : HTDemucsConfig)
  | tasnet (config : ConvTasNetLyricsConfig)
  | mdx (config : MDX23CVocalsConfig)
  deriving DecidableEq, Repr

def parameters : Processor → Parameters
  | passthrough => .untuned
  | null => .untuned
  | delayPassthrough delay => .delay delay
  | centreReduction reduction => .centre reduction
  | htdemucs self => .demucs {
      modelName := self.modelName, device := self.requestedDevice
      segmentSeconds := self.base.segmentSeconds, overlap := self.overlap
      shifts := self.shifts, vocalReduction := self.vocalReduction }
  | convTasNet self => .tasnet {
      modelPath := self.modelPath, device := self.requestedDevice
      segmentSeconds := self.base.segmentSeconds, vocalReduction := self.vocalReduction
      vocalSourceIndex := self.vocalSourceIndex
      accompanimentSourceIndex := self.accompanimentSourceIndex }
  | mdx23c self => .mdx {
      configPath := self.configPath, checkpointPath := self.checkpointPath
      device := self.requestedDevice, segmentSeconds := self.base.segmentSeconds
      overlap := self.base.overlap, batchSize := self.batchSize
      vocalReduction := self.vocalReduction, precision := self.precision
      warmUp := self.warmUp, maxBufferedSegments := self.base.maxBufferedSegments }

end Processor

section Constructors

def newDelayPassthrough (delayMs : Float) : Processor := .delayPassthrough (delayMs / 1000.0)

def newCentreReduction (reduction : Float) : Except PyError Processor :=
  if ¬ (0 ≤ reduction ∧ reduction ≤ 1) then
    .error (.valueError "centre_reduction must be between 0.0 and 1.0")
  else .ok (.centreReduction reduction)

def newHTDemucs (config : HTDemucsConfig) : Processor := .htdemucs {
  modelName := config.modelName, requestedDevice := config.device, overlap := config.overlap
  shifts := config.shifts, vocalReduction := config.vocalReduction
  base := { segmentSeconds := config.segmentSeconds } }

def newConvTasNetLyrics (config : ConvTasNetLyricsConfig) : Processor := .convTasNet {
  modelPath := config.modelPath, requestedDevice := config.device
  vocalReduction := config.vocalReduction, vocalSourceIndex := config.vocalSourceIndex
  accompanimentSourceIndex := config.accompanimentSourceIndex
  base := { segmentSeconds := config.segmentSeconds } }

def newMDX23CVocals (config : MDX23CVocalsConfig) : Processor := .mdx23c {
  configPath := config.configPath, checkpointPath := config.checkpointPath
  requestedDevice := config.device, batchSize := config.batchSize
  vocalReduction := config.vocalReduction, precision := config.precision, warmUp := config.warmUp
  base := {
    segmentSeconds := config.segmentSeconds, overlap := config.overlap
    maxBufferedSegments := config.maxBufferedSegments } }

end Constructors

def available : List String := ["convtasnet-lyrics-causal", "delay-passthrough", "htdemucs-vocals",
  "mdx23c-vocals", "null", "passthrough", "stereo-centre-reduction"]

/- `ProcessorRegistry(settings).create(name)`: each factory reads the settings the registry
was built with, whatever those of the service are by now. -/
def create (settings : Settings) (name : String) : Except PyError Processor :=
  match name with
  | "passthrough" => .ok .passthrough
  | "delay-passthrough" => .ok (newDelayPassthrough 5.0)
  | "null" => .ok .null
  | "stereo-centre-reduction" => newCentreReduction settings.centreReduction
  | "htdemucs-vocals" => newHTDemucs <$> HTDemucsConfig.checked {
      modelName := settings.demucsModel
      device := settings.demucsDevice
      segmentSeconds := settings.demucsSegmentSeconds
      overlap := settings.demucsOverlap
      shifts := settings.demucsShifts
      vocalReduction := settings.demucsVocalReduction }
  | "convtasnet-lyrics-causal" => newConvTasNetLyrics <$> ConvTasNetLyricsConfig.checked {
      modelPath := settings.convtasnetModelPath
      device := settings.convtasnetDevice
      segmentSeconds := settings.convtasnetSegmentSeconds
      vocalReduction := settings.convtasnetVocalReduction
      vocalSourceIndex := settings.convtasnetVocalSourceIndex
      accompanimentSourceIndex := settings.convtasnetAccompanimentSourceIndex }
  | "mdx23c-vocals" => newMDX23CVocals <$> MDX23CVocalsConfig.checked {
      configPath := settings.mdx23cConfigPath
      checkpointPath := settings.mdx23cCheckpointPath
      device := settings.mdx23cDevice
      segmentSeconds := settings.mdx23cSegmentSeconds
      overlap := settings.mdx23cOverlap
      batchSize := settings.mdx23cBatchSize
      vocalReduction := settings.mdx23cVocalReduction
      precision := settings.mdx23cPrecision }
  | name =>
    let available := String.intercalate ", " available
    .error (.valueError s!"Unknown processor '{name}'. Available: {available}")

end KaraokeAnything.Processors
