import KaraokeAnything.Library.Dict
import KaraokeAnything.Library.Tensor
import KaraokeAnything.Python
import Mathlib.Algebra.Field.Defs

/-! `_run_inference` of HTDemucs (processors/htdemucs.py), ConvTasNet
(processors/convtasnet_lyrics.py) and MDX23C (processors/mdx23c_vocals.py, mdx23c.py): the
tensor code around the separation. The models and the resampler are parameters; precisions
and the inference mode are left out. -/
namespace KaraokeAnything.ModelInference
open Dictionaries Python Tensors

/- What the code computes with: the floats of Python, the elements of a tensor, the items
of an array. `scalar` is what a tensor makes of a float that it is multiplied by. -/
structure Numbers (S K α : Type) where
  one : S
  scalar : S → K
  zero : K
  lowest : K
  highest : K
  read : α → K
  write : K → α

def floats : Numbers Float Float32 UInt32 where
  one := 1.0
  scalar r := Float32.ofBits (floatToItem r)
  zero := Float32.ofBits 0
  lowest := Float32.ofBits 0xBF800000
  highest := Float32.ofBits 0x3F800000
  read := Float32.ofBits
  write := Float32.toBits

def exact (K : Type) [Field K] : Numbers K K K where
  one := 1
  scalar := id
  zero := 0
  lowest := -1
  highest := 1
  read := id
  write := id

abbrev Result := Except PyError

def torch {A : Type} : Option A → Result A
  | some a => .ok a
  | none => .error (.exception "")

inductive Device where
  | cpu
  | accelerator (name : String)
  deriving DecidableEq, Repr

abbrev TorchTensor (K : Type) := Placed Device K

abbrev Resampler (K : Type) := TorchTensor K → Nat → Nat → Result (TorchTensor K)

def resampled {K : Type} (resample : Resampler K) (t : TorchTensor K) (source target : Nat) :
    Result (TorchTensor K) :=
  if source ≠ target then resample t source target else pure t

/- `pad(t, (0, frames - t.shape[-1]))` where `t` has fewer frames; no negative padding is
ever asked for. -/
def padShort {K : Type} (zero : K) (t : TorchTensor K) (frames : Nat) : Result (TorchTensor K) := do
  let width ← torch t.width
  if width < frames then torch (t.padLast (frames - width) zero) else pure t

def tupleText (items : List String) : String :=
  match items with
  | [item] => s!"({item},)"
  | items => "(" ++ ", ".intercalate items ++ ")"

def shapeText {K : Type} (t : TorchTensor K) : String := tupleText (t.shape.map toString)

/- `repr` of a text that needs no escape. -/
def quoted (text : String) : String := s!"'{text}'"

section Arithmetic
variable {S K α : Type} [Sub S] [Add K] [Sub K] [Mul K] [LT K] [DecidableLT K]

def Numbers.clamp (numbers : Numbers S K α) (x : K) : K :=
  if x < numbers.lowest then numbers.lowest else if numbers.highest < x then numbers.highest else x

/- One entry of `separated * r + original * (1.0 - r)`. -/
def Numbers.blend (numbers : Numbers S K α) (r : S) (separated original : K) : K :=
  separated * numbers.scalar r + original * numbers.scalar (numbers.one - r)

def Numbers.without (numbers : Numbers S K α) (r : S) (original vocals : K) : K :=
  original - vocals * numbers.scalar r

end Arithmetic

section Processors
variable {S K α : Type} [Sub S] [Add K] [Sub K] [Mul K] [LT K] [DecidableLT K]
variable (numbers : Numbers S K α) (resample : Resampler K)

abbrev InferenceFunction (α : Type) := List α → Nat → Nat → Result (List α)

def channelRows (samples : List α) (channels : Nat) : Result (TorchTensor K) := do
  let waveform := Placed.ofList Device.cpu (samples.map numbers.read)
  let frames ← torch (waveform.viewRows channels)
  torch frames.transpose

def finalizeOutput (modelRate : Nat) (output : TorchTensor K) (sampleRate targetFrames : Nat) :
    Result (TorchTensor K) := do
  let output ← resampled resample output modelRate sampleRate
  let output ← padShort numbers.zero output targetFrames
  let output ← torch (output.narrowLast targetFrames)
  let turned ← torch (output.map numbers.clamp).transpose
  pure (turned.flat.moveTo .cpu)

def toArray (interleaved : TorchTensor K) : List α := interleaved.data.map numbers.write

end Processors

section HTDemucs
variable {S K α : Type} [Sub S] [Add K] [Sub K] [Mul K] [LT K] [DecidableLT K]

structure Separator (K : Type) where
  samplerate : Nat
  separateTensor : TorchTensor K → Nat → Result (TorchTensor K × Dict String (TorchTensor K))

structure HTDemucs (S K α : Type) where
  vocalReduction : S
  inferenceFn : Option (InferenceFunction α) := none
  separator : Option (Separator K)

variable (numbers : Numbers S K α) (resample : Resampler K) (self : HTDemucs S K α)

def HTDemucs.toChannelFirstWaveform (samples : List α) (channels : Nat) : Result (TorchTensor K) :=
  channelRows numbers samples channels

def HTDemucs.reduceVocals (separator : Separator K) (waveform : TorchTensor K) (sampleRate : Nat) :
    Result (TorchTensor K) := do
  let (original, stems) ← separator.separateTensor waveform sampleRate
  match stems.find "vocals" with
  | none => throw (.runtimeError "Demucs model did not return a vocals stem")
  | some vocals => torch (original.zip (numbers.without self.vocalReduction) vocals)

def HTDemucs.finalizeOutput (separator : Separator K) (output : TorchTensor K)
    (sampleRate targetFrames : Nat) : Result (TorchTensor K) :=
  ModelInference.finalizeOutput numbers resample separator.samplerate output sampleRate targetFrames

def HTDemucs.runInference (samples : List α) (sampleRate channels : Nat) : Result (List α) :=
  match self.inferenceFn, self.separator with
  | some inference, _ => inference samples sampleRate channels
  | none, none => .error (.runtimeError "Demucs separator is not loaded")
  | none, some separator => do
    let waveform ← HTDemucs.toChannelFirstWaveform numbers samples channels
    let targetFrames := samples.length / channels
    let output ← self.reduceVocals numbers separator waveform sampleRate
    let interleaved ← HTDemucs.finalizeOutput numbers resample separator output sampleRate targetFrames
    pure (toArray numbers interleaved)

end HTDemucs

section ConvTasNet
variable {S K α : Type} [Sub S] [Add K] [Sub K] [Mul K] [LT K] [DecidableLT K]

/- The configuration lets no negative source index through. -/
structure ConvTasNet (S K α : Type) where
  vocalReduction : S
  vocalSourceIndex : Nat := 0
  accompanimentSourceIndex : Nat := 1
  modelSampleRate : Nat := 44100
  device : Device
  inferenceFn : Option (InferenceFunction α) := none
  model : Option (TorchTensor K → Result (TorchTensor K))

variable (numbers : Numbers S K α) (resample : Resampler K) (self : ConvTasNet S K α)

def ConvTasNet.prepareWaveform (samples : List α) (sampleRate channels : Nat) :
    Result (TorchTensor K) := do
  let rows ← channelRows numbers samples channels
  let waveform ← torch (rows.unsqueeze 0)
  let waveform ← resampled resample waveform sampleRate self.modelSampleRate
  pure (waveform.moveTo self.device)

def ConvTasNet.separateAccompaniment (model : TorchTensor K → Result (TorchTensor K))
    (waveform : TorchTensor K) : Result (TorchTensor K) := do
  let estimates ← model waveform
  match estimates.shape with
  | [_, sourceCount, _, _] =>
    if sourceCount ≤ max self.vocalSourceIndex self.accompanimentSourceIndex then
      throw (.runtimeError s!"Configured ConvTasNet source index exceeds model output count: sources={sourceCount}")
    else
      let first ← torch (estimates.select 0)
      let accompaniment ← torch (first.select self.accompanimentSourceIndex)
      let mix ← torch (waveform.select 0)
      torch (accompaniment.zip (numbers.blend self.vocalReduction) mix)
  | _ => throw (.runtimeError s!"Expected ConvTasNet output [batch, sources, channels, frames], received shape {shapeText estimates}")

def ConvTasNet.finalizeOutput (output : TorchTensor K) (sampleRate targetFrames : Nat) :
    Result (TorchTensor K) :=
  ModelInference.finalizeOutput numbers resample self.modelSampleRate output sampleRate targetFrames

def ConvTasNet.runInference (samples : List α) (sampleRate channels : Nat) : Result (List α) :=
  match self.inferenceFn, self.model with
  | some inference, _ => inference samples sampleRate channels
  | none, none => .error (.runtimeError "ConvTasNet model is not loaded")
  | none, some model => do
    let waveform ← self.prepareWaveform numbers resample samples sampleRate channels
    let targetFrames := samples.length / channels
    let output ← self.separateAccompaniment numbers model waveform
    let interleaved ← self.finalizeOutput numbers resample output sampleRate targetFrames
    pure (toArray numbers interleaved)

end ConvTasNet

section MDX23C
variable {S K α : Type} [Sub S] [Add K] [Sub K] [Mul K] [LT K] [DecidableLT K]

/- The stem names are in lower case since they were loaded. -/
structure Adapter (K : Type) where
  sampleRate : Nat
  stems : List String
  device : Device
  model : TorchTensor K → Result (TorchTensor K)

def validateWaveformInput (waveform : TorchTensor K) (sampleRate expectedRate : Nat) : Result Unit :=
  if sampleRate ≠ expectedRate then
    .error (.valueError s!"MDX23C requires {expectedRate} Hz input; received {sampleRate} Hz")
  else if waveform.shape.length ≠ 3 ∨ waveform.shape[1]? ≠ some 2 then
    .error (.valueError s!"MDX23C input must have shape [batch, 2, frames]; received {shapeText waveform}")
  else .ok ()

def hasValidStemShape (result waveform : TorchTensor K) : Bool :=
  result.shape.length = 4 ∧ result.shape[0]? = waveform.shape[0]? ∧ result.shape[2]? = some 2

def withStems (result : TorchTensor K) : Result (TorchTensor K) :=
  if result.shape.length = 3 then torch (result.unsqueeze 1) else pure result

def normaliseOutput (zero : K) (result waveform : TorchTensor K) (frames stemCount : Nat) :
    Result (TorchTensor K) := do
  let result ← withStems result
  if !hasValidStemShape result waveform then
    throw (.runtimeError s!"MDX23C output must be [batch, stems, 2, frames]; received {shapeText result}")
  else if result.shape[1]? ≠ some stemCount then
    throw (.runtimeError s!"MDX23C returned {result.shape[1]?.getD 0} stems; YAML declares {stemCount}")
  else
    let result ← padShort zero result frames
    torch (result.narrowLast frames)

def Adapter.infer (adapter : Adapter K) (zero : K) (waveform : TorchTensor K) (sampleRate : Nat) :
    Result (TorchTensor K) := do
  validateWaveformInput waveform sampleRate adapter.sampleRate
  let frames ← torch waveform.width
  let waveform := waveform.moveTo adapter.device
  let result ← adapter.model waveform
  normaliseOutput zero result waveform frames adapter.stems.length

def Adapter.stemIndex (adapter : Adapter K) (names : List String) : Result Nat :=
  match names.find? (fun name => name.toLower ∈ adapter.stems) with
  | some name => .ok (adapter.stems.idxOf name.toLower)
  | none => .error (.runtimeError s!"none of {tupleText (names.map quoted)} appears in configured stems {tupleText (adapter.stems.map quoted)}")

structure MDX23C (S K α : Type) where
  vocalReduction : S
  inferenceFn : Option (InferenceFunction α) := none
  adapter : Option (Adapter K)

variable (numbers : Numbers S K α) (resample : Resampler K) (self : MDX23C S K α)

def MDX23C.blended (adapter : Adapter K) (waveform : TorchTensor K) (sampleRate : Nat) :
    Result (TorchTensor K) := do
  let waveform ← resampled resample waveform sampleRate adapter.sampleRate
  let estimates ← adapter.infer numbers.zero waveform adapter.sampleRate
  let stem ← adapter.stemIndex ["instrumental", "other", "accompaniment"]
  let first ← torch (estimates.select 0)
  let instrumental ← torch (first.select stem)
  let original ← torch (waveform.select 0)
  torch (instrumental.zip (numbers.blend self.vocalReduction) original)

def MDX23C.runInference (samples : List α) (sampleRate channels : Nat) : Result (List α) :=
  match self.inferenceFn, self.adapter with
  | some inference, _ => inference samples sampleRate channels
  | none, none => .error (.runtimeError "MDX23C model is not loaded")
  | none, some adapter => do
    let rows ← channelRows numbers samples 2
    let waveform ← torch (rows.unsqueeze 0)
    let originalFrames ← torch waveform.width
    let result ← self.blended numbers resample adapter waveform sampleRate
    let result ← resampled resample result adapter.sampleRate sampleRate
    let frames ← torch result.width
    let padded ← torch (result.padLast (originalFrames - frames) numbers.zero)
    let result ← torch (padded.narrowLast originalFrames)
    let turned ← torch (result.map numbers.clamp).transpose
    pure (toArray numbers (turned.moveTo .cpu).flat)

end MDX23C

end KaraokeAnything.ModelInference
