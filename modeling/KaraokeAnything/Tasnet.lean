import KaraokeAnything.Library.Layers
import KaraokeAnything.ModelInference

/-! The network of app/audio_trombone/vendor/clarity_tasnet.py, which the ConvTasNet processor
loads and runs in evaluation mode. Its weights are any tensors of the shapes its constructors
give them; `kernel` is the arithmetic of PyTorch. -/
namespace KaraokeAnything.Tasnet
open Layers ModelInference Python Tensors

structure Hyper where
  N : Nat := 256
  L : Nat := 20
  B : Nat := 256
  H : Nat := 512
  P : Nat := 3
  X : Nat := 8
  R : Nat := 4
  C : Nat := 4
  audioChannels : Nat := 1
  normType : String := "gLN"
  causal : Bool := false
  maskNonlinear : String := "relu"

inductive Normalisation where
  | gLN
  | cLN
  | id
  | batchNorm
  deriving DecidableEq, Repr

def choseNorm (normType : String) : Normalisation :=
  if normType = "gLN" then .gLN
  else if normType = "cLN" then .cLN
  else if normType = "id" then .id
  else .batchNorm

inductive Norm (K : Type) (channelSize : Nat) : Normalisation → Type where
  | globalLayerNorm (gamma beta : Weights K [1, channelSize, 1]) : Norm K channelSize .gLN
  | channelwiseLayerNorm (gamma beta : Weights K [1, channelSize, 1]) : Norm K channelSize .cLN
  | identity : Norm K channelSize .id
  | batchNorm (runningMean runningVar weight bias : Weights K [channelSize]) :
      Norm K channelSize .batchNorm

def foldFloats (values : List Float32) : Float32 := values.foldl (· + ·) 0

def meanFloats (values : List Float32) : Float32 := foldFloats values / values.length.toFloat32

/- The arithmetic on one thread, sums from the left. PyTorch may choose any other order. -/
def floatKernel : Kernel Float32 where
  zero := 0
  epsilon := 1e-8
  add := (· + ·)
  sub := (· - ·)
  mul := (· * ·)
  div := (· / ·)
  square value := value * value
  root := Float32.sqrt
  sum := foldFloats
  mean := meanFloats
  variance values := meanFloats (values.map fun value =>
    (value - meanFloats values) * (value - meanFloats values))
  relu value := if 0 < value then value else 0
  prelu slope value := if 0 < value then value else slope * value
  softmax values i := (values.getD i 0).exp / foldFloats (values.map Float32.exp)
  batchNorm value mean variance weight bias :=
    (value - mean) / (variance + 1e-5).sqrt * weight + bias

section Layers
variable {K : Type} (kernel : Kernel K)

def normalised {channelSize : Nat} (gamma beta : Weights K [1, channelSize, 1])
    (value mean variance : Tensor K) : Option (Tensor K) := do
  let centred ← value.broadcast kernel.zero kernel.sub mean
  let scaled ← gamma.val.broadcast kernel.zero kernel.mul centred
  let spread := variance.map fun v => kernel.root (kernel.add v kernel.epsilon)
  let unit ← scaled.broadcast kernel.zero kernel.div spread
  unit.broadcast kernel.zero kernel.add beta.val

def channelwiseLayerNorm {channelSize : Nat} (gamma beta : Weights K [1, channelSize, 1])
    (value : Tensor K) : Option (Tensor K) :=
  let mean := value.reduce kernel.zero 1 kernel.mean
  let variance := value.reduce kernel.zero 1 kernel.variance
  normalised kernel gamma beta value mean variance

def globalLayerNorm {channelSize : Nat} (gamma beta : Weights K [1, channelSize, 1])
    (value : Tensor K) : Option (Tensor K) := do
  let mean := (value.reduce kernel.zero 1 kernel.mean).reduce kernel.zero 2 kernel.mean
  let centred ← value.broadcast kernel.zero kernel.sub mean
  let variance := ((centred.map kernel.square).reduce kernel.zero 1 kernel.mean).reduce kernel.zero 2
    kernel.mean
  normalised kernel gamma beta value mean variance

def batchNorm1d {channelSize : Nat} (runningMean runningVar weight bias : Weights K [channelSize])
    (value : Tensor K) : Option (Tensor K) :=
  if value.shape.length = 3 ∧ value.shape[1]? = some channelSize then
    some (Tensor.tabulate value.shape fun place =>
      let channel := [place.getD 1 0]
      kernel.batchNorm (value.read kernel.zero place) (runningMean.val.read kernel.zero channel)
        (runningVar.val.read kernel.zero channel) (weight.val.read kernel.zero channel)
        (bias.val.read kernel.zero channel))
  else none

def Norm.forward {channelSize : Nat} {kind : Normalisation} :
    Norm K channelSize kind → Tensor K → Option (Tensor K)
  | .globalLayerNorm gamma beta, value => Tasnet.globalLayerNorm kernel gamma beta value
  | .channelwiseLayerNorm gamma beta, value => Tasnet.channelwiseLayerNorm kernel gamma beta value
  | .identity, value => some value
  | .batchNorm runningMean runningVar weight bias, value =>
    batchNorm1d kernel runningMean runningVar weight bias value

def chomp1d (chompSize : Nat) (value : Tensor K) : Option (Tensor K) :=
  if chompSize = 0 then some value
  else do
    let frames ← value.width
    value.narrowLast (frames - chompSize)

structure DepthwiseSeparableConv (K : Type) (inChannels outChannels kernelSize : Nat)
    (kind : Normalisation) where
  depthwise : Weights K [inChannels, 1, kernelSize]
  slope : K
  norm : Norm K inChannels kind
  pointwise : Weights K [outChannels, inChannels, 1]

structure TemporalBlock (K : Type) (inChannels outChannels kernelSize : Nat)
    (kind : Normalisation) where
  expand : Weights K [outChannels, inChannels, 1]
  slope : K
  norm : Norm K outChannels kind
  separable : DepthwiseSeparableConv K outChannels inChannels kernelSize kind

variable {inChannels outChannels kernelSize : Nat} {kind : Normalisation}

def DepthwiseSeparableConv.forward
    (layers : DepthwiseSeparableConv K inChannels outChannels kernelSize kind)
    (stride padding dilation : Nat) (causal : Bool) (value : Tensor K) : Option (Tensor K) := do
  let value ← kernel.conv1d stride padding dilation inChannels layers.depthwise value
  let value ← if causal then chomp1d padding value else some value
  let value ← layers.norm.forward kernel (value.map (kernel.prelu layers.slope))
  kernel.conv1d 1 0 1 1 layers.pointwise value

def TemporalBlock.net (block : TemporalBlock K inChannels outChannels kernelSize kind)
    (stride padding dilation : Nat) (causal : Bool) (value : Tensor K) : Option (Tensor K) := do
  let value ← kernel.conv1d 1 0 1 1 block.expand value
  let value ← block.norm.forward kernel (value.map (kernel.prelu block.slope))
  block.separable.forward kernel stride padding dilation causal value

def TemporalBlock.forward (block : TemporalBlock K inChannels outChannels kernelSize kind)
    (stride padding dilation : Nat) (causal : Bool) (value : Tensor K) : Option (Tensor K) := do
  let output ← block.net kernel stride padding dilation causal value
  output.broadcast kernel.zero kernel.add value

end Layers

section Separator

structure TemporalConvNet (K : Type) (hyper : Hyper) where
  gamma : Weights K [1, hyper.N, 1]
  beta : Weights K [1, hyper.N, 1]
  bottleneck : Weights K [hyper.B, hyper.N, 1]
  blocks : Nat → Nat → TemporalBlock K hyper.B hyper.H hyper.P (choseNorm hyper.normType)
  maskConv : Weights K [hyper.C * hyper.N, hyper.B, 1]

variable {K : Type} (kernel : Kernel K) {hyper : Hyper}

def Hyper.dilation (x : Nat) : Nat := 2 ^ x

def Hyper.padding (hyper : Hyper) (x : Nat) : Nat :=
  if hyper.causal then (hyper.P - 1) * Hyper.dilation x else (hyper.P - 1) * Hyper.dilation x / 2

def Hyper.order (hyper : Hyper) : List (Nat × Nat) :=
  (List.range hyper.R).flatMap fun r => (List.range hyper.X).map fun x => (r, x)

def TemporalConvNet.block (net : TemporalConvNet K hyper) (entry : Nat × Nat) (value : Tensor K) :
    Option (Tensor K) :=
  (net.blocks entry.1 entry.2).forward kernel 1 (hyper.padding entry.2) (Hyper.dilation entry.2)
    hyper.causal value

def TemporalConvNet.network (net : TemporalConvNet K hyper) (value : Tensor K) :
    Option (Tensor K) := do
  let value ← channelwiseLayerNorm kernel net.gamma net.beta value
  let value ← kernel.conv1d 1 0 1 1 net.bottleneck value
  let value ← hyper.order.foldlM (fun value entry => net.block kernel entry value) value
  kernel.conv1d 1 0 1 1 net.maskConv value

def softmax (score : Tensor K) : Tensor K :=
  Tensor.tabulate score.shape fun place =>
    kernel.softmax (score.along kernel.zero 1 place) (place.getD 1 0)

def TemporalConvNet.forward (net : TemporalConvNet K hyper) (mixtureW : Tensor K) :
    Result (Tensor K) :=
  match mixtureW.shape with
  | [batch, channels, frames] => do
    let output ← torch (net.network kernel mixtureW)
    let score ← torch (output.view [batch, hyper.C, channels, frames])
    if hyper.maskNonlinear = "softmax" then pure (softmax kernel score)
    else if hyper.maskNonlinear = "relu" then pure (score.map kernel.relu)
    else throw (.valueError "Unsupported mask non-linear function")
  | _ => throw (.valueError "")

end Separator

section Ends
variable {K : Type} (kernel : Kernel K)

/- `overlap_and_add`: frames of one length, each `frame_step` behind the one before, are cut
into the largest pieces that both lengths are made of, and added piece by piece. -/
def overlapAndAdd (signal : Tensor K) (frameStep : Nat) : Option (Tensor K) :=
  let outerDimensions := signal.shape.take (signal.shape.length - 2)
  match signal.shape.drop (signal.shape.length - 2) with
  | [frames, frameLength] => do
    let subframeLength := Nat.gcd frameLength frameStep
    let subframeStep := frameStep / subframeLength
    let subframesPerFrame := frameLength / subframeLength
    let outputSize := frameStep * (frames - 1) + frameLength
    let outputSubframes := outputSize / subframeLength
    let subframeSignal ← signal.viewOpen outerDimensions [subframeLength]
    let windows ← unfold (List.range outputSubframes) subframesPerFrame subframeStep
    let result := Tensor.tabulate (outerDimensions ++ [outputSubframes, subframeLength])
      fun _ => kernel.zero
    let result ← result.indexAdd kernel.zero kernel.add outerDimensions.length windows.flatten
      subframeSignal
    result.viewOpen outerDimensions []
  | _ => none

structure Encoder (K : Type) (hyper : Hyper) where
  conv1dU : Weights K [hyper.N, hyper.audioChannels, hyper.L]

structure Decoder (K : Type) (hyper : Hyper) where
  basisSignals : Weights K [hyper.audioChannels * hyper.L, hyper.N]

structure ConvTasNetStereo (K : Type) (hyper : Hyper) where
  encoder : Encoder K hyper
  separator : TemporalConvNet K hyper
  decoder : Decoder K hyper

variable {hyper : Hyper}

def Encoder.forward (encoder : Encoder K hyper) (mixture : Tensor K) : Option (Tensor K) := do
  let mixtureW ← kernel.conv1d (hyper.L / 2) 0 1 1 encoder.conv1dU mixture
  some (mixtureW.map kernel.relu)

def Decoder.forward (decoder : Decoder K hyper) (mixtureW estMask : Tensor K) :
    Option (Tensor K) := do
  let mixtureW ← mixtureW.unsqueeze 1
  let sourceW ← mixtureW.broadcast kernel.zero kernel.mul estMask
  let sourceW ← sourceW.transposeAt kernel.zero 2
  let estSource ← kernel.linear decoder.basisSignals sourceW
  match estSource.shape with
  | [m, c, k, _] => do
    let split ← estSource.viewOpen [m, c, k, hyper.audioChannels] []
    let turned ← split.transposeAt kernel.zero 2
    overlapAndAdd kernel turned (hyper.L / 2)
  | _ => none

/- `F.pad(value, (0, origin - current))`, which cuts where there are too many frames. -/
def padTo (value : Tensor K) (origin : Nat) : Option (Tensor K) := do
  let current ← value.width
  if current ≤ origin then value.padLast (origin - current) kernel.zero
  else value.narrowLast origin

def ConvTasNetStereo.forward (model : ConvTasNetStereo K hyper) (mixture : Tensor K) :
    Result (Tensor K) := do
  let mixtureW ← torch (model.encoder.forward kernel mixture)
  let estMask ← model.separator.forward kernel mixtureW
  let estSource ← torch (model.decoder.forward kernel mixtureW estMask)
  let origin ← torch mixture.width
  torch (padTo kernel estSource origin)

end Ends

end KaraokeAnything.Tasnet
