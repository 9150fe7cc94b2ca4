import KaraokeAnything.SegmentAnswers
import KaraokeAnything.SeparationResults
import KaraokeAnything.TasnetForward

/-! The ConvTasNet processor around its network: which segments it separates at the rate of
the model, and which samples of a segment decide one sample that comes back. -/
namespace KaraokeAnything.Tasnet
open Layers ModelInference Python Tensors

structure Resizes {K : Type} (resample : Resampler K) (length : Nat → Nat → Nat → Nat) : Prop where
  same : ∀ n rate, length n rate rate = n
  resizes : ∀ source target, source ≠ target → ∀ (t : TorchTensor K) (front : List Nat) (n : Nat),
    t.shape = front ++ [n] →
    ∃ u, resample t source target = .ok u ∧ u.device = t.device ∧
      u.shape = front ++ [length n source target]

theorem resampledResizes {K : Type} {resample : Resampler K} {length : Nat → Nat → Nat → Nat}
    (resizes : Resizes resample length) (source target : Nat) {t : TorchTensor K}
    {front : List Nat} {n : Nat} (shape : t.shape = front ++ [n]) :
    ∃ u, resampled resample t source target = .ok u ∧ u.device = t.device ∧
      u.shape = front ++ [length n source target] := by
  unfold resampled
  split
  · exact resizes.resizes source target ‹_› t front n shape
  · rename_i equal
    cases not_not.mp equal
    exact ⟨t, rfl, rfl, shape.trans (by rw [resizes.same])⟩

theorem resizesResamples {K : Type} {resample : Resampler K} {length : Nat → Nat → Nat → Nat}
    (resizes : Resizes resample length) (source target : Nat) : Resamples resample source target := by
  intro differs t front n shape
  obtain ⟨u, converted, held, done⟩ := resizes.resizes source target differs t front n shape
  exact ⟨u, _, converted, held, done⟩

/- `network.to(device)`, which takes no tensor from elsewhere. -/
def onDevice {K : Type} (network : Tensor K → Result (Tensor K)) (device : Device) (t : TorchTensor K) :
    Result (TorchTensor K) :=
  if t.device = device then (⟨·, device⟩) <$> network t.toTensor else torch none

theorem onDeviceReturns {K : Type} {network : Tensor K → Result (Tensor K)} {device : Device}
    {t : TorchTensor K} (held : t.device = device) {estimates : Tensor K}
    (estimated : network t.toTensor = .ok estimates) :
    onDevice network device t = .ok ⟨estimates, device⟩ := by
  rw [onDevice, if_pos held, estimated]
  rfl

section Processor
variable {S K α : Type} [Sub S] [Add K] [Mul K]
variable {kernel : Kernel K} {hyper : Hyper} {net : ConvTasNetStereo K hyper}
variable {processor : ConvTasNet S K α} {numbers : Numbers S K α} {resample : Resampler K}
variable {length : Nat → Nat → Nat → Nat} {samples output : List α} {frames sampleRate : Nat}

structure Loaded (processor : ConvTasNet S K α) (kernel : Kernel K) (net : ConvTasNetStereo K hyper) :
    Prop where
  real : processor.inferenceFn = none
  loaded : processor.model = some (onDevice (net.forward kernel) processor.device)

structure Separable (processor : ConvTasNet S K α) (hyper : Hyper) (frames : Nat) : Prop where
  stereo : hyper.audioChannels = 2
  indexes : max processor.vocalSourceIndex processor.accompanimentSourceIndex < hyper.C
  supported : hyper.Supported
  strides : 2 ≤ hyper.L
  long : hyper.L ≤ frames

theorem waveformSeparated (sound : hyper.Sound)
    (separable : Separable processor hyper frames) (waveform : TorchTensor K)
    (held : waveform.device = processor.device) (shape : waveform.shape = [1, 2, frames])
    (numbers : Numbers S K α) :
    ∃ (estimates : Tensor K) (separated : TorchTensor K),
      net.forward kernel waveform.toTensor = .ok estimates ∧
      estimates.shape = [1, hyper.C, 2, frames] ∧
      processor.separateAccompaniment numbers (onDevice (net.forward kernel) processor.device)
        waveform = .ok separated ∧
      separated.shape = [2, frames] ∧ ∀ channel frame x y,
        estimates.entry [0, processor.accompanimentSourceIndex, channel, frame] = some x →
        waveform.entry [0, channel, frame] = some y → separated.entry [channel, frame] =
          some (numbers.blend processor.vocalReduction x y) := by
  have sources : 0 < hyper.C := Nat.zero_lt_of_lt separable.indexes
  obtain ⟨takes, shaped⟩ := forwardReturns sound Nat.one_pos sources
    (separable.stereo ▸ Nat.two_pos) kernel net waveform.toTensor (separable.stereo ▸ shape)
  obtain ⟨estimates, estimated⟩ := takes.mpr ⟨separable.supported, separable.strides, separable.long⟩
  have whole : estimates.shape = [1, hyper.C, 2, frames] :=
    (shaped estimates estimated).trans (by rw [separable.stereo])
  obtain ⟨separated, accompaniment, separatedShape, entries⟩ := separatedAccompaniment numbers
    (onDeviceReturns held estimated) held.symm whole Nat.one_pos separable.indexes shape
  exact ⟨estimates, separated, estimated, whole, accompaniment, separatedShape, entries⟩

theorem stepRefuses {A B : Type} {first : Result A} {next : A → Result B}
    (refuses : ∀ a, first ≠ .ok a) (b : B) : first >>= next ≠ .ok b := by
  cases first with
  | ok a => exact absurd rfl (refuses a)
  | error raised =>
    intro equal
    contradiction

theorem waveformRefused (sound : hyper.Sound) (sources : 0 < hyper.C)
    (inseparable : ¬ Separable processor hyper frames) (waveform : TorchTensor K)
    (held : waveform.device = processor.device) (shape : waveform.shape = [1, 2, frames])
    (separated : TorchTensor K) :
    processor.separateAccompaniment numbers (onDevice (net.forward kernel) processor.device)
      waveform ≠ .ok separated := by
  cases ran : net.forward kernel waveform.toTensor with
  | error raised =>
    refine stepRefuses (fun estimates estimated => ?_) separated
    rw [onDevice, if_pos held, ran] at estimated
    contradiction
  | ok estimates =>
    have channels : hyper.audioChannels = 2 := by
      by_contra differs
      obtain ⟨mixtureW, encodes, _⟩ := okBind.mp ran
      rw [encoderNeedsChannels kernel net.encoder shape (Ne.symm differs)] at encodes
      contradiction
    obtain ⟨takes, shaped⟩ := forwardReturns sound Nat.one_pos sources
      (channels ▸ Nat.two_pos) kernel net waveform.toTensor (channels ▸ shape)
    obtain ⟨supported, strides, long⟩ := takes.mp ⟨estimates, ran⟩
    have exceeds : hyper.C ≤ max processor.vocalSourceIndex processor.accompanimentSourceIndex :=
      Nat.not_lt.mp fun indexes => inseparable ⟨channels, indexes, supported, strides, long⟩
    rw [ConvTasNet.separateAccompaniment, stepOk (onDeviceReturns held ran), shaped estimates ran]
    simp only [exceeds, if_true]
    intro equal
    contradiction

variable [LT K] [DecidableLT K]

theorem inferenceReturns (loaded : Loaded processor kernel net) (sound : hyper.Sound)
    (sources : 0 < hyper.C) (inert : numbers.clamp numbers.zero = numbers.zero)
    (resizes : Resizes resample length) (sampleRate : Nat) (stereo : samples.length = 2 * frames) :
    ((∃ output, processor.runInference numbers resample samples sampleRate 2 = .ok output) ↔
      Separable processor hyper (length frames sampleRate processor.modelSampleRate)) ∧
    ∀ output, processor.runInference numbers resample samples sampleRate 2 = .ok output →
      output.length = samples.length := by
  obtain ⟨rows, waveform, went, batched, _, shape, _⟩ := batchedRows numbers stereo
  obtain ⟨input, converted, _, inputShape⟩ := @resampledResizes K resample length resizes sampleRate
    processor.modelSampleRate waveform [1, 2] frames shape
  have prepared : processor.prepareWaveform numbers resample samples sampleRate 2 =
      .ok (input.moveTo processor.device) := by
    rw [ConvTasNet.prepareWaveform, stepOk went, stepOk (torchOk batched), stepOk converted]
    rfl
  by_cases separable : Separable processor hyper (length frames sampleRate processor.modelSampleRate)
  · obtain ⟨estimates, separated, _, _, accompaniment, separatedShape, _⟩ :=
      waveformSeparated sound separable (input.moveTo processor.device) rfl inputShape numbers
    obtain ⟨_, result, m, output, _, _, ran, finalized⟩ :=
      convTasNetReturns inert stereo loaded.real loaded.loaded (resizesResamples resizes _ sampleRate)
        ((stepOk prepared).trans accompaniment) separatedShape
    refine ⟨⟨fun _ => separable, fun _ => ⟨output, ran⟩⟩, fun other ran' => ?_⟩
    cases Except.ok.inj (ran'.symm.trans ran)
    exact finalized.length.trans stereo.symm
  · have refused (output : List α) :
        processor.runInference numbers resample samples sampleRate 2 ≠ .ok output := by
      rw [ConvTasNet.runInference, loaded.real, loaded.loaded]
      simp only
      rw [stepOk prepared]
      exact stepRefuses (waveformRefused sound sources separable
        (input.moveTo processor.device) rfl inputShape) output
    exact ⟨⟨fun returned => returned.elim fun output ran => absurd ran (refused output), fun needs => absurd needs separable⟩,
      fun output ran => absurd ran (refused output)⟩

structure Processed (processor : ConvTasNet S K α) (kernel : Kernel K)
    (net : ConvTasNetStereo K hyper) (numbers : Numbers S K α) (resample : Resampler K)
    (frames : Nat) (samples output : List α) where
  waveform : Tensor K
  estimates : Tensor K
  shape : waveform.shape = [1, 2, frames]
  found : ∀ frame < frames, ∀ channel < 2,
    waveform.entry [0, channel, frame] = samples[2 * frame + channel]?.map numbers.read
  estimated : net.forward kernel waveform = .ok estimates
  whole : estimates.shape = [1, hyper.C, 2, frames]
  returns : processor.runInference numbers resample samples processor.modelSampleRate 2 = .ok output
  length : output.length = 2 * frames
  item : ∀ frame < frames, ∀ channel < 2, ∀ x y,
    estimates.entry [0, processor.accompanimentSourceIndex, channel, frame] = some x →
    waveform.entry [0, channel, frame] = some y → output[2 * frame + channel]? =
      some (numbers.write (numbers.clamp (numbers.blend processor.vocalReduction x y)))

theorem processed (loaded : Loaded processor kernel net) (sound : hyper.Sound)
    (separable : Separable processor hyper frames) (inert : numbers.clamp numbers.zero = numbers.zero)
    (resample : Resampler K) (stereo : samples.length = 2 * frames) :
    ∃ output, Nonempty (Processed processor kernel net numbers resample frames samples output) := by
  obtain ⟨rows, waveform, went, batched, _, shape, found⟩ := batchedRows numbers stereo
  obtain ⟨estimates, separated, estimated, whole, accompaniment, separatedShape, entries⟩ :=
    waveformSeparated sound separable (waveform.moveTo processor.device) rfl shape numbers
  have separation : processor.separation numbers resample
      (onDevice (net.forward kernel) processor.device) samples processor.modelSampleRate =
        .ok separated := by
    rw [ConvTasNet.separation, ConvTasNet.prepareWaveform, stepOk went, stepOk (torchOk batched),
      stepOk (resampledSame resample waveform _)]
    exact accompaniment
  obtain ⟨other, result, m, output, separates, converted, ran, finalized⟩ :=
    convTasNetReturns inert stereo loaded.real loaded.loaded (resamplesSame resample _) separation
      separatedShape
  cases separation.symm.trans separates
  rw [resampledSame] at converted
  cases converted
  have width := finalized.shape.symm.trans separatedShape
  simp only [List.cons.injEq, and_true, true_and] at width
  subst width
  refine ⟨output, ⟨waveform.toTensor, estimates, shape, found, estimated, whole, ran, finalized.length, ?_⟩⟩
  intro frame row channel side x y estimate known
  obtain ⟨value, there, item⟩ := finalized.inside frame row channel side row
  rw [entries channel frame x y estimate known] at there
  cases there
  exact item

theorem sameWaveform {samples' output' : List α}
    (left : Processed processor kernel net numbers resample frames samples output)
    (right : Processed processor kernel net numbers resample frames samples' output') {other : Nat}
    (agree : ∀ channel < 2, samples[2 * other + channel]? = samples'[2 * other + channel]?) :
    SameAt left.waveform right.waveform other := by
  refine ⟨left.shape.trans right.shape.symm, fun start => ?_⟩
  by_cases inside : Inside [1, 2, frames] (start ++ [other])
  · obtain ⟨i, channel, rfl, first, side, row⟩ := startThree inside
    cases Nat.lt_one_iff.mp first
    exact (left.found other row channel side).trans ((congrArg _ (agree channel side)).trans
      (right.found other row channel side).symm)
  · rw [entryOutside (left.shape ▸ inside), entryOutside (right.shape ▸ inside)]

theorem inferenceReaches (sound : hyper.Sound) (near : Near (choseNorm hyper.normType))
    (separable : Separable processor hyper frames) {samples' output' : List α}
    (left : Processed processor kernel net numbers resample frames samples output)
    (right : Processed processor kernel net numbers resample frames samples' output') (frame : Nat)
    (agree : ∀ other, frame < other + (hyper.L + hyper.memory * (hyper.L / 2)) →
      other < frame + (hyper.L + hyper.lookahead * (hyper.L / 2)) →
      ∀ channel < 2, samples[2 * other + channel]? = samples'[2 * other + channel]?)
    (channel : Nat) (side : channel < 2) :
    output[2 * frame + channel]? = output'[2 * frame + channel]? := by
  by_cases row : frame < frames
  · have strides := separable.strides
    have sources : 0 < hyper.C := Nat.zero_lt_of_lt separable.indexes
    have shape : left.waveform.shape = [1, hyper.audioChannels, frames] :=
      separable.stereo ▸ left.shape
    have estimates := forwardReach sound near Nat.one_pos sources (separable.stereo ▸ Nat.two_pos)
      kernel net left.waveform right.waveform _ _ shape (left.shape.trans right.shape.symm)
      left.estimated right.estimated
      (fun other behind ahead => sameWaveform left right (agree other behind ahead))
    have here := sameWaveform left right (agree frame (by omega) (by omega))
    have place : Inside [1, 2, frames] [0, channel, frame] :=
      .cons Nat.one_pos (.cons side (.cons row .nil))
    obtain ⟨y, known⟩ := entryInside (left.shape ▸ place)
    obtain ⟨x, estimate⟩ := @entryInside K left.estimates
      [0, processor.accompanimentSourceIndex, channel, frame]
      (left.whole ▸ .cons Nat.one_pos (.cons
        (Nat.lt_of_le_of_lt (Nat.le_max_right _ _) separable.indexes) (.cons side (.cons row .nil))))
    rw [left.item frame row channel side x y estimate known,
      right.item frame row channel side x y
        ((estimates.2 [0, processor.accompanimentSourceIndex, channel]).symm.trans estimate)
        ((here.2 [0, channel]).symm.trans known)]
  · rw [List.getElem?_eq_none (by rw [left.length]; omega),
      List.getElem?_eq_none (by rw [right.length]; omega)]

theorem segmentsSeparated (loaded : Loaded processor kernel net) (sound : hyper.Sound)
    (sources : 0 < hyper.C) (inert : numbers.clamp numbers.zero = numbers.zero)
    (resizes : Resizes resample length) (samples : List α) (stereo : samples.length = 2 * frames) :
    (∀ sampleRate, (∃ output,
        processor.runInference numbers resample samples sampleRate 2 = .ok output) ↔
      Separable processor hyper (length frames sampleRate processor.modelSampleRate)) ∧
    (∀ sampleRate output, processor.runInference numbers resample samples sampleRate 2 = .ok output →
      output.length = samples.length) ∧
    ∀ samples' output output', Near (choseNorm hyper.normType) → samples'.length = samples.length →
      processor.runInference numbers resample samples processor.modelSampleRate 2 = .ok output →
      processor.runInference numbers resample samples' processor.modelSampleRate 2 = .ok output' →
      ∀ frame, (∀ other, frame < other + (hyper.L + hyper.memory * (hyper.L / 2)) →
        other < frame + (hyper.L + hyper.lookahead * (hyper.L / 2)) →
        ∀ channel < 2, samples[2 * other + channel]? = samples'[2 * other + channel]?) →
      ∀ channel < 2, output[2 * frame + channel]? = output'[2 * frame + channel]? := by
  refine ⟨fun sampleRate => (inferenceReturns loaded sound sources inert resizes sampleRate stereo).1,
    fun sampleRate => (inferenceReturns loaded sound sources inert resizes sampleRate stereo).2, ?_⟩
  intro samples' output output' near lengths ran ran' frame agree channel side
  have separable :=
    (inferenceReturns loaded sound sources inert resizes _ stereo).1.mp ⟨output, ran⟩
  rw [resizes.same] at separable
  obtain ⟨_, ⟨left⟩⟩ := processed loaded sound separable inert resample stereo
  obtain ⟨_, ⟨right⟩⟩ := processed loaded sound separable inert resample (lengths.trans stereo)
  cases Except.ok.inj (ran.symm.trans left.returns)
  cases Except.ok.inj (ran'.symm.trans right.returns)
  exact inferenceReaches sound near separable left right frame agree channel side

end Processor

def causalProcessor : ConvTasNet Float Float32 UInt32 :=
  { vocalReduction := 1.0, device := .cpu,
    model := some (onDevice ((evenNetwork causalHyper).forward floatKernel) .cpu) }

theorem causalLoaded : Loaded causalProcessor floatKernel (evenNetwork causalHyper) := ⟨rfl, rfl⟩

def resizedLength (n source target : Nat) : Nat :=
  if source = target then n else (n * target + source - 1) / source

theorem resizedResizes {K : Type} (zero : K) : Resizes (resized zero) resizedLength := by
  refine ⟨fun n rate => if_pos rfl, fun source target differs t front n shape => ?_⟩
  rw [resizedLength, if_neg differs]
  obtain ⟨long, width, grown, stayed, longShape, enough, _⟩ :=
    shortPadded shape zero ((n * target + source - 1) / source)
  obtain ⟨cut, narrow, held, cutShape, _⟩ :=
    made long (narrowed longShape ((n * target + source - 1) / source))
  refine ⟨cut, ?_, held.trans stayed, cutShape.trans (by rw [Nat.min_eq_right enough])⟩
  rw [resized, stepOk (torchOk (widthSnoc shape).1), stepOk grown]
  exact torchOk narrow

theorem segmentsSeparatedCausal :
    let infers := causalProcessor.runInference floats (resized floats.zero)
    let silence := List.replicate 12 0
    let late := List.replicate 4 0 ++ List.replicate 8 0x3F800000
    (∃ output, infers silence 88200 2 = .ok output ∧ output.length = 12) ∧
    ∃ output output', infers silence 44100 2 = .ok output ∧ infers late 44100 2 = .ok output' ∧
      ∀ channel < 2, output[channel]? = output'[channel]? := by
  intro infers silence late
  have separable (frames : Nat) (long : 2 ≤ frames) : Separable causalProcessor causalHyper frames :=
    ⟨rfl, by decide, causalSupported, by decide, long⟩
  obtain ⟨takes, whole, reach⟩ := segmentsSeparated causalLoaded causalSound (by decide) floatsInert
    (resizedResizes floats.zero) silence (show silence.length = 2 * 6 from rfl)
  obtain ⟨takesLate, _, _⟩ := segmentsSeparated causalLoaded causalSound (by decide) floatsInert
    (resizedResizes floats.zero) late (show late.length = 2 * 6 from rfl)
  obtain ⟨half, quick⟩ := (takes 88200).mpr (separable _ (by decide))
  obtain ⟨output, ran⟩ := (takes 44100).mpr (separable _ (by decide))
  obtain ⟨output', ran'⟩ := (takesLate 44100).mpr (separable _ (by decide))
  refine ⟨⟨half, quick, whole 88200 half quick⟩, output, output', ran, ran', fun channel side => ?_⟩
  have same := reach late output output' causalNear rfl ran ran' 0
  rw [show channel = 2 * 0 + channel by rw [Nat.mul_zero, Nat.zero_add]]
  refine same ?_ channel side
  intro other _ ahead side row
  have before : other < 2 := ahead
  have inside : 2 * other + side < 4 := by omega
  rw [List.getElem?_append_left (by simpa using inside), List.getElem?_replicate,
    List.getElem?_replicate, if_pos (by omega), if_pos inside]

section Runs
open Kany (HostOrder)
open Mdx23cVocals (slowFrame)
open SegmentedInference (Answered Inference Judged Live Takes answeredOnce answeredOne baseRun
  convTasNet harvestInference registeredStereo runJudged runLive)
open Stateful (exec)
variable {kernel : Kernel Float32} {hyper : Hyper} {net : ConvTasNetStereo Float32 hyper}
variable {processor : ConvTasNet Float Float32 UInt32} {resample : Resampler Float32}
variable {length : Nat → Nat → Nat → Nat}

theorem networkTakes (loaded : Loaded processor kernel net) (sound : hyper.Sound)
    (sources : 0 < hyper.C) (resizes : Resizes resample length) :
    Takes (processor.runInference floats resample) fun frames sampleRate =>
      Separable processor hyper (length frames sampleRate processor.modelSampleRate) where
  returns _ _ sampleRate stereo _ :=
    (inferenceReturns loaded sound sources floatsInert resizes sampleRate stereo).1
  keeps _ sampleRate _ output stereo _ :=
    (inferenceReturns loaded sound sources floatsInert resizes sampleRate stereo).2 output

/- The processor in service with its network: a segment fails where it is too short for the
network, at the rate of the model, or the network does not fit, and nowhere else. -/
theorem segmentsJudged (loaded : Loaded processor kernel net) (sound : hyper.Sound)
    (sources : 0 < hyper.C) (resizes : Resizes resample length) (host : HostOrder)
    (segmentSeconds : Float) (events : List Mdx23cVocals.Event)
    (answered : Answered (processor.runInference floats resample)
      (fun before => (baseRun host convTasNet segmentSeconds before).inferenceTask) events) :
    Judged host convTasNet (fun frames sampleRate =>
      Separable processor hyper (length frames sampleRate processor.modelSampleRate)) segmentSeconds
      events (baseRun host convTasNet segmentSeconds events) :=
  runJudged host (registeredStereo (.inr rfl)) (networkTakes loaded sound sources resizes) answered

theorem slowDecoded {packet : Kany.KanyPacket}
    (decoded : convTasNet.decodeAndValidate .little slowFrame = .ok packet) : packet.sampleRate = 3 := by
  have rate : (convTasNet.decodeAndValidate .little slowFrame).toOption.map (·.sampleRate) = some 3 := by
    decide +kernel
  rw [decoded] at rate
  exact Option.some.inj rate

theorem slowSeparable {frames : Nat} (some : 1 ≤ frames) :
    Separable causalProcessor causalHyper (resizedLength frames 3 44100) := by
  refine ⟨rfl, by decide, causalSupported, by decide, ?_⟩
  rw [resizedLength, if_neg (by decide), Nat.le_div_iff_mul_le (by decide)]
  have long : causalHyper.L = 2 := rfl
  omega

def causalInference : Inference := causalProcessor.runInference floats (resized floats.zero)

theorem slowAnswered : ∃ separated, Answered causalInference
    (fun before => (baseRun .little convTasNet 0.25 before).inferenceTask)
    [.process slowFrame, .inferenceEnds (.returned separated)] := by
  have takes := networkTakes causalLoaded causalSound (by decide) (resizedResizes floats.zero)
  have known : (baseRun .little convTasNet 0.25 [.process slowFrame]).inferenceTask.map
      (fun task => (task.outcome, task.segment.samples)) = some (none, [0, 0]) := by decide +kernel
  obtain ⟨⟨segment, outcome⟩, running, parts⟩ := Option.map_eq_some_iff.mp known
  obtain ⟨rfl, samples⟩ := Prod.mk.inj parts
  have live : Live causalInference (fun packet => packet.sampleRate = 3) 0.25
      (baseRun .little convTasNet 0.25 [.process slowFrame]) := by
    refine runLive .little (registeredStereo (.inr rfl)) (fun payload packet listed decoded => ?_)
      answeredOne
    have same : payload = slowFrame := by simpa using listed
    exact slowDecoded (same ▸ decoded)
  have underway := live.running _ running
  obtain ⟨first, factor, head, ran⟩ := underway.infers causalInference 1
  have member : first ∈ segment.packets := List.mem_of_head? head
  rw [underway.fitting.1] at member
  simp only [underway.stereo first member, underway.known first member] at ran
  obtain ⟨separated, infers⟩ := (takes.returns segment.samples 1 3 (by rw [samples]; rfl)
    (by decide)).mpr (slowSeparable (Nat.le_refl 1))
  have answered : causalInference segment.samples 3 2 = .ok separated := infers
  rw [answered] at ran
  refine ⟨separated, answeredOnce running ⟨1, ?_⟩⟩
  rw [ran]
  rfl

theorem segmentsJudgedSlow : ∃ separated,
    let s := baseRun .little convTasNet 0.25 [.process slowFrame, .inferenceEnds (.returned separated)]
    (exec (harvestInference .little convTasNet) s).1 = .ok () ∧ s.lastError = none := by
  obtain ⟨separated, answered⟩ := slowAnswered
  have judged := segmentsJudged causalLoaded causalSound (by decide) (resizedResizes floats.zero)
    .little 0.25 _ answered
  refine ⟨separated, judged.succeeds fun payload packet rounded frames listed decoded _ reaches => ?_⟩
  have same : payload = slowFrame := by simpa using listed
  rw [slowDecoded (same ▸ decoded)]
  exact slowSeparable (by omega)

end Runs

end KaraokeAnything.Tasnet
