import KaraokeAnything.Library.Binary32
import KaraokeAnything.PostProcessing
import Mathlib.Algebra.Order.Field.Basic
import Mathlib.Tactic.Ring

/-! A separation that finds nothing to take away: what comes back is the clamped input, in
exact arithmetic, and where the floats round nothing. -/
namespace KaraokeAnything.ModelInference
open Binary32 Dictionaries Python Tensors
open Float.Model (Format UnpackedFloat)

section Separations
variable {S K α : Type}

def Separator.Silent (separator : Separator K) (zero : K) (sampleRate : Nat) : Prop :=
  ∀ (waveform : TorchTensor K) (n : Nat), waveform.shape = [2, n] → ∃ stems vocals,
    separator.separateTensor waveform sampleRate = .ok (waveform, stems) ∧
    stems.find "vocals" = some vocals ∧ vocals.device = waveform.device ∧ vocals.shape = [2, n] ∧
    ∀ place value, vocals.entry place = some value → value = zero

def ConvTasNet.Echoes (self : ConvTasNet S K α) (model : TorchTensor K → Result (TorchTensor K)) :
    Prop :=
  ∀ (waveform : TorchTensor K) (n : Nat), waveform.device = self.device →
    waveform.shape = [1, 2, n] → ∃ estimates batch sources, model waveform = .ok estimates ∧
    estimates.device = self.device ∧ estimates.shape = [batch, sources, 2, n] ∧ 0 < batch ∧
    max self.vocalSourceIndex self.accompanimentSourceIndex < sources ∧
    ∀ channel < 2, ∀ frame < n,
      estimates.entry [0, self.accompanimentSourceIndex, channel, frame] =
        waveform.entry [0, channel, frame]

def Adapter.Echoes (adapter : Adapter K) : Prop :=
  ∃ stem, adapter.stemIndex ["instrumental", "other", "accompaniment"] = .ok stem ∧
    ∀ (waveform : TorchTensor K) (n : Nat), waveform.device = adapter.device →
      waveform.shape = [1, 2, n] → ∃ result, adapter.model waveform = .ok result ∧
      result.device = adapter.device ∧ HasStems result adapter.stems.length n ∧
      ∀ channel < 2, ∀ frame < n,
        stemEntry result stem channel frame = waveform.entry [0, channel, frame]

theorem silentSeparates {separator : Separator K} {zero : K} {sampleRate : Nat}
    (silent : separator.Silent zero sampleRate) : separator.Separates sampleRate := by
  intro waveform n shape
  obtain ⟨stems, vocals, went, stem, held, vocalsShape, _⟩ := silent waveform n shape
  exact ⟨waveform, stems, vocals, n, went, stem, rfl, held, shape, vocalsShape⟩

theorem echoesSeparate {self : ConvTasNet S K α} {model : TorchTensor K → Result (TorchTensor K)}
    (echoes : self.Echoes model) : self.Separates model := by
  intro waveform n there shape
  obtain ⟨estimates, batch, sources, went, held, estimatesShape, one, index, _⟩ :=
    echoes waveform n there shape
  exact ⟨estimates, batch, sources, went, held, estimatesShape, one, index⟩

theorem stemsSeparate {adapter : Adapter K} (echoes : adapter.Echoes) : adapter.Separates := by
  obtain ⟨stem, index, modelled⟩ := echoes
  refine ⟨fun waveform n there shape => ?_, stem, index⟩
  obtain ⟨result, went, held, form, _⟩ := modelled waveform n there shape
  exact ⟨result, n, went, held, form⟩

variable {resample : Resampler K} {samples : List α} {frames : Nat}

structure HTDemucs.Idle (processor : HTDemucs S K α) (zero : K) (separator : Separator K) : Prop where
  real : processor.inferenceFn = none
  loaded : processor.separator = some separator
  silent : separator.Silent zero separator.samplerate

structure ConvTasNet.Idle (processor : ConvTasNet S K α) (model : TorchTensor K → Result (TorchTensor K)) :
    Prop where
  real : processor.inferenceFn = none
  loaded : processor.model = some model
  echoes : processor.Echoes model

structure MDX23C.Idle (processor : MDX23C S K α) (adapter : Adapter K) : Prop where
  real : processor.inferenceFn = none
  loaded : processor.adapter = some adapter
  echoes : adapter.Echoes

theorem sampleThere (stereo : samples.length = 2 * frames) {frame channel : Nat}
    (row : frame < frames) (side : channel < 2) :
    ∃ sample, samples[2 * frame + channel]? = some sample :=
  ⟨_, List.getElem?_eq_getElem (by omega)⟩

variable [LT K] [DecidableLT K] {numbers : Numbers S K α} {rate : Nat}
  {separation : Result (TorchTensor K)}

theorem returnsMapped (f : K → K) {inferred : Result (List α)}
    (returns : Returns numbers resample separation rate rate frames inferred)
    (stereo : samples.length = 2 * frames) {separated : TorchTensor K}
    (went : separation = .ok separated) (shape : separated.shape = [2, frames])
    (entries : ∀ frame < frames, ∀ channel < 2, separated.entry [channel, frame] =
      samples[2 * frame + channel]?.map (fun sample => f (numbers.read sample))) :
    inferred = .ok (samples.map (numbers.back f)) := by
  obtain ⟨other, result, m, output, separates, converted, ran, finalized⟩ := returns
  cases went.symm.trans separates
  rw [resampledSame] at converted
  cases converted
  have width := finalized.shape.symm.trans shape
  simp only [List.cons.injEq, and_true, true_and] at width
  subst width
  rw [ran, finalizedMap finalized stereo entries]

variable [Mul K]

theorem htdemucsMapped [Sub K] {self : HTDemucs S K α} {separator : Separator K}
    (inert : numbers.clamp numbers.zero = numbers.zero) (stereo : samples.length = 2 * frames)
    (idle : self.Idle numbers.zero separator) :
    self.runInference numbers resample samples separator.samplerate 2 =
      .ok (samples.map (numbers.back
        (fun x => numbers.without self.vocalReduction x numbers.zero))) := by
  obtain ⟨waveform, rows, _, shape, found⟩ := channelRowsAt numbers stereo
  obtain ⟨stems, vocals, went, stem, held, vocalsShape, zeros⟩ := idle.silent waveform frames shape
  obtain ⟨separated, reduced, reducedShape, entries⟩ :=
    reducedVocals numbers self went stem held.symm shape vocalsShape
  have separation : self.separation numbers separator samples separator.samplerate = .ok separated :=
    (stepOk rows).trans reduced
  have returns := htdemucsReturns inert stereo idle.real idle.loaded (resamplesSame resample _)
    separation reducedShape
  refine returnsMapped _ returns stereo separation reducedShape (fun frame row channel side => ?_)
  obtain ⟨sample, known⟩ := sampleThere stereo row side
  obtain ⟨value, silence⟩ := @entryInside K vocals.toTensor [channel, frame]
    (vocalsShape ▸ .cons side (.cons row .nil))
  have input := found frame row channel side
  rw [known] at input ⊢
  rw [entries _ _ _ input silence, zeros _ value silence]
  rfl

variable [Sub S] [Add K]

theorem convTasNetMapped {self : ConvTasNet S K α} {model : TorchTensor K → Result (TorchTensor K)}
    (inert : numbers.clamp numbers.zero = numbers.zero) (stereo : samples.length = 2 * frames)
    (idle : self.Idle model) :
    self.runInference numbers resample samples self.modelSampleRate 2 =
      .ok (samples.map (numbers.back (fun x => numbers.blend self.vocalReduction x x))) := by
  obtain ⟨rows, waveform, went, batched, _, shape, found⟩ := batchedRows numbers stereo
  obtain ⟨estimates, batch, sources, estimated, held, estimatesShape, one, index, echo⟩ :=
    idle.echoes (waveform.moveTo self.device) frames rfl shape
  obtain ⟨separated, accompaniment, separatedShape, entries⟩ :=
    separatedAccompaniment numbers estimated held estimatesShape one index shape
  have separation : self.separation numbers resample model samples self.modelSampleRate =
      .ok separated := by
    rw [ConvTasNet.separation, ConvTasNet.prepareWaveform, stepOk went, stepOk (torchOk batched),
      stepOk (resampledSame resample waveform _)]
    exact accompaniment
  have returns := convTasNetReturns inert stereo idle.real idle.loaded (resamplesSame resample _)
    separation separatedShape
  refine returnsMapped _ returns stereo separation separatedShape (fun frame row channel side => ?_)
  obtain ⟨sample, known⟩ := sampleThere stereo row side
  have input := found frame row channel side
  rw [known] at input ⊢
  exact entries _ _ _ _ ((echo channel side frame row).trans input) input

theorem mdx23cMapped {self : MDX23C S K α} {adapter : Adapter K}
    (inert : numbers.clamp numbers.zero = numbers.zero) (stereo : samples.length = 2 * frames)
    (idle : self.Idle adapter) (onCpu : adapter.device = .cpu) :
    self.runInference numbers resample samples adapter.sampleRate 2 =
      .ok (samples.map (numbers.back (fun x => numbers.blend self.vocalReduction x x))) := by
  obtain ⟨rows, waveform, went, batched, there, shape, found⟩ := batchedRows numbers stereo
  obtain ⟨stem, index, estimated⟩ := idle.echoes
  obtain ⟨result, modelled, answered, form, echo⟩ :=
    estimated (waveform.moveTo adapter.device) frames rfl shape
  obtain ⟨estimates, normal, held, estimatesShape, stems⟩ := normalised numbers.zero form shape
  have inferred := inferOk shape modelled normal
  obtain ⟨separated, blended, separatedShape, entries⟩ := blendedStem numbers self resample
    (resampledSame resample waveform _) shape inferred (by rw [held, answered, there, onCpu])
    estimatesShape index
  have separation : self.separation numbers resample adapter samples adapter.sampleRate =
      .ok separated := by
    rw [MDX23C.separation, stepOk went, stepOk (torchOk batched)]
    exact blended
  have returns := mdx23cReturns inert stereo idle.real idle.loaded (resamplesSame resample _)
    separation separatedShape
  refine returnsMapped _ returns stereo separation separatedShape (fun frame row channel side => ?_)
  obtain ⟨sample, known⟩ := sampleThere stereo row side
  have input := found frame row channel side
  rw [known] at input ⊢
  have estimate := stems stem (stemInside index) channel side frame row
  rw [if_pos row, echo channel side frame row] at estimate
  exact entries _ _ _ _ (estimate.trans input) input

end Separations

section Unchanged
variable {S K α : Type} [LT K] [DecidableLT K]

def Unchanged (same : K → K → Prop) (numbers : Numbers S K α) (samples : List α)
    (inferred : Result (List α)) : Prop :=
  ∃ values, inferred = .ok (values.map numbers.write) ∧
    List.Forall₂ (fun value sample => same value (numbers.clamp (numbers.read sample))) values samples

theorem mappedUnchanged {same : K → K → Prop} {numbers : Numbers S K α} {samples : List α}
    {f : K → K} {inferred : Result (List α)} (mapped : inferred = .ok (samples.map (numbers.back f)))
    (kept : ∀ sample ∈ samples, same (numbers.clamp (f (numbers.read sample)))
      (numbers.clamp (numbers.read sample))) : Unchanged same numbers samples inferred := by
  refine ⟨samples.map (fun sample => numbers.clamp (f (numbers.read sample))), ?_, ?_⟩
  · rw [mapped, List.map_map]
    rfl
  · rw [List.forall₂_map_left_iff, List.forall₂_same]
    exact kept

end Unchanged

section Exact
variable {K : Type} [Field K]

theorem exactWithout (r x : K) : (exact K).without r x 0 = x := by
  simp [Numbers.without, exact]

theorem exactBlend (r x : K) : (exact K).blend r x x = x := by
  simp only [Numbers.blend, exact, id_eq]
  ring

theorem exactInert [LinearOrder K] [IsStrictOrderedRing K] : (exact K).clamp (exact K).zero = 0 := by
  have low : ¬ (0 : K) < -1 := not_lt.mpr (neg_nonpos.mpr zero_le_one)
  have high : ¬ (1 : K) < 0 := not_lt.mpr zero_le_one
  simp only [Numbers.clamp, exact, low, high, if_false]

end Exact

section Floats

theorem floatsInert : floats.clamp floats.zero = floats.zero := by rfl

theorem scalarUnpacked (r : Float) : (floats.scalar r).toModel.unpack =
    UnpackedFloat.unpack Format.binary32 (floatToItem r).toBitVec := by
  have item : Format.binary32.Valid (floatToItem r).toBitVec := UnpackedFloat.valid_pack
  exact congrArg (UnpackedFloat.unpack Format.binary32) (UnpackedFloat.pack_unpack_of_valid item)

/- The configuration lets only these reductions through. -/
theorem scalarFinite {r : Float} (low : 0 ≤ r) (high : r ≤ 1) :
    (floats.scalar r).isFinite = true := by
  have below : Binary64.Below 1 r.toModel.unpack := Binary64.leBelow 1 rfl low high
  change (floats.scalar r).toModel.unpack.isFinite = true
  rw [scalarUnpacked, floatToItem]
  cases known : r.toModel.unpack with
  | infinity sign => rw [known] at below; exact below.elim
  | notANumber => rw [known] at below; exact below.elim
  | zero sign => exact packFinite (by decide : (0 : Int) ≤ 104) trivial
  | finite sign mantissa exponent some =>
    rw [known] at below
    exact roundFinite (by decide) (by decide) sign (Nat.ne_of_gt some) below

theorem scalarOne : IsOne (floats.scalar 1.0) ∧ IsZero .positive (floats.scalar (1.0 - 1.0)) := by
  exact ⟨rfl, rfl⟩

theorem scalarZero : IsZero .positive (floats.scalar 0.0) ∧ IsOne (floats.scalar (1.0 - 0.0)) := by
  exact ⟨rfl, rfl⟩

theorem clampZero {x : Float32} {sign : UnpackedFloat.Sign} (zero : IsZero sign x) :
    floats.clamp x = x := by
  have compared {y z : Float32} (less : y < z) :
      (UnpackedFloat.compare y.toModel.unpack z.toModel.unpack == some .lt) = true :=
    of_decide_eq_true (p := y.toModel < z.toModel) less
  have low : ¬ x < floats.lowest := by
    intro less
    have order := compared less
    rw [zero] at order
    cases sign <;> contradiction
  have high : ¬ floats.highest < x := by
    intro less
    have order := compared less
    rw [zero] at order
    cases sign <;> contradiction
  rw [Numbers.clamp, if_neg low, if_neg high]

theorem withoutSame {r : Float} (low : 0 ≤ r) (high : r ≤ 1) (x : Float32) :
    SameNumber (floats.clamp (floats.without r x floats.zero)) (floats.clamp x) := by
  have silent : IsZero .positive floats.zero := rfl
  obtain ⟨sign, nothing⟩ := zeroMul silent (scalarFinite low high)
  rcases @subZero x _ sign nothing with same | ⟨s, t, first, second⟩
  · exact .inl (congrArg floats.clamp same)
  · rw [Numbers.without, clampZero first, clampZero second]
    exact zerosSame first second

theorem blendSame {r : Float} (whole : r = 0.0 ∨ r = 1.0) {x : Float32} (finite : x.isFinite = true) :
    floats.blend r x x = x := by
  rcases whole with rfl | rfl
  · exact (blendWhole finite scalarZero.2 scalarZero.1).2
  · exact (blendWhole finite scalarOne.1 scalarOne.2).1

end Floats

end KaraokeAnything.ModelInference
