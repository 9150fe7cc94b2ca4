import KaraokeAnything.SegmentLengths
import KaraokeAnything.UnchangedSeparation
import Mathlib.Algebra.Order.Ring.Rat

/-! What the inference of HTDemucs, ConvTasNet and MDX23C returns: as many samples as it got,
so that no segment comes back in another length, and the clamped input where the separation
changes nothing. MDX23C returns nothing unless its adapter is on the CPU: it leaves the
waveform there that it blends with the estimates. -/
namespace KaraokeAnything.ModelInference
open Binary32 Kany Models Python Tensors

section Ready
variable {S K α : Type}

structure HTDemucs.Ready (processor : HTDemucs S K α) (resample : Resampler K)
    (separator : Separator K) (sampleRate : Nat) : Prop where
  real : processor.inferenceFn = none
  loaded : processor.separator = some separator
  separates : separator.Separates sampleRate
  resamples : Resamples resample separator.samplerate sampleRate

structure ConvTasNet.Ready (processor : ConvTasNet S K α) (resample : Resampler K)
    (model : TorchTensor K → Result (TorchTensor K)) (sampleRate : Nat) : Prop where
  real : processor.inferenceFn = none
  loaded : processor.model = some model
  separates : processor.Separates model
  resamplesInput : Resamples resample sampleRate processor.modelSampleRate
  resamplesOutput : Resamples resample processor.modelSampleRate sampleRate

structure MDX23C.Ready (processor : MDX23C S K α) (resample : Resampler K) (adapter : Adapter K)
    (sampleRate : Nat) : Prop where
  real : processor.inferenceFn = none
  loaded : processor.adapter = some adapter
  separates : adapter.Separates
  resamplesInput : Resamples resample sampleRate adapter.sampleRate
  resamplesOutput : Resamples resample adapter.sampleRate sampleRate

variable [LT K] [DecidableLT K] {numbers : Numbers S K α} {resample : Resampler K}
  {samples : List α} {sampleRate frames : Nat}

theorem returnsLength {separation inferred} {modelRate : Nat} {output : List α}
    (returns : Returns numbers resample separation modelRate sampleRate frames inferred)
    (went : inferred = .ok output) : output.length = 2 * frames := by
  obtain ⟨_, _, _, other, _, _, ran, finalized⟩ := returns
  cases Except.ok.inj (went.symm.trans ran)
  exact finalized.length

variable [Mul K]

theorem HTDemucs.readyReturns [Sub K] {self : HTDemucs S K α} {separator : Separator K}
    (inert : numbers.clamp numbers.zero = numbers.zero)
    (ready : self.Ready resample separator sampleRate) (stereo : samples.length = 2 * frames) :
    Returns numbers resample (self.separation numbers separator samples sampleRate)
      separator.samplerate sampleRate frames
      (self.runInference numbers resample samples sampleRate 2) := by
  obtain ⟨separated, k, went, shape⟩ := htdemucsSeparated numbers self ready.separates stereo
  exact htdemucsReturns inert stereo ready.real ready.loaded ready.resamples went shape

variable [Sub S] [Add K]

theorem ConvTasNet.readyReturns {self : ConvTasNet S K α} {model : TorchTensor K → Result (TorchTensor K)}
    (inert : numbers.clamp numbers.zero = numbers.zero)
    (ready : self.Ready resample model sampleRate) (stereo : samples.length = 2 * frames) :
    Returns numbers resample (self.separation numbers resample model samples sampleRate)
      self.modelSampleRate sampleRate frames
      (self.runInference numbers resample samples sampleRate 2) := by
  obtain ⟨separated, k, went, shape⟩ :=
    convTasNetSeparated numbers ready.separates ready.resamplesInput stereo
  exact convTasNetReturns inert stereo ready.real ready.loaded ready.resamplesOutput went shape

theorem MDX23C.Ready.readyReturns {self : MDX23C S K α} {adapter : Adapter K}
    (inert : numbers.clamp numbers.zero = numbers.zero)
    (ready : self.Ready resample adapter sampleRate) (stereo : samples.length = 2 * frames)
    (onCpu : adapter.device = .cpu) :
    Returns numbers resample (self.separation numbers resample adapter samples sampleRate)
      adapter.sampleRate sampleRate frames
      (self.runInference numbers resample samples sampleRate 2) := by
  obtain ⟨separated, k, went, shape⟩ :=
    mdx23cSeparated numbers self resample ready.separates ready.resamplesInput stereo onCpu
  exact mdx23cReturns inert stereo ready.real ready.loaded ready.resamplesOutput went shape

theorem MDX23C.Ready.readyRaises {self : MDX23C S K α} {adapter : Adapter K}
    (ready : self.Ready resample adapter sampleRate) (stereo : samples.length = 2 * frames)
    (elsewhere : adapter.device ≠ .cpu) :
    self.runInference numbers resample samples sampleRate 2 = .error (.exception "") :=
  (mdx23cRaises numbers self resample ready.separates ready.resamplesInput stereo ready.real
    ready.loaded elsewhere).2

theorem MDX23C.Ready.readyOnCpu {self : MDX23C S K α} {adapter : Adapter K}
    (ready : self.Ready resample adapter sampleRate) (stereo : samples.length = 2 * frames)
    {output : List α} (went : self.runInference numbers resample samples sampleRate 2 = .ok output) :
    adapter.device = .cpu := by
  by_contra elsewhere
  rw [ready.readyRaises stereo elsewhere] at went
  contradiction

theorem MDX23C.Ready.readyExactly {self : MDX23C S K α} {adapter : Adapter K}
    (inert : numbers.clamp numbers.zero = numbers.zero)
    (ready : self.Ready resample adapter sampleRate) (stereo : samples.length = 2 * frames) :
    (Returns numbers resample (self.separation numbers resample adapter samples sampleRate)
        adapter.sampleRate sampleRate frames
        (self.runInference numbers resample samples sampleRate 2) ↔ adapter.device = .cpu) ∧
      ((∃ output, self.runInference numbers resample samples sampleRate 2 = .ok output) ↔
        adapter.device = .cpu) := by
  refine ⟨⟨fun returns => ?_, ready.readyReturns inert stereo⟩,
    ⟨fun ⟨_, went⟩ => ready.readyOnCpu stereo went, fun onCpu => ?_⟩⟩
  · obtain ⟨_, _, _, _, _, _, went, _⟩ := returns
    exact ready.readyOnCpu stereo went
  · obtain ⟨_, _, _, output, _, _, went, _⟩ := ready.readyReturns inert stereo onCpu
    exact ⟨output, went⟩

end Ready

section Lengths
open SegmentedInference (Inference KeepsLength)

def HTDemucs.Inferences (infer : Inference) : Prop :=
  ∃ (self : HTDemucs Float Float32 UInt32) (resample : Resampler Float32)
    (separator : Separator Float32),
    (∀ sampleRate, 0 < sampleRate → self.Ready resample separator sampleRate) ∧
    infer = self.runInference floats resample

def ConvTasNet.Inferences (infer : Inference) : Prop :=
  ∃ (self : ConvTasNet Float Float32 UInt32) (resample : Resampler Float32)
    (model : TorchTensor Float32 → Result (TorchTensor Float32)),
    (∀ sampleRate, 0 < sampleRate → self.Ready resample model sampleRate) ∧
    infer = self.runInference floats resample

def MDX23C.Inferences (infer : Inference) : Prop :=
  ∃ (self : MDX23C Float Float32 UInt32) (resample : Resampler Float32) (adapter : Adapter Float32),
    (∀ sampleRate, 0 < sampleRate → self.Ready resample adapter sampleRate) ∧
    infer = self.runInference floats resample

theorem returnsKeep {infer : Inference} {resample : Resampler Float32}
    (returns : ∀ samples sampleRate frames, 0 < sampleRate → samples.length = 2 * frames →
      ∃ separation modelRate, Returns floats resample separation modelRate sampleRate frames
        (infer samples sampleRate 2)) : KeepsLength infer := by
  intro samples sampleRate frames output stereo positive went
  obtain ⟨separation, modelRate, returned⟩ := returns samples sampleRate frames positive stereo
  rw [stereo]
  exact returnsLength returned went

theorem HTDemucs.inferencesKeep {infer : Inference} (possible : HTDemucs.Inferences infer) :
    KeepsLength infer := by
  obtain ⟨self, resample, separator, ready, rfl⟩ := possible
  exact returnsKeep (fun _ sampleRate _ positive stereo =>
    ⟨_, _, HTDemucs.readyReturns floatsInert (ready sampleRate positive) stereo⟩)

theorem ConvTasNet.inferencesKeep {infer : Inference} (possible : ConvTasNet.Inferences infer) :
    KeepsLength infer := by
  obtain ⟨self, resample, model, ready, rfl⟩ := possible
  exact returnsKeep (fun _ sampleRate _ positive stereo =>
    ⟨_, _, ConvTasNet.readyReturns floatsInert (ready sampleRate positive) stereo⟩)

theorem MDX23C.inferencesKeep {infer : Inference} (possible : MDX23C.Inferences infer) :
    KeepsLength infer := by
  obtain ⟨self, resample, adapter, ready, rfl⟩ := possible
  intro samples sampleRate frames output stereo positive went
  have onCpu := (ready sampleRate positive).readyOnCpu stereo went
  rw [stereo]
  exact returnsLength ((ready sampleRate positive).readyReturns floatsInert stereo onCpu) went

end Lengths

section Laws
variable {S K α : Type} [Sub S] [Add K] [Sub K] [Mul K] [LT K] [DecidableLT K]

structure ReturnsInFrames (numbers : Numbers S K α) : Prop where
  htdemucs : ∀ (self : HTDemucs S K α) (resample : Resampler K) (separator : Separator K)
    (samples : List α) (sampleRate frames : Nat),
    self.Ready resample separator sampleRate → samples.length = 2 * frames →
    Returns numbers resample (self.separation numbers separator samples sampleRate)
      separator.samplerate sampleRate frames
      (self.runInference numbers resample samples sampleRate 2)
  convTasNet : ∀ (self : ConvTasNet S K α) (resample : Resampler K)
    (model : TorchTensor K → Result (TorchTensor K)) (samples : List α) (sampleRate frames : Nat),
    self.Ready resample model sampleRate → samples.length = 2 * frames →
    Returns numbers resample (self.separation numbers resample model samples sampleRate)
      self.modelSampleRate sampleRate frames
      (self.runInference numbers resample samples sampleRate 2)
  mdx23c : ∀ (self : MDX23C S K α) (resample : Resampler K) (adapter : Adapter K)
    (samples : List α) (sampleRate frames : Nat),
    self.Ready resample adapter sampleRate → samples.length = 2 * frames →
    (Returns numbers resample (self.separation numbers resample adapter samples sampleRate)
      adapter.sampleRate sampleRate frames
      (self.runInference numbers resample samples sampleRate 2) ↔ adapter.device = .cpu) ∧
    ((∃ output, self.runInference numbers resample samples sampleRate 2 = .ok output) ↔
      adapter.device = .cpu)

structure BlendsMix (numbers : Numbers S K α) : Prop where
  htdemucs : ∀ (self : HTDemucs S K α) (resample : Resampler K) (separator : Separator K)
    (samples : List α) (frames : Nat),
    self.Idle numbers.zero separator → samples.length = 2 * frames →
    self.runInference numbers resample samples separator.samplerate 2 = .ok (samples.map
      (numbers.back (fun x => numbers.without self.vocalReduction x numbers.zero)))
  convTasNet : ∀ (self : ConvTasNet S K α) (resample : Resampler K)
    (model : TorchTensor K → Result (TorchTensor K)) (samples : List α) (frames : Nat),
    self.Idle model → samples.length = 2 * frames →
    self.runInference numbers resample samples self.modelSampleRate 2 = .ok (samples.map
      (numbers.back (fun x => numbers.blend self.vocalReduction x x)))
  mdx23c : ∀ (self : MDX23C S K α) (resample : Resampler K) (adapter : Adapter K)
    (samples : List α) (frames : Nat), self.Idle adapter → samples.length = 2 * frames →
    (self.runInference numbers resample samples adapter.sampleRate 2 = .ok (samples.map
      (numbers.back (fun x => numbers.blend self.vocalReduction x x))) ↔ adapter.device = .cpu)

omit [Sub S] [Add K] [Sub K] [Mul K] [LT K] [DecidableLT K] in
theorem MDX23C.Idle.idleReady {self : MDX23C S K α} {adapter : Adapter K} (idle : self.Idle adapter)
    (resample : Resampler K) : self.Ready resample adapter adapter.sampleRate :=
  ⟨idle.real, idle.loaded, stemsSeparate idle.echoes, resamplesSame resample _,
    resamplesSame resample _⟩

theorem returnsInFrames {numbers : Numbers S K α} (inert : numbers.clamp numbers.zero = numbers.zero) :
    ReturnsInFrames numbers where
  htdemucs _ _ _ _ _ _ := HTDemucs.readyReturns inert
  convTasNet _ _ _ _ _ _ := ConvTasNet.readyReturns inert
  mdx23c _ _ _ _ _ _ ready stereo := ready.readyExactly inert stereo

theorem blendsMix {numbers : Numbers S K α} (inert : numbers.clamp numbers.zero = numbers.zero) :
    BlendsMix numbers where
  htdemucs _ _ _ _ _ idle stereo := htdemucsMapped inert stereo idle
  convTasNet _ _ _ _ _ idle stereo := convTasNetMapped inert stereo idle
  mdx23c _ resample _ _ _ idle stereo :=
    ⟨(idle.idleReady resample).readyOnCpu stereo, mdx23cMapped inert stereo idle⟩

def HTDemucs.LeavesMix (same : K → K → Prop) (numbers : Numbers S K α) (reductions : S → Prop)
    (heard : α → Prop) : Prop :=
  ∀ (self : HTDemucs S K α) (resample : Resampler K) (separator : Separator K) (samples : List α)
    (frames : Nat), self.Idle numbers.zero separator → samples.length = 2 * frames →
    reductions self.vocalReduction → (∀ sample ∈ samples, heard sample) →
    Unchanged same numbers samples (self.runInference numbers resample samples separator.samplerate 2)

def ConvTasNet.LeavesMix (same : K → K → Prop) (numbers : Numbers S K α) (reductions : S → Prop)
    (heard : α → Prop) : Prop :=
  ∀ (self : ConvTasNet S K α) (resample : Resampler K) (model : TorchTensor K → Result (TorchTensor K))
    (samples : List α) (frames : Nat), self.Idle model → samples.length = 2 * frames →
    reductions self.vocalReduction → (∀ sample ∈ samples, heard sample) →
    Unchanged same numbers samples (self.runInference numbers resample samples self.modelSampleRate 2)

def MDX23C.LeavesMix (same : K → K → Prop) (numbers : Numbers S K α) (reductions : S → Prop)
    (heard : α → Prop) : Prop :=
  ∀ (self : MDX23C S K α) (resample : Resampler K) (adapter : Adapter K) (samples : List α)
    (frames : Nat), self.Idle adapter → samples.length = 2 * frames →
    reductions self.vocalReduction → (∀ sample ∈ samples, heard sample) →
    (Unchanged same numbers samples
      (self.runInference numbers resample samples adapter.sampleRate 2) ↔ adapter.device = .cpu)

section
variable {same : K → K → Prop} {numbers : Numbers S K α} {reductions : S → Prop} {heard : α → Prop}

theorem withoutLeaves (blends : BlendsMix numbers)
    (kept : ∀ r, reductions r → ∀ sample, heard sample →
      same (numbers.clamp (numbers.without r (numbers.read sample) numbers.zero))
        (numbers.clamp (numbers.read sample))) :
    HTDemucs.LeavesMix same numbers reductions heard :=
  fun self resample separator samples frames idle stereo reduction all =>
    mappedUnchanged (blends.htdemucs self resample separator samples frames idle stereo)
      (fun sample member => kept _ reduction sample (all sample member))

theorem blendLeaves (blends : BlendsMix numbers)
    (kept : ∀ r, reductions r → ∀ sample, heard sample →
      same (numbers.clamp (numbers.blend r (numbers.read sample) (numbers.read sample)))
        (numbers.clamp (numbers.read sample))) :
    ConvTasNet.LeavesMix same numbers reductions heard ∧
      MDX23C.LeavesMix same numbers reductions heard :=
  ⟨fun self resample model samples frames idle stereo reduction all =>
    mappedUnchanged (blends.convTasNet self resample model samples frames idle stereo)
      (fun sample member => kept _ reduction sample (all sample member)),
  fun self resample adapter samples frames idle stereo reduction all =>
    ⟨fun ⟨_, went, _⟩ => (idle.idleReady resample).readyOnCpu stereo went,
    fun onCpu => mappedUnchanged
      ((blends.mdx23c self resample adapter samples frames idle stereo).mpr onCpu)
      (fun sample member => kept _ reduction sample (all sample member))⟩⟩

end

def Unrounded (numbers : Numbers S K α) (r : S) (samples : List α) : Prop :=
  ∀ sample ∈ samples,
    numbers.back (fun x => numbers.blend r x x) sample = numbers.back (fun x => x) sample

omit [Sub K] in
theorem blendUnchanged {numbers : Numbers S K α} {r : S} {samples : List α}
    {inferred : Result (List α)}
    (mapped : inferred = .ok (samples.map (numbers.back (fun x => numbers.blend r x x)))) :
    Unchanged (· = ·) numbers samples inferred ↔ Unrounded numbers r samples := by
  rw [Unrounded, ← List.map_inj_left, mapped, Unchanged]
  constructor
  · rintro ⟨values, same, all⟩
    rw [Except.ok.inj same, show values = samples.map (fun sample => numbers.clamp (numbers.read sample))
      from List.forall₂_eq_eq_eq ▸ List.forall₂_map_right_iff.mpr all, List.map_map]
    rfl
  · intro same
    refine ⟨samples.map (fun sample => numbers.clamp (numbers.read sample)), ?_, ?_⟩
    · rw [same, List.map_map]
      rfl
    · rw [List.forall₂_map_left_iff, List.forall₂_same]
      exact fun _ _ => rfl

structure BlendsExactly (numbers : Numbers S K α) : Prop where
  convTasNet : ∀ (self : ConvTasNet S K α) (resample : Resampler K)
    (model : TorchTensor K → Result (TorchTensor K)) (samples : List α) (frames : Nat),
    self.Idle model → samples.length = 2 * frames →
    (Unchanged (· = ·) numbers samples
      (self.runInference numbers resample samples self.modelSampleRate 2) ↔
        Unrounded numbers self.vocalReduction samples)
  mdx23c : ∀ (self : MDX23C S K α) (resample : Resampler K) (adapter : Adapter K)
    (samples : List α) (frames : Nat), self.Idle adapter → samples.length = 2 * frames →
    (Unchanged (· = ·) numbers samples
      (self.runInference numbers resample samples adapter.sampleRate 2) ↔
        adapter.device = .cpu ∧ Unrounded numbers self.vocalReduction samples)

theorem blendsExactly {numbers : Numbers S K α} (blends : BlendsMix numbers) :
    BlendsExactly numbers where
  convTasNet self resample model samples frames idle stereo :=
    blendUnchanged (blends.convTasNet self resample model samples frames idle stereo)
  mdx23c self resample adapter samples frames idle stereo := by
    have maps := blends.mdx23c self resample adapter samples frames idle stereo
    by_cases onCpu : adapter.device = .cpu
    · exact (blendUnchanged (maps.mpr onCpu)).trans (and_iff_right onCpu).symm
    · exact ⟨fun ⟨_, went, _⟩ => absurd ((idle.idleReady resample).readyOnCpu stereo went) onCpu,
        fun holds => absurd holds.1 onCpu⟩

end Laws

section Doubles
variable {S K α : Type}

def resized (zero : K) : Resampler K := fun t source target => do
  let width ← torch t.width
  let frames := (width * target + source - 1) / source
  let long ← padShort zero t frames
  torch (long.narrowLast frames)

theorem resizedResamples (zero : K) (source target : Nat) :
    Resamples (resized zero) source target := by
  intro _ t front n shape
  obtain ⟨long, width, grown, stayed, longShape, _, _⟩ :=
    shortPadded shape zero ((n * target + source - 1) / source)
  obtain ⟨cut, narrow, held, cutShape, _⟩ :=
    made long (narrowed longShape ((n * target + source - 1) / source))
  refine ⟨cut, _, ?_, held.trans stayed, cutShape⟩
  rw [resized, stepOk (torchOk (widthSnoc shape).1), stepOk grown]
  exact torchOk narrow

def silentSeparator (zero : K) (samplerate : Nat) : Separator K where
  samplerate
  separateTensor waveform _ := .ok (waveform, ⟨[("vocals", waveform.map (fun _ => zero))], by simp⟩)

theorem silentSilent (zero : K) (samplerate sampleRate : Nat) :
    (silentSeparator zero samplerate).Silent zero sampleRate := by
  intro waveform n shape
  refine ⟨_, _, rfl, rfl, rfl, shape, fun place value known => ?_⟩
  have mapped := (mapEntry (fun _ => zero) waveform.toTensor place).symm.trans known
  obtain ⟨_, _, same⟩ := Option.map_eq_some_iff.mp mapped
  exact same.symm

def twoSources (waveform : TorchTensor K) : Result (TorchTensor K) := do
  let frames ← torch waveform.width
  torch (waveform.there (Tensor.gather [1, 2, 2, frames] fun
    | [batch, _, channel, frame] => waveform.entry [batch, channel, frame]
    | _ => none))

theorem twoSourcesEcho {waveform : TorchTensor K} {n : Nat} (shape : waveform.shape = [1, 2, n]) :
    ∃ estimates, twoSources waveform = .ok estimates ∧ estimates.device = waveform.device ∧
      estimates.shape = [1, 2, 2, n] ∧
      ∀ source < 2, ∀ channel < 2, ∀ frame < n,
        estimates.entry [0, source, channel, frame] = waveform.entry [0, channel, frame] := by
  obtain ⟨estimates, went, held, estimatesShape, kept⟩ := made waveform (@gathered K [1, 2, 2, n]
    (fun place => match place with
      | [batch, _, channel, frame] => waveform.entry [batch, channel, frame]
      | _ => none) (fun place inside => by
        rcases inside with _ | ⟨one, _ | ⟨_, _ | ⟨side, _ | ⟨row, _ | _⟩⟩⟩⟩
        exact entryInside (shape ▸ .cons one (.cons side (.cons row .nil)))))
  refine ⟨estimates, ?_, held, estimatesShape, fun source pair channel side frame row => ?_⟩
  · rw [twoSources, stepOk (torchOk (@widthSnoc K waveform.toTensor [1, 2] n shape).1)]
    exact torchOk went
  · exact kept _ (.cons Nat.one_pos (.cons pair (.cons side (.cons row .nil))))

theorem twoSourcesEchoes {self : ConvTasNet S K α}
    (two : max self.vocalSourceIndex self.accompanimentSourceIndex < 2) :
    self.Echoes twoSources := by
  intro waveform n there shape
  obtain ⟨estimates, went, held, estimatesShape, echo⟩ := twoSourcesEcho shape
  exact ⟨estimates, 1, 2, went, held.trans there, estimatesShape, Nat.one_pos, two,
    echo _ (Nat.lt_of_le_of_lt (Nat.le_max_right _ _) two)⟩

def otherStem (sampleRate : Nat) (device : Device) : Adapter K := ⟨sampleRate, ["other"], device, .ok⟩

theorem otherIndex (sampleRate : Nat) (device : Device) :
    (otherStem sampleRate device : Adapter K).stemIndex
      ["instrumental", "other", "accompaniment"] = .ok 0 := by
  have lower : "instrumental".toLower = "instrumental" ∧ "other".toLower = "other" := by
    decide +kernel
  simp [Adapter.stemIndex, otherStem, lower.1, lower.2]

theorem otherEchoes (sampleRate : Nat) (device : Device) :
    (otherStem sampleRate device : Adapter K).Echoes := by
  refine ⟨0, otherIndex sampleRate device, fun waveform n there shape =>
    ⟨waveform, rfl, there, .inr ⟨rfl, shape⟩, ?_⟩⟩
  intro channel side frame row
  rw [stemEntry, if_pos (by rw [shape]; rfl)]

def silentDemucs (vocalReduction : S) (zero : K) (samplerate : Nat) : HTDemucs S K α where
  vocalReduction
  separator := some (silentSeparator zero samplerate)

theorem silentIdle (r : S) (zero : K) (samplerate : Nat) :
    (silentDemucs r zero samplerate : HTDemucs S K α).Idle zero (silentSeparator zero samplerate) :=
  ⟨rfl, rfl, silentSilent zero samplerate samplerate⟩

theorem silentReady (r : S) (zero : K) (samplerate sampleRate : Nat) :
    (silentDemucs r zero samplerate : HTDemucs S K α).Ready (resized zero)
      (silentSeparator zero samplerate) sampleRate :=
  ⟨rfl, rfl, silentSeparates (silentSilent zero samplerate sampleRate), resizedResamples zero _ _⟩

def mixTasNet (vocalReduction : S) (modelSampleRate : Nat) (device : Device) : ConvTasNet S K α where
  vocalReduction
  modelSampleRate
  device
  model := some twoSources

theorem mixTasNetIdle (r : S) (modelRate : Nat) (device : Device) :
    (mixTasNet r modelRate device : ConvTasNet S K α).Idle twoSources :=
  ⟨rfl, rfl, twoSourcesEchoes (by decide : max 0 1 < 2)⟩

theorem mixTasNetReady (r : S) (zero : K) (modelRate sampleRate : Nat) (device : Device) :
    (mixTasNet r modelRate device : ConvTasNet S K α).Ready (resized zero) twoSources sampleRate :=
  ⟨rfl, rfl, echoesSeparate (twoSourcesEchoes (by decide : max 0 1 < 2)), resizedResamples zero _ _,
    resizedResamples zero _ _⟩

def mixMdx23c (vocalReduction : S) (sampleRate : Nat) (device : Device) : MDX23C S K α where
  vocalReduction
  adapter := some (otherStem sampleRate device)

theorem mixMdx23cIdle (r : S) (modelRate : Nat) (device : Device) :
    (mixMdx23c r modelRate device : MDX23C S K α).Idle (otherStem modelRate device) :=
  ⟨rfl, rfl, otherEchoes modelRate device⟩

theorem mixMdx23cReady (r : S) (zero : K) (modelRate sampleRate : Nat) (device : Device) :
    (mixMdx23c r modelRate device : MDX23C S K α).Ready (resized zero) (otherStem modelRate device)
      sampleRate :=
  ⟨rfl, rfl, stemsSeparate (otherEchoes modelRate device), resizedResamples zero _ _,
    resizedResamples zero _ _⟩

end Doubles

section Results
open Mdx23cVocals (Event newState quarterSecond slowFrame)
open Processors (MDX23CVocalsConfig)
open SegmentedInference (Concluded Inference InferenceTask concludedOnce baseRun)

/- Every sample comes back at its place, and no segment in another length, from HTDemucs and
ConvTasNet on any device and from MDX23C on the CPU alone. Where the separation changes nothing
the clamped input comes back: exactly but for what the floats round, which in HTDemucs is
nothing but the sign of a zero, and in the other two nothing if the vocals are kept or removed
as a whole. -/
theorem separationsReturned (host : HostOrder) (segmentSeconds : Float)
    (config : MDX23CVocalsConfig) (events : List Event) :
    ReturnsInFrames floats ∧ BlendsMix floats ∧ BlendsExactly floats ∧
    (∀ (K : Type) [Field K] [LinearOrder K] [IsStrictOrderedRing K],
      HTDemucs.LeavesMix (· = ·) (exact K) (fun _ => True) (fun _ => True) ∧
      ConvTasNet.LeavesMix (· = ·) (exact K) (fun _ => True) (fun _ => True) ∧
      MDX23C.LeavesMix (· = ·) (exact K) (fun _ => True) (fun _ => True)) ∧
    HTDemucs.LeavesMix SameNumber floats (fun r => 0 ≤ r ∧ r ≤ 1) (fun _ => True) ∧
    (ConvTasNet.LeavesMix (· = ·) floats (fun r => r = 0.0 ∨ r = 1.0)
        (fun item => (floats.read item).isFinite = true) ∧
      MDX23C.LeavesMix (· = ·) floats (fun r => r = 0.0 ∨ r = 1.0)
        (fun item => (floats.read item).isFinite = true)) ∧
    (Concluded HTDemucs.Inferences (·.channels) (fun before =>
        (baseRun host SegmentedInference.htdemucs segmentSeconds before).inferenceTask) events →
      SegmentedInference.Matches host SegmentedInference.htdemucs
        (baseRun host SegmentedInference.htdemucs segmentSeconds events)) ∧
    (Concluded ConvTasNet.Inferences (·.channels) (fun before =>
        (baseRun host SegmentedInference.convTasNet segmentSeconds before).inferenceTask) events →
      SegmentedInference.Matches host SegmentedInference.convTasNet
        (baseRun host SegmentedInference.convTasNet segmentSeconds events)) ∧
    (config.checked = .ok config → Concluded MDX23C.Inferences (fun _ => 2) (fun before =>
        (Mdx23cVocals.run host (newState config) before).inferenceTask) events →
      Mdx23cVocals.Matches host (Mdx23cVocals.run host (newState config) events)) := by
  have blends := blendsMix floatsInert
  refine ⟨returnsInFrames floatsInert, blends, blendsExactly blends, ?_, ?_, ?_, ?_, ?_, ?_⟩
  · intro K _ _ _
    have exactly := @blendsMix K K K _ _ _ _ _ _ (exact K) exactInert
    exact ⟨withoutLeaves exactly (fun r _ x _ => congrArg (exact K).clamp (exactWithout r x)),
      blendLeaves exactly (fun r _ x _ => congrArg (exact K).clamp (exactBlend r x))⟩
  · exact withoutLeaves blends (fun r inside item _ => withoutSame inside.1 inside.2 _)
  · exact blendLeaves blends (fun r whole item finite =>
      congrArg floats.clamp (blendSame whole finite))
  · intro inferred
    exact SegmentedInference.sizedMatch (SegmentedInference.runSized host
      (SegmentedInference.registeredStereo (.inl rfl)) segmentSeconds
      (fun _ => HTDemucs.inferencesKeep) inferred)
  · intro inferred
    exact SegmentedInference.sizedMatch (SegmentedInference.runSized host
      (SegmentedInference.registeredStereo (.inr rfl)) segmentSeconds
      (fun _ => ConvTasNet.inferencesKeep) inferred)
  · intro checked inferred
    exact Mdx23cVocals.sizedMatch (Mdx23cVocals.runSound checked events)
      (Mdx23cVocals.runSized host config (fun _ => MDX23C.inferencesKeep) inferred)

def silentSegment : List Event := [.process slowFrame, .inferenceEnds (.returned [0, 0])]

theorem silentConcluded {possible : Inference → Prop} {channels : KanyPacket → Nat}
    {task : List Event → Option InferenceTask} {segment : SegmentedInference.Segment}
    (running : task [.process slowFrame] = some ⟨segment, none⟩) {infer : Inference}
    (may : possible infer) (silent : Prod.fst <$> segment.infer channels infer 1 = .ok [0, 0]) :
    Concluded possible channels task silentSegment := by
  refine concludedOnce (fun other separated same result => ?_)
  rw [running] at same
  cases same
  cases result
  obtain ⟨⟨separated, realTimeFactor⟩, ended, rfl⟩ := okMap.mp silent
  exact ⟨infer, 1, realTimeFactor, may, ended⟩

theorem separationsReturnedSilence :
    Returns floats (resized floats.zero)
      ((silentDemucs 0.5 floats.zero 44100 : HTDemucs Float Float32 UInt32).separation floats
        (silentSeparator floats.zero 44100) [0, 0, 0, 0] 48000) 44100 48000 2
      ((silentDemucs 0.5 floats.zero 44100 : HTDemucs Float Float32 UInt32).runInference floats
        (resized floats.zero) [0, 0, 0, 0] 48000 2) ∧
    Unchanged SameNumber floats [0x40000000, 0xbf000000]
      ((silentDemucs 0.5 floats.zero 44100 : HTDemucs Float Float32 UInt32).runInference floats
        (resized floats.zero) [0x40000000, 0xbf000000] 44100 2) ∧
    Unchanged (· = ·) floats [0x40000000, 0xbf000000]
      ((mixTasNet 1.0 44100 (.accelerator "cuda") : ConvTasNet Float Float32 UInt32).runInference floats
        (resized floats.zero) [0x40000000, 0xbf000000] 44100 2) ∧
    Unchanged (· = ·) (exact ℚ) [2, -1 / 2]
      ((mixMdx23c (1 / 3) 44100 .cpu : MDX23C ℚ ℚ ℚ).runInference (exact ℚ) (resized 0) [2, -1 / 2]
        44100 2) ∧
    (baseRun .little SegmentedInference.htdemucs 0.25 silentSegment).inferenceTask.bind (·.outcome) =
      some (.returned [0, 0]) ∧
    SegmentedInference.Matches .little SegmentedInference.htdemucs
      (baseRun .little SegmentedInference.htdemucs 0.25 silentSegment) ∧
    SegmentedInference.Matches .little SegmentedInference.convTasNet
      (baseRun .little SegmentedInference.convTasNet 0.25 silentSegment) ∧
    Mdx23cVocals.Matches .little
      (Mdx23cVocals.run .little (newState quarterSecond) silentSegment) := by
  obtain ⟨frames, _, _, exactly, htdemucs, ⟨convTasNet, _⟩, demucsRuns, tasNetRuns, mdx23cRuns⟩ :=
    separationsReturned .little 0.25 quarterSecond silentSegment
  refine ⟨?_, ?_, ?_, ?_, by decide +kernel, ?_, ?_, ?_⟩
  · exact frames.htdemucs _ _ _ _ _ 2 (silentReady 0.5 floats.zero 44100 48000) rfl
  · exact htdemucs _ _ _ _ 1 (silentIdle 0.5 floats.zero 44100) rfl (by decide +kernel) (by simp)
  · exact convTasNet _ _ _ _ 1 (mixTasNetIdle 1.0 44100 _) rfl (.inr rfl)
      (List.forall_mem_cons.mpr ⟨by decide +kernel, by simp only [List.forall_mem_singleton]; rfl⟩)
  · exact ((exactly ℚ).2.2 _ _ _ _ 1 (mixMdx23cIdle (1 / 3) 44100 .cpu) rfl trivial (by simp)).mpr rfl
  · exact demucsRuns (silentConcluded rfl ⟨silentDemucs 0.5 floats.zero 3,
      resized floats.zero, _, fun rate _ => silentReady 0.5 floats.zero 3 rate, rfl⟩ (by decide +kernel))
  · exact tasNetRuns (silentConcluded rfl ⟨mixTasNet 0.5 3 .cpu, resized floats.zero, _,
      fun rate _ => mixTasNetReady 0.5 floats.zero 3 rate .cpu, rfl⟩ (by decide +kernel))
  · exact mdx23cRuns rfl (silentConcluded rfl ⟨mixMdx23c 0.5 3 .cpu, resized floats.zero, _,
      fun rate _ => mixMdx23cReady 0.5 floats.zero 3 rate .cpu, rfl⟩ (by decide +kernel))

/- A frame whose accompaniment is the mix: MDX23C raises on a GPU. And a tenth, which
ConvTasNet gives back as the next float, since the blend rounds. -/
theorem separationsFail :
    ((mixMdx23c 1.0 44100 (.accelerator "cuda") : MDX23C Float Float32 UInt32).Ready
        (resized floats.zero) (otherStem 44100 (.accelerator "cuda")) 44100 ∧
      (mixMdx23c 1.0 44100 (.accelerator "cuda") : MDX23C Float Float32 UInt32).Idle
        (otherStem 44100 (.accelerator "cuda")) ∧
      (mixMdx23c 1.0 44100 (.accelerator "cuda") : MDX23C Float Float32 UInt32).runInference floats
        (resized floats.zero) [0x40000000, 0xbf000000] 44100 2 = .error (.exception "")) ∧
    (mixTasNet 0.8 44100 .cpu : ConvTasNet Float Float32 UInt32).Idle twoSources ∧
    (mixTasNet 0.8 44100 .cpu : ConvTasNet Float Float32 UInt32).runInference floats
      (resized floats.zero) [0x3dcccccd, 0x3dcccccd] 44100 2 = .ok [0x3dccccce, 0x3dccccce] ∧
    ¬ Unchanged (· = ·) floats [0x3dcccccd, 0x3dcccccd]
      ((mixTasNet 0.8 44100 .cpu : ConvTasNet Float Float32 UInt32).runInference floats
        (resized floats.zero) [0x3dcccccd, 0x3dcccccd] 44100 2) := by
  have ready : (mixMdx23c 1.0 44100 (.accelerator "cuda") : MDX23C Float Float32 UInt32).Ready
      (resized floats.zero) (otherStem 44100 (.accelerator "cuda")) 44100 :=
    mixMdx23cReady 1.0 floats.zero 44100 44100 (.accelerator "cuda")
  have mapped : (mixTasNet 0.8 44100 .cpu : ConvTasNet Float Float32 UInt32).runInference floats
      (resized floats.zero) [0x3dcccccd, 0x3dcccccd] 44100 2 = .ok ([0x3dcccccd, 0x3dcccccd].map
        (floats.back (fun x => floats.blend 0.8 x x))) :=
    convTasNetMapped floatsInert (show _ = 2 * 1 from rfl) (mixTasNetIdle 0.8 44100 .cpu)
  refine ⟨⟨ready, mixMdx23cIdle 1.0 44100 _, ready.readyRaises (show _ = 2 * 1 from rfl) nofun⟩,
    mixTasNetIdle 0.8 44100 .cpu, mapped.trans (by decide +kernel), fun unchanged => ?_⟩
  have unrounded := (blendUnchanged mapped).mp unchanged _ List.mem_cons_self
  exact absurd unrounded (by decide +kernel)

end Results

end KaraokeAnything.ModelInference
