import KaraokeAnything.ModelInference

/-! What `_run_inference` of the three models returns, by position: the result of the
separation at the rate of the stream, clamped, padded or cut to the frames that came in. -/
namespace KaraokeAnything.ModelInference
open Dictionaries Python Tensors

theorem stepOk {ε A B : Type} {first : Except ε A} {next : A → Except ε B} {a : A}
    (went : first = .ok a) : (first >>= next) = next a := by rw [went]; rfl

theorem torchOk {A : Type} {first : Option A} {a : A} (went : first = some a) :
    torch first = .ok a := by rw [went]; rfl

theorem shortPadded {K : Type} {t : TorchTensor K} {front : List Nat} {m : Nat}
    (shape : t.shape = front ++ [m]) (zero : K) (frames : Nat) : ∃ long width,
      padShort zero t frames = .ok long ∧ long.device = t.device ∧ long.shape = front ++ [width] ∧
      frames ≤ width ∧
      ∀ start j, Inside front start → j < frames →
        long.entry (start ++ [j]) = if j < m then t.entry (start ++ [j]) else some zero := by
  rw [padShort, stepOk (torchOk (widthSnoc shape).1)]
  by_cases short : m < frames
  · obtain ⟨long, grown, held, longShape, kept⟩ := made t (padded shape (frames - m) zero)
    refine ⟨long, _, ?_, held, longShape, by omega,
      fun start j fits row => kept start j fits (by omega)⟩
    rw [if_pos short]
    exact torchOk grown
  · refine ⟨t, m, if_neg short, rfl, shape, Nat.not_lt.mp short, fun start j fits row => ?_⟩
    rw [if_pos (by omega)]

section Frames
variable {S K α : Type}

theorem channelRowsAt (numbers : Numbers S K α) {samples : List α} {frames : Nat}
    (stereo : samples.length = 2 * frames) : ∃ waveform,
      channelRows numbers samples 2 = .ok waveform ∧ waveform.device = .cpu ∧
      waveform.shape = [2, frames] ∧
      ∀ frame < frames, ∀ channel < 2,
        waveform.entry [channel, frame] = samples[2 * frame + channel]?.map numbers.read := by
  have whole : (Placed.ofList Device.cpu (samples.map numbers.read)).data.length = frames * 2 := by
    change (samples.map numbers.read).length = _
    rw [List.length_map, stereo, Nat.mul_comm]
  obtain ⟨rows, viewed, onCpu, shape, data⟩ :=
    made (.ofList Device.cpu (samples.map numbers.read)) (viewedRows Nat.two_pos whole)
  obtain ⟨waveform, turned, held, turnedShape, found⟩ := made rows (transposed shape)
  refine ⟨waveform, ?_, held.trans onCpu, turnedShape, fun frame inside channel side => ?_⟩
  · exact (stepOk (torchOk viewed)).trans (torchOk turned)
  · rw [found, matrixEntry shape inside side, data, Nat.mul_comm]
    exact List.getElem?_map

variable [LT K] [DecidableLT K]

structure Finalized (numbers : Numbers S K α) (result : TorchTensor K) (m frames : Nat)
    (output : List α) : Prop where
  shape : result.shape = [2, m]
  length : output.length = 2 * frames
  inside : ∀ frame < frames, ∀ channel < 2, frame < m → ∃ value,
    result.entry [channel, frame] = some value ∧
      output[2 * frame + channel]? = some (numbers.write (numbers.clamp value))
  beyond : ∀ frame < frames, ∀ channel < 2, m ≤ frame →
    output[2 * frame + channel]? = some (numbers.write numbers.zero)

variable {numbers : Numbers S K α} {result : TorchTensor K} {m frames : Nat}

theorem cutFinalized (inert : numbers.clamp numbers.zero = numbers.zero)
    (shape : result.shape = [2, m]) {long : TorchTensor K} {width : Nat}
    (longShape : long.shape = [2] ++ [width]) (enough : frames ≤ width)
    (entries : ∀ frame < frames, ∀ channel < 2, long.entry [channel, frame] =
      if frame < m then result.entry [channel, frame] else some numbers.zero) :
    ∃ cut turned, long.narrowLast frames = some cut ∧ (cut.map numbers.clamp).transpose = some turned ∧
      Finalized numbers result m frames (toArray numbers turned.flat) := by
  obtain ⟨cut, narrow, _, cutShape, kept⟩ := made long (narrowed longShape frames)
  rw [Nat.min_eq_right enough] at cutShape
  obtain ⟨turned, transpose, _, turnedShape, found⟩ :=
    made (cut.map numbers.clamp) (@transposed K (cut.toTensor.map numbers.clamp) _ _ _ cutShape)
  have items : (toArray numbers turned.flat).length = 2 * frames := by
    change (turned.data.map numbers.write).length = _
    rw [List.length_map, turned.size, turnedShape]
    simp [Nat.mul_comm]
  have item {frame channel : Nat} {value : K} (row : frame < frames) (side : channel < 2)
      (known : long.entry [channel, frame] = some value) :
      (toArray numbers turned.flat)[2 * frame + channel]? =
        some (numbers.write (numbers.clamp value)) := by
    have there : turned.entry [frame, channel] = some (numbers.clamp value) := by
      rw [found, mapEntry, show [channel, frame] = [channel] ++ [frame] from rfl, kept _ _ row]
      exact congrArg (Option.map numbers.clamp) known
    rw [matrixEntry turnedShape row side, Nat.mul_comm] at there
    change (turned.data.map numbers.write)[2 * frame + channel]? = _
    rw [List.getElem?_map, there]
    rfl
  refine ⟨cut, turned, narrow, transpose, shape, items, ?_, ?_⟩
  · intro frame row channel side within
    obtain ⟨value, known⟩ := @entryInside K result.toTensor [channel, frame]
      (shape ▸ .cons side (.cons within .nil))
    refine ⟨value, known, item row side ?_⟩
    rw [entries frame row channel side, if_pos within, known]
  · intro frame row channel side past
    have padding := entries frame row channel side
    rw [if_neg (Nat.not_lt.mpr past)] at padding
    rw [item row side padding, inert]

theorem finalizeOutputs (inert : numbers.clamp numbers.zero = numbers.zero)
    (resample : Resampler K) {modelRate sampleRate : Nat} {separated : TorchTensor K}
    (converted : resampled resample separated modelRate sampleRate = .ok result)
    (shape : result.shape = [2, m]) (frames : Nat) : ∃ interleaved,
      finalizeOutput numbers resample modelRate separated sampleRate frames = .ok interleaved ∧
      Finalized numbers result m frames (toArray numbers interleaved) := by
  obtain ⟨long, width, grown, _, longShape, enough, kept⟩ :=
    @shortPadded K result [2] m shape numbers.zero frames
  obtain ⟨cut, turned, narrow, transpose, finalized⟩ := cutFinalized inert shape longShape enough
    (fun frame row channel side => kept [channel] frame (.cons side .nil) row)
  refine ⟨turned.flat.moveTo .cpu, ?_, finalized⟩
  rw [finalizeOutput, stepOk converted, stepOk grown, stepOk (torchOk narrow),
    stepOk (torchOk transpose)]
  rfl

def Numbers.back (numbers : Numbers S K α) (f : K → K) (sample : α) : α :=
  numbers.write (numbers.clamp (f (numbers.read sample)))

theorem finalizedMap {samples output : List α} {f : K → K}
    (finalized : Finalized numbers result frames frames output)
    (stereo : samples.length = 2 * frames)
    (entries : ∀ frame < frames, ∀ channel < 2, result.entry [channel, frame] =
      samples[2 * frame + channel]?.map (fun sample => f (numbers.read sample))) :
    output = samples.map (numbers.back f) := by
  refine List.ext_getElem? (fun j => ?_)
  rcases Nat.lt_or_ge j (2 * frames) with within | past
  · have place : j = 2 * (j / 2) + j % 2 := by omega
    have row : j / 2 < frames := by omega
    have side : j % 2 < 2 := Nat.mod_lt _ Nat.two_pos
    obtain ⟨value, known, item⟩ := finalized.inside (j / 2) row (j % 2) side row
    rw [entries _ row _ side, ← place] at known
    rw [← place] at item
    obtain ⟨sample, found, rfl⟩ := Option.map_eq_some_iff.mp known
    rw [item, List.getElem?_map, found]
    rfl
  · rw [List.getElem?_eq_none (by rw [finalized.length]; exact past),
      List.getElem?_eq_none (by rw [List.length_map, stereo]; exact past)]

end Frames

section Contracts
variable {S K : Type}

/- Resampling to another rate changes the length of the last dimension, and no other; the
tensor stays on its device. -/
def Resamples (resample : Resampler K) (source target : Nat) : Prop :=
  source ≠ target → ∀ (t : TorchTensor K) (front : List Nat) (n : Nat), t.shape = front ++ [n] →
    ∃ u m, resample t source target = .ok u ∧ u.device = t.device ∧ u.shape = front ++ [m]

theorem resampledShape {resample : Resampler K} {source target : Nat}
    (resamples : Resamples resample source target) {t : TorchTensor K} {front : List Nat} {n : Nat}
    (shape : t.shape = front ++ [n]) :
    ∃ u m, resampled resample t source target = .ok u ∧ u.device = t.device ∧
      u.shape = front ++ [m] := by
  unfold resampled
  split
  · exact resamples ‹_› t front n shape
  · exact ⟨t, n, rfl, rfl, shape⟩

theorem resamplesSame (resample : Resampler K) (rate : Nat) : Resamples resample rate rate :=
  fun differs => absurd rfl differs

theorem resampledSame (resample : Resampler K) (t : TorchTensor K) (rate : Nat) :
    resampled resample t rate rate = .ok t := if_neg (fun differs => differs rfl)

/- Two rows in, and two rows of one length for the mix and the vocals, on the device of the
waveform: only parts of it are ever moved to that of the model. -/
def Separator.Separates (separator : Separator K) (sampleRate : Nat) : Prop :=
  ∀ (waveform : TorchTensor K) (n : Nat), waveform.shape = [2, n] → ∃ original stems vocals k,
    separator.separateTensor waveform sampleRate = .ok (original, stems) ∧
    stems.find "vocals" = some vocals ∧ original.device = waveform.device ∧
    vocals.device = waveform.device ∧ original.shape = [2, k] ∧ vocals.shape = [2, k]

/- For each source as many frames as the waveform has, all on the device the model was moved
to. -/
def ConvTasNet.Separates {α : Type} (self : ConvTasNet S K α)
    (model : TorchTensor K → Result (TorchTensor K)) : Prop :=
  ∀ (waveform : TorchTensor K) (n : Nat), waveform.device = self.device →
    waveform.shape = [1, 2, n] → ∃ estimates batch sources, model waveform = .ok estimates ∧
    estimates.device = self.device ∧ estimates.shape = [batch, sources, 2, n] ∧ 0 < batch ∧
    max self.vocalSourceIndex self.accompanimentSourceIndex < sources

def HasStems (result : TorchTensor K) (count m : Nat) : Prop :=
  result.shape = [1, count, 2, m] ∨ count = 1 ∧ result.shape = [1, 2, m]

def stemEntry (result : TorchTensor K) (stem channel frame : Nat) : Option K :=
  if result.shape.length = 3 then result.entry [0, channel, frame]
  else result.entry [0, stem, channel, frame]

/- All stems in any number of frames, on the device of the model, and the accompaniment is
one of them. -/
structure Adapter.Separates (adapter : Adapter K) : Prop where
  model : ∀ (waveform : TorchTensor K) (n : Nat), waveform.device = adapter.device →
    waveform.shape = [1, 2, n] → ∃ result m, adapter.model waveform = .ok result ∧
    result.device = adapter.device ∧ HasStems result adapter.stems.length m
  stem : ∃ stem, adapter.stemIndex ["instrumental", "other", "accompaniment"] = .ok stem

theorem stemInside {adapter : Adapter K} {names : List String} {stem : Nat}
    (found : adapter.stemIndex names = .ok stem) : stem < adapter.stems.length := by
  unfold Adapter.stemIndex at found
  split at found
  · rename_i name listed
    cases found
    have member := List.find?_some listed
    exact List.idxOf_lt_length_iff.mpr (decide_eq_true_eq.mp member)
  · contradiction

end Contracts

section Separation
variable {S K α : Type}
variable (numbers : Numbers S K α) (resample : Resampler K)

def HTDemucs.separation [Sub K] [Mul K] (self : HTDemucs S K α) (separator : Separator K)
    (samples : List α) (sampleRate : Nat) : Result (TorchTensor K) := do
  let waveform ← HTDemucs.toChannelFirstWaveform numbers samples 2
  self.reduceVocals numbers separator waveform sampleRate

variable [Sub S] [Add K] [Mul K]

def ConvTasNet.separation (self : ConvTasNet S K α) (model : TorchTensor K → Result (TorchTensor K))
    (samples : List α) (sampleRate : Nat) : Result (TorchTensor K) := do
  let waveform ← self.prepareWaveform numbers resample samples sampleRate 2
  self.separateAccompaniment numbers model waveform

def MDX23C.separation (self : MDX23C S K α) (adapter : Adapter K) (samples : List α)
    (sampleRate : Nat) : Result (TorchTensor K) := do
  let rows ← channelRows numbers samples 2
  let waveform ← torch (rows.unsqueeze 0)
  self.blended numbers resample adapter waveform sampleRate

end Separation

section HTDemucs
variable {S K α : Type} [Sub K] [Mul K] (numbers : Numbers S K α) (self : HTDemucs S K α)
  {separator : Separator K} {sampleRate : Nat}

theorem reducedVocals {waveform original vocals : TorchTensor K} {stems : Dict String (TorchTensor K)}
    {shape : List Nat}
    (separates : separator.separateTensor waveform sampleRate = .ok (original, stems))
    (stem : stems.find "vocals" = some vocals) (together : original.device = vocals.device)
    (originalShape : original.shape = shape) (vocalsShape : vocals.shape = shape) : ∃ separated,
      self.reduceVocals numbers separator waveform sampleRate = .ok separated ∧
      separated.shape = shape ∧ ∀ place x y, original.entry place = some x →
        vocals.entry place = some y → separated.entry place =
          some (numbers.without self.vocalReduction x y) := by
  obtain ⟨separated, zip, _, sameShape, entries⟩ := zippedThere
    (numbers.without self.vocalReduction) together (originalShape.trans vocalsShape.symm)
  refine ⟨separated, ?_, sameShape.trans originalShape, entries⟩
  rw [HTDemucs.reduceVocals, stepOk separates]
  simp only [stem]
  exact torchOk zip

theorem htdemucsSeparated (separates : separator.Separates sampleRate) {samples : List α}
    {frames : Nat} (stereo : samples.length = 2 * frames) : ∃ separated k,
      self.separation numbers separator samples sampleRate = .ok separated ∧
      separated.shape = [2, k] := by
  obtain ⟨waveform, rows, _, shape, _⟩ := channelRowsAt numbers stereo
  obtain ⟨original, stems, vocals, k, went, stem, originalHeld, vocalsHeld, originalShape,
    vocalsShape⟩ := separates waveform frames shape
  obtain ⟨separated, reduced, reducedShape, _⟩ := reducedVocals numbers self went stem
    (originalHeld.trans vocalsHeld.symm) originalShape vocalsShape
  exact ⟨separated, k, (stepOk rows).trans reduced, reducedShape⟩

end HTDemucs

section ConvTasNet
variable {S K α : Type} [Sub S] [Add K] [Mul K] (numbers : Numbers S K α)
  {self : ConvTasNet S K α} {model : TorchTensor K → Result (TorchTensor K)}

theorem separatedAccompaniment {waveform estimates : TorchTensor K} {batch sources n : Nat}
    (separates : model waveform = .ok estimates) (together : estimates.device = waveform.device)
    (shape : estimates.shape = [batch, sources, 2, n]) (one : 0 < batch)
    (index : max self.vocalSourceIndex self.accompanimentSourceIndex < sources)
    (waveformShape : waveform.shape = [1, 2, n]) : ∃ separated,
      self.separateAccompaniment numbers model waveform = .ok separated ∧ separated.shape = [2, n] ∧
      ∀ channel frame x y, estimates.entry [0, self.accompanimentSourceIndex, channel, frame] = some x →
        waveform.entry [0, channel, frame] = some y → separated.entry [channel, frame] =
          some (numbers.blend self.vocalReduction x y) := by
  obtain ⟨first, batched, firstHeld, firstShape, firstEntries⟩ := made estimates (selected shape one)
  obtain ⟨accompaniment, source, sourceHeld, sourceShape, sourceEntries⟩ :=
    made first (selected firstShape (Nat.lt_of_le_of_lt (Nat.le_max_right _ _) index))
  obtain ⟨mix, whole, mixHeld, mixShape, mixEntries⟩ :=
    made waveform (selected waveformShape Nat.one_pos)
  obtain ⟨separated, zip, _, sameShape, entries⟩ := zippedThere (numbers.blend self.vocalReduction)
    (by rw [sourceHeld, firstHeld, mixHeld, together]) (sourceShape.trans mixShape.symm)
  refine ⟨separated, ?_, sameShape.trans sourceShape, fun channel frame x y estimate known => ?_⟩
  · rw [ConvTasNet.separateAccompaniment, stepOk separates, shape]
    simp only [Nat.not_le.mpr index, if_false]
    rw [stepOk (torchOk batched), stepOk (torchOk source), stepOk (torchOk whole)]
    exact torchOk zip
  · refine entries _ x y ?_ ?_
    · rw [sourceEntries, firstEntries, estimate]
    · rw [mixEntries, known]

theorem batchedRows {S K α : Type} (numbers : Numbers S K α) {samples : List α} {frames : Nat}
    (stereo : samples.length = 2 * frames) : ∃ rows waveform,
      channelRows numbers samples 2 = .ok rows ∧ rows.unsqueeze 0 = some waveform ∧
      waveform.device = .cpu ∧ waveform.shape = [1, 2, frames] ∧ ∀ frame < frames, ∀ channel < 2,
        waveform.entry [0, channel, frame] = samples[2 * frame + channel]?.map numbers.read := by
  obtain ⟨rows, went, onCpu, shape, found⟩ := channelRowsAt numbers stereo
  obtain ⟨waveform, batched, held, batchedShape, kept⟩ :=
    made rows (@unsqueezed K rows.toTensor [] [2, frames] shape)
  refine ⟨rows, waveform, went, batched, held.trans onCpu, batchedShape, ?_⟩
  intro frame row channel side
  exact (kept [] [channel, frame] rfl).trans (found frame row channel side)

theorem convTasNetSeparated (separates : self.Separates model) {resample : Resampler K}
    {sampleRate : Nat} (resamples : Resamples resample sampleRate self.modelSampleRate)
    {samples : List α} {frames : Nat} (stereo : samples.length = 2 * frames) : ∃ separated k,
      self.separation numbers resample model samples sampleRate = .ok separated ∧
      separated.shape = [2, k] := by
  obtain ⟨rows, waveform, went, batched, _, shape, _⟩ := batchedRows numbers stereo
  obtain ⟨input, n, converted, _, inputShape⟩ :=
    @resampledShape K resample _ _ resamples waveform [1, 2] frames shape
  obtain ⟨estimates, batch, sources, estimated, held, estimatesShape, one, index⟩ :=
    separates (input.moveTo self.device) n rfl inputShape
  obtain ⟨separated, accompaniment, separatedShape, _⟩ :=
    separatedAccompaniment numbers estimated held estimatesShape one index inputShape
  refine ⟨separated, n, ?_, separatedShape⟩
  rw [ConvTasNet.separation, ConvTasNet.prepareWaveform, stepOk went, stepOk (torchOk batched),
    stepOk converted]
  exact accompaniment

end ConvTasNet

section MDX23C
variable {S K α : Type} {adapter : Adapter K}

theorem stemsWhole {result : TorchTensor K} {count m : Nat} (form : HasStems result count m) :
    ∃ whole, withStems result = .ok whole ∧ whole.device = result.device ∧
      whole.shape = [1, count, 2, m] ∧ ∀ stem < count, ∀ channel frame,
        whole.entry [0, stem, channel, frame] = stemEntry result stem channel frame := by
  rcases form with stems | ⟨rfl, flat⟩
  · refine ⟨result, if_neg (by rw [stems]; exact (nomatch ·)), rfl, stems, ?_⟩
    intro stem _ channel frame
    rw [stemEntry, if_neg (by rw [stems]; exact (nomatch ·))]
  · obtain ⟨whole, put, held, wholeShape, kept⟩ :=
      made result (@unsqueezed K result.toTensor [1] [2, m] flat)
    refine ⟨whole, ?_, held, wholeShape, fun stem only channel frame => ?_⟩
    · rw [withStems, if_pos (by rw [flat]; rfl)]
      exact torchOk put
    · rw [stemEntry, if_pos (by rw [flat]; rfl), Nat.lt_one_iff.mp only]
      exact kept [0] [channel, frame] rfl

theorem normalised (zero : K) {result waveform : TorchTensor K} {count m n : Nat}
    (form : HasStems result count m) (waveformShape : waveform.shape = [1, 2, n]) : ∃ estimates,
      normaliseOutput zero result waveform n count = .ok estimates ∧
      estimates.device = result.device ∧ estimates.shape = [1, count, 2, n] ∧ ∀ stem < count, ∀ channel < 2, ∀ frame < n,
        estimates.entry [0, stem, channel, frame] =
          if frame < m then stemEntry result stem channel frame else some zero := by
  obtain ⟨whole, stemmed, wholeHeld, shape, entries⟩ := stemsWhole form
  have valid : hasValidStemShape whole waveform = true := by
    rw [hasValidStemShape, shape, waveformShape]
    rfl
  have second : whole.shape[1]? = some count := by rw [shape]; rfl
  obtain ⟨long, width, grown, longHeld, longShape, enough, kept⟩ :=
    @shortPadded K whole [1, count, 2] m shape zero n
  obtain ⟨estimates, narrow, held, narrowShape, cut⟩ := made long (narrowed longShape n)
  rw [Nat.min_eq_right enough] at narrowShape
  have normal : normaliseOutput zero result waveform n count = .ok estimates := by
    rw [normaliseOutput, stepOk stemmed]
    simp only [valid, second, Bool.not_true, Bool.false_eq_true, ne_eq, not_true_eq_false, if_false]
    rw [stepOk grown]
    exact torchOk narrow
  refine ⟨estimates, normal, held.trans (longHeld.trans wholeHeld), narrowShape, ?_⟩
  intro stem inside channel side frame row
  have place : Inside [1, count, 2] [0, stem, channel] :=
    .cons Nat.one_pos (.cons inside (.cons side .nil))
  rw [← entries stem inside channel frame]
  exact (cut [0, stem, channel] frame row).trans (kept [0, stem, channel] frame place row)

theorem inferOk {zero : K} {waveform result estimates : TorchTensor K} {n : Nat}
    (shape : waveform.shape = [1, 2, n])
    (went : adapter.model (waveform.moveTo adapter.device) = .ok result)
    (normal : normaliseOutput zero result (waveform.moveTo adapter.device) n adapter.stems.length =
      .ok estimates) : adapter.infer zero waveform adapter.sampleRate = .ok estimates := by
  have valid : validateWaveformInput waveform adapter.sampleRate adapter.sampleRate = .ok () := by
    rw [validateWaveformInput, if_neg (fun differs => differs rfl), shape]
    rfl
  have width : waveform.width = some n := (@widthSnoc K waveform.toTensor [1, 2] n shape).1
  rw [Adapter.infer, stepOk valid, stepOk (torchOk width)]
  exact (stepOk went).trans normal

variable [Sub S] [Add K] [Mul K] (numbers : Numbers S K α) (self : MDX23C S K α)
  (resample : Resampler K)

theorem blendedZip {sampleRate stem n : Nat} {waveform input estimates : TorchTensor K}
    (converted : resampled resample waveform sampleRate adapter.sampleRate = .ok input)
    (inputShape : input.shape = [1, 2, n])
    (inferred : adapter.infer numbers.zero input adapter.sampleRate = .ok estimates)
    (shape : estimates.shape = [1, adapter.stems.length, 2, n])
    (index : adapter.stemIndex ["instrumental", "other", "accompaniment"] = .ok stem) :
    ∃ instrumental original : TorchTensor K,
      self.blended numbers resample adapter waveform sampleRate =
        torch (instrumental.zip (numbers.blend self.vocalReduction) original) ∧
      instrumental.device = estimates.device ∧ original.device = input.device ∧
      instrumental.shape = [2, n] ∧ original.shape = [2, n] ∧
      (∀ place, instrumental.entry place = estimates.entry (0 :: stem :: place)) ∧
      ∀ place, original.entry place = input.entry (0 :: place) := by
  obtain ⟨first, batched, firstHeld, firstShape, firstEntries⟩ :=
    made estimates (selected shape Nat.one_pos)
  obtain ⟨instrumental, taken, held, instrumentalShape, entries⟩ :=
    made first (selected firstShape (stemInside index))
  obtain ⟨original, whole, originalHeld, originalShape, originalEntries⟩ :=
    made input (selected inputShape Nat.one_pos)
  refine ⟨instrumental, original, ?_, held.trans firstHeld, originalHeld, instrumentalShape,
    originalShape, fun place => ?_, originalEntries⟩
  · rw [MDX23C.blended, stepOk converted, stepOk inferred, stepOk index, stepOk (torchOk batched),
      stepOk (torchOk taken), stepOk (torchOk whole)]
  · rw [entries, firstEntries]

theorem blendedStem {sampleRate stem n : Nat} {waveform input estimates : TorchTensor K}
    (converted : resampled resample waveform sampleRate adapter.sampleRate = .ok input)
    (inputShape : input.shape = [1, 2, n])
    (inferred : adapter.infer numbers.zero input adapter.sampleRate = .ok estimates)
    (together : estimates.device = input.device)
    (shape : estimates.shape = [1, adapter.stems.length, 2, n])
    (index : adapter.stemIndex ["instrumental", "other", "accompaniment"] = .ok stem) :
    ∃ separated, self.blended numbers resample adapter waveform sampleRate = .ok separated ∧
      separated.shape = [2, n] ∧ ∀ channel frame x y,
        estimates.entry [0, stem, channel, frame] = some x →
        input.entry [0, channel, frame] = some y →
          separated.entry [channel, frame] = some (numbers.blend self.vocalReduction x y) := by
  obtain ⟨instrumental, original, blends, held, originalHeld, instrumentalShape, originalShape,
    stems, mix⟩ := blendedZip numbers self resample converted inputShape inferred shape index
  obtain ⟨separated, zip, _, sameShape, entries⟩ := zippedThere (numbers.blend self.vocalReduction)
    (by rw [held, originalHeld, together]) (instrumentalShape.trans originalShape.symm)
  refine ⟨separated, blends.trans (torchOk zip), sameShape.trans instrumentalShape, ?_⟩
  intro channel frame x y estimate known
  exact entries _ x y ((stems _).trans estimate) ((mix _).trans known)

theorem blendedApart {sampleRate stem n : Nat} {waveform input estimates : TorchTensor K}
    (converted : resampled resample waveform sampleRate adapter.sampleRate = .ok input)
    (inputShape : input.shape = [1, 2, n])
    (inferred : adapter.infer numbers.zero input adapter.sampleRate = .ok estimates)
    (apart : estimates.device ≠ input.device)
    (shape : estimates.shape = [1, adapter.stems.length, 2, n])
    (index : adapter.stemIndex ["instrumental", "other", "accompaniment"] = .ok stem) :
    self.blended numbers resample adapter waveform sampleRate = torch none := by
  obtain ⟨instrumental, original, blends, held, originalHeld, _⟩ :=
    blendedZip numbers self resample converted inputShape inferred shape index
  rw [blends, zipApart _ (by rwa [held, originalHeld])]

variable {samples : List α} {sampleRate frames : Nat}

/- The waveform itself stays on the CPU: `infer` moves a name of its own to the device of
the adapter, and returns the estimates there. -/
omit [Sub S] [Add K] [Mul K] in
theorem mdx23cInferred (separates : adapter.Separates)
    (resamples : Resamples resample sampleRate adapter.sampleRate) (stereo : samples.length = 2 * frames) :
    ∃ rows waveform input estimates n stem, channelRows numbers samples 2 = .ok rows ∧
      rows.unsqueeze 0 = some waveform ∧
      resampled resample waveform sampleRate adapter.sampleRate = .ok input ∧ input.device = .cpu ∧
      input.shape = [1, 2, n] ∧
      adapter.infer numbers.zero input adapter.sampleRate = .ok estimates ∧
      estimates.device = adapter.device ∧ estimates.shape = [1, adapter.stems.length, 2, n] ∧
      adapter.stemIndex ["instrumental", "other", "accompaniment"] = .ok stem := by
  obtain ⟨rows, waveform, went, batched, onCpu, shape, _⟩ := batchedRows numbers stereo
  obtain ⟨input, n, converted, stayed, inputShape⟩ :=
    @resampledShape K resample _ _ resamples waveform [1, 2] frames shape
  obtain ⟨answer, m, modelled, held, form⟩ :=
    separates.model (input.moveTo adapter.device) n rfl inputShape
  obtain ⟨estimates, normal, device, estimatesShape, _⟩ := normalised numbers.zero form inputShape
  obtain ⟨stem, index⟩ := separates.stem
  exact ⟨rows, waveform, input, estimates, n, stem, went, batched, converted, stayed.trans onCpu,
    inputShape, inferOk inputShape modelled normal, device.trans held, estimatesShape, index⟩

theorem mdx23cSeparated (separates : adapter.Separates)
    (resamples : Resamples resample sampleRate adapter.sampleRate)
    (stereo : samples.length = 2 * frames) (onCpu : adapter.device = .cpu) : ∃ separated k,
      self.separation numbers resample adapter samples sampleRate = .ok separated ∧
      separated.shape = [2, k] := by
  obtain ⟨rows, waveform, input, estimates, n, stem, went, batched, converted, inputHeld, inputShape,
    inferred, held, estimatesShape, index⟩ := mdx23cInferred numbers resample separates resamples stereo
  obtain ⟨separated, blended, separatedShape, _⟩ := blendedStem numbers self resample converted
    inputShape inferred (by rw [held, inputHeld, onCpu]) estimatesShape index
  refine ⟨separated, n, ?_, separatedShape⟩
  rw [MDX23C.separation, stepOk went, stepOk (torchOk batched)]
  exact blended

theorem mdx23cRaises (separates : adapter.Separates)
    (resamples : Resamples resample sampleRate adapter.sampleRate)
    (stereo : samples.length = 2 * frames) (real : self.inferenceFn = none)
    (loaded : self.adapter = some adapter) [LT K] [DecidableLT K] (elsewhere : adapter.device ≠ .cpu) :
    self.separation numbers resample adapter samples sampleRate = torch none ∧
      self.runInference numbers resample samples sampleRate 2 = torch none := by
  obtain ⟨rows, waveform, input, estimates, n, stem, went, batched, converted, inputHeld, inputShape,
    inferred, held, estimatesShape, index⟩ := mdx23cInferred numbers resample separates resamples stereo
  obtain ⟨others, again, went', batched', _, shape, _⟩ := batchedRows numbers stereo
  cases Except.ok.inj (went.symm.trans went')
  cases Option.some.inj (batched.symm.trans batched')
  have width : waveform.width = some frames :=
    (@widthSnoc K waveform.toTensor [1, 2] frames shape).1
  have raises := blendedApart numbers self resample converted inputShape inferred
    (by rwa [held, inputHeld]) estimatesShape index
  constructor
  · rw [MDX23C.separation, stepOk went, stepOk (torchOk batched)]
    exact raises
  · rw [MDX23C.runInference, real, loaded]
    simp only
    rw [stepOk went, stepOk (torchOk batched), stepOk (torchOk width), raises]
    rfl

end MDX23C

section Returned
variable {S K α : Type} [LT K] [DecidableLT K]

def Returns (numbers : Numbers S K α) (resample : Resampler K) (separation : Result (TorchTensor K))
    (modelRate sampleRate frames : Nat) (inferred : Result (List α)) : Prop :=
  ∃ separated result m output, separation = .ok separated ∧
    resampled resample separated modelRate sampleRate = .ok result ∧ inferred = .ok output ∧
    Finalized numbers result m frames output

variable {numbers : Numbers S K α} {resample : Resampler K} {samples : List α}
  {modelRate sampleRate frames k : Nat} {separated : TorchTensor K}

def finished (numbers : Numbers S K α) (resample : Resampler K) (modelRate sampleRate frames : Nat)
    (separation : Result (TorchTensor K)) : Result (List α) := do
  let separated ← separation
  let interleaved ← finalizeOutput numbers resample modelRate separated sampleRate frames
  pure (toArray numbers interleaved)

theorem finishedReturns (inert : numbers.clamp numbers.zero = numbers.zero)
    (resamples : Resamples resample modelRate sampleRate) {separation : Result (TorchTensor K)}
    (went : separation = .ok separated) (shape : separated.shape = [2, k]) :
    Returns numbers resample separation modelRate sampleRate frames
      (finished numbers resample modelRate sampleRate frames separation) := by
  obtain ⟨result, m, converted, _, resultShape⟩ :=
    @resampledShape K resample _ _ resamples separated [2] k shape
  obtain ⟨interleaved, finalize, finalized⟩ :=
    finalizeOutputs inert resample converted resultShape frames
  refine ⟨separated, result, m, _, went, converted, ?_, finalized⟩
  rw [finished, stepOk went, stepOk finalize]
  rfl

variable [Mul K]

theorem htdemucsReturns [Sub K] {self : HTDemucs S K α} {separator : Separator K}
    (inert : numbers.clamp numbers.zero = numbers.zero) (stereo : samples.length = 2 * frames)
    (real : self.inferenceFn = none) (loaded : self.separator = some separator)
    (resamples : Resamples resample separator.samplerate sampleRate)
    (separation : self.separation numbers separator samples sampleRate = .ok separated)
    (shape : separated.shape = [2, k]) :
    Returns numbers resample (self.separation numbers separator samples sampleRate)
      separator.samplerate sampleRate frames
      (self.runInference numbers resample samples sampleRate 2) := by
  have runs : self.runInference numbers resample samples sampleRate 2 =
      finished numbers resample separator.samplerate sampleRate (samples.length / 2)
        (self.separation numbers separator samples sampleRate) := by
    rw [HTDemucs.runInference, real, loaded, finished, HTDemucs.separation, bind_assoc]
    rfl
  rw [runs, stereo, Nat.mul_div_cancel_left _ Nat.two_pos]
  exact finishedReturns inert resamples separation shape

variable [Sub S] [Add K]

theorem convTasNetReturns {self : ConvTasNet S K α} {model : TorchTensor K → Result (TorchTensor K)}
    (inert : numbers.clamp numbers.zero = numbers.zero) (stereo : samples.length = 2 * frames)
    (real : self.inferenceFn = none) (loaded : self.model = some model)
    (resamples : Resamples resample self.modelSampleRate sampleRate)
    (separation : self.separation numbers resample model samples sampleRate = .ok separated)
    (shape : separated.shape = [2, k]) :
    Returns numbers resample (self.separation numbers resample model samples sampleRate)
      self.modelSampleRate sampleRate frames
      (self.runInference numbers resample samples sampleRate 2) := by
  have runs : self.runInference numbers resample samples sampleRate 2 =
      finished numbers resample self.modelSampleRate sampleRate (samples.length / 2)
        (self.separation numbers resample model samples sampleRate) := by
    rw [ConvTasNet.runInference, real, loaded, finished, ConvTasNet.separation, bind_assoc]
    rfl
  rw [runs, stereo, Nat.mul_div_cancel_left _ Nat.two_pos]
  exact finishedReturns inert resamples separation shape

theorem mdx23cReturns {self : MDX23C S K α} {adapter : Adapter K}
    (inert : numbers.clamp numbers.zero = numbers.zero) (stereo : samples.length = 2 * frames)
    (real : self.inferenceFn = none) (loaded : self.adapter = some adapter)
    (resamples : Resamples resample adapter.sampleRate sampleRate)
    (separation : self.separation numbers resample adapter samples sampleRate = .ok separated)
    (shape : separated.shape = [2, k]) :
    Returns numbers resample (self.separation numbers resample adapter samples sampleRate)
      adapter.sampleRate sampleRate frames
      (self.runInference numbers resample samples sampleRate 2) := by
  obtain ⟨rows, waveform, went, batched, _, waveformShape, _⟩ := batchedRows numbers stereo
  obtain ⟨result, m, converted, _, resultShape⟩ :=
    @resampledShape K resample _ _ resamples separated [2] k shape
  have blended := separation
  rw [MDX23C.separation, stepOk went, stepOk (torchOk batched)] at blended
  obtain ⟨long, grown, _, longShape, kept⟩ :=
    made result (@padded K result.toTensor [2] m resultShape (frames - m) numbers.zero)
  have enough : frames ≤ m + (frames - m) := by omega
  obtain ⟨cut, turned, narrow, transpose, finalized⟩ :=
    cutFinalized inert resultShape longShape enough
      (fun frame row channel side => kept [channel] frame (.cons side .nil) (row.trans_le enough))
  have width : waveform.width = some frames :=
    (@widthSnoc K waveform.toTensor [1, 2] frames waveformShape).1
  have resultWidth : result.width = some m := (@widthSnoc K result.toTensor [2] m resultShape).1
  refine ⟨separated, result, m, _, separation, converted, ?_, finalized⟩
  rw [MDX23C.runInference, real, loaded]
  simp only
  rw [stepOk went, stepOk (torchOk batched), stepOk (torchOk width), stepOk blended,
    stepOk converted, stepOk (torchOk resultWidth), stepOk (torchOk grown), stepOk (torchOk narrow),
    stepOk (torchOk transpose)]
  rfl

end Returned

end KaraokeAnything.ModelInference
