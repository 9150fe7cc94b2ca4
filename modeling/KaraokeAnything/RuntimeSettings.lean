import KaraokeAnything.Processors

/-! The runtime settings of app/audio_trombone/service.py: which fields a request may
set, what it may set them to, and which of them reach the running processor. -/
namespace KaraokeAnything.RuntimeSettings
open Config Processors Python

inductive Field where
  | processor
  | demucsModel
  | demucsDevice
  | demucsSegmentSeconds
  | demucsOverlap
  | demucsShifts
  | demucsVocalReduction
  | convtasnetModelPath
  | convtasnetDevice
  | convtasnetSegmentSeconds
  | convtasnetVocalReduction
  | convtasnetVocalSourceIndex
  | convtasnetAccompanimentSourceIndex
  | mdx23cDevice
  | mdx23cSegmentSeconds
  | mdx23cOverlap
  | mdx23cBatchSize
  | mdx23cVocalReduction
  | mdx23cPrecision
  | centreReduction
  deriving DecidableEq, Repr

def Field.all : List Field := [.processor, .demucsModel, .demucsDevice, .demucsSegmentSeconds,
  .demucsOverlap, .demucsShifts, .demucsVocalReduction, .convtasnetModelPath, .convtasnetDevice,
  .convtasnetSegmentSeconds, .convtasnetVocalReduction, .convtasnetVocalSourceIndex,
  .convtasnetAccompanimentSourceIndex, .mdx23cDevice, .mdx23cSegmentSeconds, .mdx23cOverlap,
  .mdx23cBatchSize, .mdx23cVocalReduction, .mdx23cPrecision, .centreReduction]

theorem Field.memAll (key : Field) : key ∈ Field.all := by cases key <;> decide

inductive Kind where
  | text
  | real
  | whole
  deriving DecidableEq, Repr

abbrev Kind.Value : Kind → Type
  | text => String
  | real => Float
  | whole => Int

def Field.kind : Field → Kind
  | processor | demucsModel | demucsDevice | convtasnetModelPath | convtasnetDevice
  | mdx23cDevice | mdx23cPrecision => .text
  | demucsShifts | convtasnetVocalSourceIndex | convtasnetAccompanimentSourceIndex
  | mdx23cBatchSize => .whole
  | demucsSegmentSeconds | demucsOverlap | demucsVocalReduction | convtasnetSegmentSeconds
  | convtasnetVocalReduction | mdx23cSegmentSeconds | mdx23cOverlap | mdx23cVocalReduction
  | centreReduction => .real

abbrev Field.Value (key : Field) : Type := key.kind.Value

def get (s : Settings) : (key : Field) → key.Value
  | .processor => s.processor
  | .demucsModel => s.demucsModel
  | .demucsDevice => s.demucsDevice
  | .demucsSegmentSeconds => s.demucsSegmentSeconds
  | .demucsOverlap => s.demucsOverlap
  | .demucsShifts => s.demucsShifts
  | .demucsVocalReduction => s.demucsVocalReduction
  | .convtasnetModelPath => s.convtasnetModelPath
  | .convtasnetDevice => s.convtasnetDevice
  | .convtasnetSegmentSeconds => s.convtasnetSegmentSeconds
  | .convtasnetVocalReduction => s.convtasnetVocalReduction
  | .convtasnetVocalSourceIndex => s.convtasnetVocalSourceIndex
  | .convtasnetAccompanimentSourceIndex => s.convtasnetAccompanimentSourceIndex
  | .mdx23cDevice => s.mdx23cDevice
  | .mdx23cSegmentSeconds => s.mdx23cSegmentSeconds
  | .mdx23cOverlap => s.mdx23cOverlap
  | .mdx23cBatchSize => s.mdx23cBatchSize
  | .mdx23cVocalReduction => s.mdx23cVocalReduction
  | .mdx23cPrecision => s.mdx23cPrecision
  | .centreReduction => s.centreReduction

/- The `updates` dictionary: the keys outside `_ALL_SETTING_FIELDS`, and the values
of those inside, each of its field's type. -/
structure Updates where
  unknown : List String := []
  value : (key : Field) → Option key.Value

def Updates.keys (updates : Updates) : List Field :=
  Field.all.filter (fun key => (updates.value key).isSome)

def Updates.single (key : Field) (value : key.Value) : Updates where
  value other := if same : key = other then some (same ▸ value) else none

def replace (s : Settings) (value : (key : Field) → Option key.Value) : Settings :=
  { s with
    processor := (value .processor).getD s.processor
    demucsModel := (value .demucsModel).getD s.demucsModel
    demucsDevice := (value .demucsDevice).getD s.demucsDevice
    demucsSegmentSeconds := (value .demucsSegmentSeconds).getD s.demucsSegmentSeconds
    demucsOverlap := (value .demucsOverlap).getD s.demucsOverlap
    demucsShifts := (value .demucsShifts).getD s.demucsShifts
    demucsVocalReduction := (value .demucsVocalReduction).getD s.demucsVocalReduction
    convtasnetModelPath := (value .convtasnetModelPath).getD s.convtasnetModelPath
    convtasnetDevice := (value .convtasnetDevice).getD s.convtasnetDevice
    convtasnetSegmentSeconds := (value .convtasnetSegmentSeconds).getD s.convtasnetSegmentSeconds
    convtasnetVocalReduction := (value .convtasnetVocalReduction).getD s.convtasnetVocalReduction
    convtasnetVocalSourceIndex :=
      (value .convtasnetVocalSourceIndex).getD s.convtasnetVocalSourceIndex
    convtasnetAccompanimentSourceIndex :=
      (value .convtasnetAccompanimentSourceIndex).getD s.convtasnetAccompanimentSourceIndex
    mdx23cDevice := (value .mdx23cDevice).getD s.mdx23cDevice
    mdx23cSegmentSeconds := (value .mdx23cSegmentSeconds).getD s.mdx23cSegmentSeconds
    mdx23cOverlap := (value .mdx23cOverlap).getD s.mdx23cOverlap
    mdx23cBatchSize := (value .mdx23cBatchSize).getD s.mdx23cBatchSize
    mdx23cVocalReduction := (value .mdx23cVocalReduction).getD s.mdx23cVocalReduction
    mdx23cPrecision := (value .mdx23cPrecision).getD s.mdx23cPrecision
    centreReduction := (value .centreReduction).getD s.centreReduction }

theorem getReplace (s : Settings) (value : (key : Field) → Option key.Value) (key : Field) :
    get (replace s value) key = (value key).getD (get s key) := by
  cases key <;> rfl

section Validation

def validateDemucsSettings (s : Settings) : Except PyError Unit :=
  raiseFirstFailure [
    (hasText s.demucsModel, "demucs model must not be empty"),
    (0 < s.demucsSegmentSeconds, "Demucs segment_seconds must be greater than zero"),
    (0 ≤ s.demucsOverlap ∧ s.demucsOverlap < 1,
      "Demucs overlap must be between 0.0 and less than 1.0"),
    (0 ≤ s.demucsShifts, "Demucs shifts must be zero or greater"),
    (0 ≤ s.demucsVocalReduction ∧ s.demucsVocalReduction ≤ 1,
      "Demucs vocal_reduction must be between 0.0 and 1.0")]

def validateConvtasnetSettings (s : Settings) : Except PyError Unit :=
  raiseFirstFailure [
    (hasText s.convtasnetModelPath, "ConvTasNet model_path must not be empty"),
    (0 < s.convtasnetSegmentSeconds, "ConvTasNet segment_seconds must be greater than zero"),
    (0 ≤ s.convtasnetVocalReduction ∧ s.convtasnetVocalReduction ≤ 1,
      "ConvTasNet vocal_reduction must be between 0.0 and 1.0"),
    (0 ≤ s.convtasnetVocalSourceIndex, "ConvTasNet vocal_source_index must be zero or greater"),
    (0 ≤ s.convtasnetAccompanimentSourceIndex,
      "ConvTasNet accompaniment_source_index must be zero or greater"),
    (s.convtasnetVocalSourceIndex != s.convtasnetAccompanimentSourceIndex,
      "ConvTasNet vocal and accompaniment source indexes must differ")]

def validateMdx23cSettings (s : Settings) : Except PyError Unit :=
  raiseFirstFailure [
    (Mdx23cVocals.supportedSegments.any (· == s.mdx23cSegmentSeconds),
      "MDX23C segment_seconds must be one of 0.25, 0.5, 0.75, 1.0, 1.5, 2.0"),
    (0 ≤ s.mdx23cOverlap ∧ s.mdx23cOverlap < 0.5,
      "MDX23C overlap must be between 0.0 and less than 0.5"),
    (s.mdx23cBatchSize == 1, "MDX23C batch_size must be 1"),
    (0 ≤ s.mdx23cVocalReduction ∧ s.mdx23cVocalReduction ≤ 1,
      "MDX23C vocal_reduction must be between 0.0 and 1.0"),
    (["float32", "float16", "bfloat16"].contains s.mdx23cPrecision,
      "MDX23C precision must be float32, float16, or bfloat16")]

def validateRuntimeSettings (s : Settings) : Except PyError Unit := do
  if s.processor.isEmpty then throw (.valueError "processor must not be empty")
  validateDemucsSettings s
  validateConvtasnetSettings s
  validateMdx23cSettings s
  if ¬ (0 ≤ s.centreReduction ∧ s.centreReduction ≤ 1) then
    throw (.valueError "centre_reduction must be between 0.0 and 1.0")

end Validation

section LiveApply

/- The text of its log line is left out. All live settings are floats. -/
structure LiveApplyRule where
  settingKey : Field
  processorName : String
  attr : Processor.Attribute
  appliesFrom : String
  value : Settings → Float

def liveApplyRules : List LiveApplyRule := [
  ⟨.demucsVocalReduction, "htdemucs-vocals", .vocalReduction, "next segment",
    (·.demucsVocalReduction)⟩,
  ⟨.mdx23cVocalReduction, "mdx23c-vocals", .vocalReduction, "next segment",
    (·.mdx23cVocalReduction)⟩,
  ⟨.convtasnetVocalReduction, "convtasnet-lyrics-causal", .vocalReduction, "next segment",
    (·.convtasnetVocalReduction)⟩,
  ⟨.centreReduction, "stereo-centre-reduction", .centreReduction, "next packet",
    (·.centreReduction)⟩]

def LiveApplyRule.matches (rule : LiveApplyRule) (key : Field) (processor : Processor) : Bool :=
  key == rule.settingKey && processor.name == rule.processorName &&
    processor.hasAttribute rule.attr

def findLiveApplyRule (updates : Updates) (processor : Processor) : Option LiveApplyRule :=
  match updates.unknown, updates.keys with
  | [], [key] => liveApplyRules.find? (·.matches key processor)
  | _, _ => none

structure LiveApplies (updates : Updates) (processor : Processor) (rule : LiveApplyRule) :
    Prop where
  known : rule ∈ liveApplyRules
  unknown : updates.unknown = []
  keys : updates.keys = [rule.settingKey]
  name : processor.name = rule.processorName
  attr : processor.hasAttribute rule.attr = true

theorem liveApplies {updates : Updates} {processor : Processor} {rule : LiveApplyRule}
    (found : findLiveApplyRule updates processor = some rule) :
    LiveApplies updates processor rule := by
  unfold findLiveApplyRule at found
  split at found
  · rename_i key unknown keys
    have matching := List.find?_some found
    simp only [LiveApplyRule.matches, Bool.and_eq_true, beq_iff_eq] at matching
    obtain ⟨⟨same, name⟩, attr⟩ := matching
    exact ⟨List.mem_of_find?_eq_some found, unknown, by rw [keys, same], name, attr⟩
  · contradiction

theorem otherKeys {updates : Updates} {key : Field} (absent : key ∉ updates.keys) (s : Settings) :
    get (replace s updates.value) key = get s key := by
  have missing : updates.value key = none := by
    rw [Updates.keys, List.mem_filter] at absent
    have unset : ¬ (updates.value key).isSome = true := fun set => absent ⟨Field.memAll key, set⟩
    simpa using unset
  rw [getReplace, missing, Option.getD_none]

theorem liveKeepsProcessor {updates : Updates} {processor : Processor} {rule : LiveApplyRule}
    (applies : LiveApplies updates processor rule) (s : Settings) :
    (replace s updates.value).processor = s.processor := by
  have other : ∀ rule ∈ liveApplyRules, rule.settingKey ≠ .processor := by decide
  have absent : Field.processor ∉ updates.keys := by
    rw [applies.keys, List.mem_singleton]
    exact (other rule applies.known).symm
  exact otherKeys absent s

end LiveApply

def unknownFailure (unknown : List String) : Except PyError Unit :=
  if unknown.isEmpty then .ok ()
  else
    let sorted := String.intercalate ", " (unknown.mergeSort (fun a b => decide (a ≤ b)))
    .error (.valueError s!"Unknown runtime settings: {sorted}")

def startupUpdates (startup : Settings) : Updates where
  value key := some (get startup key)

def SameElsewhere (s t : Settings) : Prop := replace s (startupUpdates t).value = t

theorem elsewhereItself (s : Settings) : SameElsewhere s s := rfl

theorem elsewhereReplace (s : Settings) (value : (key : Field) → Option key.Value) :
    SameElsewhere s (replace s value) := rfl

end KaraokeAnything.RuntimeSettings
