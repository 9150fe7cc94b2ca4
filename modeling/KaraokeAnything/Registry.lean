import KaraokeAnything.Service
import KaraokeAnything.Tuning

/-! What app/audio_trombone/processors/registry.py builds from settings that the service
validated. The checks of the service and those of the constructors are written out
apart from each other. -/
namespace KaraokeAnything.Registry
open Binary64 (ltNotLe)
open Config Processors Python RuntimeSettings Service

structure ProcessorCapabilities where
  passthrough : Bool
  stateful : Bool
  canBuffer : Bool
  changesPayload : Bool
  deriving DecidableEq, Repr

def description : Processor → String
  | .passthrough => "Returns each incoming UDP payload byte-for-byte."
  | .delayPassthrough _ => "Returns payloads unchanged after a configurable delay."
  | .null => "Consumes packets and emits no media."
  | .centreReduction _ => "Reduces stereo-centred content using instantaneous mid/side processing with no lookahead or buffering."
  | .htdemucs _ => "Buffered HTDemucs vocal reduction. Adds a fixed multi-second delay and requires the Demucs GPU image for practical real-time operation."
  | .convTasNet _ => "Experimental causal Conv-TasNet lyric reduction using the Cadenza pretrained stereo model. Requires the GPU image."
  | .mdx23c _ => "Finite-window, non-causal MDX23C instrumental/vocal reduction with bounded buffering and paced KANY output."

def capabilities : Processor → ProcessorCapabilities
  | .passthrough => ⟨true, false, false, false⟩
  | .delayPassthrough _ => ⟨true, false, false, false⟩
  | .null => ⟨false, false, true, true⟩
  | .centreReduction _ => ⟨false, false, false, true⟩
  | .htdemucs _ => ⟨false, true, true, true⟩
  | .convTasNet _ => ⟨false, true, true, true⟩
  | .mdx23c _ => ⟨false, true, true, true⟩

structure Entry where
  name : String
  description : String
  capabilities : ProcessorCapabilities
  deriving DecidableEq, Repr

def describeAll (settings : Settings) : List String → Except PyError (List Entry)
  | [] => .ok []
  | name :: names => do
    let processor ← create settings name
    let processors ← describeAll settings names
    pure (⟨processor.name, description processor, capabilities processor⟩ :: processors)

def describe (settings : Settings) : Except PyError (List Entry) := describeAll settings available

section Factories
variable {s : Settings}

def Builds (s : Settings) (name : String) : Prop :=
  ∃ processor, create s name = .ok processor ∧ processor.name = name

theorem demucsAccepts {config : HTDemucsConfig} (segment : 0 < config.segmentSeconds)
    (overlap : 0 ≤ config.overlap ∧ config.overlap < 1)
    (reduction : 0 ≤ config.vocalReduction ∧ config.vocalReduction ≤ 1) :
    config.checked = .ok config := by
  rw [HTDemucsConfig.checked, if_neg (ltNotLe segment), if_neg (not_not_intro overlap),
    if_neg (not_not_intro reduction)]

theorem tasnetAccepts {config : ConvTasNetLyricsConfig} (segment : 0 < config.segmentSeconds)
    (reduction : 0 ≤ config.vocalReduction ∧ config.vocalReduction ≤ 1)
    (vocal : 0 ≤ config.vocalSourceIndex) (accompaniment : 0 ≤ config.accompanimentSourceIndex) :
    config.checked = .ok config := by
  have sources : ¬ (config.vocalSourceIndex < 0 ∨ config.accompanimentSourceIndex < 0) := by omega
  rw [ConvTasNetLyricsConfig.checked, if_neg (ltNotLe segment), if_neg (not_not_intro reduction),
    if_neg sources]

theorem mdxAccepts {config : MDX23CVocalsConfig}
    (segment : Mdx23cVocals.supportedSegments.any (· == config.segmentSeconds) = true)
    (overlap : decide (0 ≤ config.overlap ∧ config.overlap < 0.5) = true)
    (batch : (config.batchSize == 1) = true)
    (reduction : decide (0 ≤ config.vocalReduction ∧ config.vocalReduction ≤ 1) = true)
    (precision : precisions.contains config.precision = true) : config.checked = .ok config := by
  refine okBind.mpr ⟨(), raiseFirstFailureOk.mpr ?_, rfl⟩
  simp only [List.mem_cons, List.not_mem_nil, or_false, forall_eq_or_imp, forall_eq]
  exact ⟨segment, overlap, batch, reduction, precision⟩

theorem demucsBuilds (valid : validateDemucsSettings s = .ok ()) : Builds s "htdemucs-vocals" := by
  have checks := raiseFirstFailureOk.mp valid
  simp only [List.mem_cons, List.not_mem_nil, or_false, forall_eq_or_imp, forall_eq,
    decide_eq_true_eq] at checks
  obtain ⟨_, segment, overlap, _, reduction⟩ := checks
  exact ⟨_, okMap.mpr ⟨_, demucsAccepts segment overlap reduction, rfl⟩, rfl⟩

theorem tasnetBuilds (valid : validateConvtasnetSettings s = .ok ()) :
    Builds s "convtasnet-lyrics-causal" := by
  have checks := raiseFirstFailureOk.mp valid
  simp only [List.mem_cons, List.not_mem_nil, or_false, forall_eq_or_imp, forall_eq,
    decide_eq_true_eq] at checks
  obtain ⟨_, segment, reduction, vocal, accompaniment, _⟩ := checks
  exact ⟨_, okMap.mpr ⟨_, tasnetAccepts segment reduction vocal accompaniment, rfl⟩, rfl⟩

/- The segments are of one list; the precisions are written out in service.py once more. -/
theorem mdxBuilds (valid : validateMdx23cSettings s = .ok ()) : Builds s "mdx23c-vocals" := by
  have checks := raiseFirstFailureOk.mp valid
  simp only [List.mem_cons, List.not_mem_nil, or_false, forall_eq_or_imp, forall_eq] at checks
  obtain ⟨segment, overlap, batch, reduction, precision⟩ := checks
  exact ⟨_, okMap.mpr ⟨_, mdxAccepts segment overlap batch reduction precision, rfl⟩, rfl⟩

theorem centreBuilds (bounds : 0 ≤ s.centreReduction ∧ s.centreReduction ≤ 1) :
    Builds s "stereo-centre-reduction" := ⟨_, if_neg (not_not_intro bounds), rfl⟩

theorem validBuilds (valid : validateRuntimeSettings s = .ok ()) {name : String}
    (registered : name ∈ available) : Builds s name := by
  obtain ⟨demucs, tasnet, mdx, centre⟩ := validChecks valid
  simp only [available, List.mem_cons, List.not_mem_nil, or_false] at registered
  rcases registered with rfl | rfl | rfl | rfl | rfl | rfl | rfl
  · exact tasnetBuilds tasnet
  · exact ⟨_, rfl, rfl⟩
  · exact demucsBuilds demucs
  · exact mdxBuilds mdx
  · exact ⟨_, rfl, rfl⟩
  · exact ⟨_, rfl, rfl⟩
  · exact centreBuilds centre

theorem unregisteredRaises {name : String} (unregistered : name ∉ available) :
    ∃ raised, create s name = .error raised := by
  simp only [available, List.mem_cons, List.not_mem_nil, or_false, not_or] at unregistered
  unfold create
  split <;> first | exact ⟨_, rfl⟩ | simp at unregistered

end Factories

section Described
variable {s : Settings} {names : List String}

theorem describedAll (builds : ∀ name ∈ names, Builds s name) :
    ∃ entries, describeAll s names = .ok entries ∧ entries.map (·.name) = names := by
  induction names with
  | nil => exact ⟨[], rfl, rfl⟩
  | cons name names ih =>
    obtain ⟨processor, built, named⟩ := builds name List.mem_cons_self
    obtain ⟨entries, described, same⟩ := ih (fun other inside =>
      builds other (List.mem_cons_of_mem name inside))
    refine ⟨_, okBind.mpr ⟨processor, built, okBind.mpr ⟨entries, described, rfl⟩⟩, ?_⟩
    rw [List.map_cons, same, named]

end Described

section Updating
variable {w : World} {updates : Updates}

/- An update that is applied live, or has its replacement and goes into the `start()` of it. -/
def ReachesStart (w : World) (updates : Updates) : Prop :=
  let candidate := Swap.candidate w.settings updates
  (∃ rule, findLiveApplyRule updates (w.heap w.processor) = some rule ∧
      updateRuntimeSettings w updates = applyLive w rule candidate) ∨
    ∃ replacement, create candidate candidate.processor = .ok replacement ∧
      updateRuntimeSettings w updates = launched w (.update w.settings updates) replacement

theorem updateReachesStart (known : updates.unknown = [])
    (valid : validateRuntimeSettings (Swap.candidate w.settings updates) = .ok ())
    (builds : Builds (Swap.candidate w.settings updates)
      (Swap.candidate w.settings updates).processor) : ReachesStart w updates := by
  obtain ⟨replacement, created, _⟩ := builds
  have none : unknownFailure updates.unknown = .ok () := by rw [known]; rfl
  unfold ReachesStart updateRuntimeSettings
  simp only [none, valid, created]
  cases live : findLiveApplyRule updates (w.heap w.processor) with
  | some rule => exact .inl ⟨rule, rfl, rfl⟩
  | none => exact .inr ⟨replacement, rfl, rfl⟩

end Updating

theorem validationSuffices :
    (∀ s : Settings, validateRuntimeSettings s = .ok () →
      (∀ name ∈ available, Builds s name) ∧
      (∃ entries, describe s = .ok entries ∧ entries.map (·.name) = available) ∧
      ∀ name, (∃ raised, create s name = .error raised) ↔ name ∉ available) ∧
    ∀ (w : World) (updates : Updates), updates.unknown = [] →
      validateRuntimeSettings (Swap.candidate w.settings updates) = .ok () →
      (Swap.candidate w.settings updates).processor ∈ available → ReachesStart w updates := by
  refine ⟨fun s valid => ⟨fun name => validBuilds valid, ?_, fun name => ?_⟩, ?_⟩
  · exact describedAll (fun name => validBuilds valid)
  · refine ⟨fun ⟨raised, failed⟩ registered => ?_, unregisteredRaises⟩
    obtain ⟨_, built, _⟩ := validBuilds valid registered
    rw [failed] at built
    contradiction
  · intro w updates known valid registered
    exact updateReachesStart known valid (validBuilds valid registered)

theorem validationSufficesDefaults :
    (∃ entries, describe {} = .ok entries ∧ entries.map (·.name) = available) ∧
    ReachesStart (fresh {} .passthrough) (Updates.single .processor "mdx23c-vocals") := by
  obtain ⟨builds, updates⟩ := validationSuffices
  exact ⟨(builds {} (by rfl)).2.1, updates (fresh {} .passthrough) _ rfl (by rfl) (by decide)⟩

end KaraokeAnything.Registry
