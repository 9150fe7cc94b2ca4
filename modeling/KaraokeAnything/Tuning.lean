import KaraokeAnything.ProcessorFacts
import KaraokeAnything.RuntimeSettings

/-! The parameters that settings prescribe for a processor: which fields its factory
reads, and that a value applied live is the one a rebuilt processor would get. -/
namespace KaraokeAnything.RuntimeSettings
open Config Processors Python

def factoryFields (name : String) : List Field :=
  match name with
  | "stereo-centre-reduction" => [.centreReduction]
  | "htdemucs-vocals" => [.demucsModel, .demucsDevice, .demucsSegmentSeconds, .demucsOverlap,
    .demucsShifts, .demucsVocalReduction]
  | "convtasnet-lyrics-causal" => [.convtasnetModelPath, .convtasnetDevice,
    .convtasnetSegmentSeconds, .convtasnetVocalReduction, .convtasnetVocalSourceIndex,
    .convtasnetAccompanimentSourceIndex]
  | "mdx23c-vocals" => [.mdx23cDevice, .mdx23cSegmentSeconds, .mdx23cOverlap, .mdx23cBatchSize,
    .mdx23cVocalReduction, .mdx23cPrecision]
  | _ => []

def paths (s : Settings) : String × String := (s.mdx23cConfigPath, s.mdx23cCheckpointPath)

section Factories
variable {s t : Settings}

theorem replacePaths (s : Settings) (value : (key : Field) → Option key.Value) :
    paths (replace s value) = paths s := rfl

theorem createChoice (s : Settings) (choice name : String) :
    create { s with processor := choice } name = create s name := rfl

theorem createAgrees {name : String} (fields : ∀ key ∈ factoryFields name, get s key = get t key)
    (same : paths s = paths t) : create s name = create t name := by
  obtain ⟨config, checkpoint⟩ := Prod.mk.inj same
  unfold create
  unfold factoryFields at fields
  split <;> simp_all [get]

end Factories

section Checks

theorem demucsChecked {config checked : HTDemucsConfig} (ok : config.checked = .ok checked)
    {reduction : Float} (bounds : 0 ≤ reduction ∧ reduction ≤ 1) :
    checked = config ∧ HTDemucsConfig.checked { config with vocalReduction := reduction } =
      .ok { config with vocalReduction := reduction } := by
  unfold HTDemucsConfig.checked at ok ⊢
  split at ok
  · contradiction
  · rename_i segment
    split at ok
    · contradiction
    · rename_i overlap
      split at ok
      · contradiction
      · cases ok
        exact ⟨rfl, by rw [if_neg segment, if_neg overlap, if_neg (not_not_intro bounds)]⟩

theorem tasnetChecked {config checked : ConvTasNetLyricsConfig} (ok : config.checked = .ok checked)
    {reduction : Float} (bounds : 0 ≤ reduction ∧ reduction ≤ 1) :
    checked = config ∧ ConvTasNetLyricsConfig.checked { config with vocalReduction := reduction } =
      .ok { config with vocalReduction := reduction } := by
  unfold ConvTasNetLyricsConfig.checked at ok ⊢
  split at ok
  · contradiction
  · rename_i segment
    split at ok
    · contradiction
    · split at ok
      · contradiction
      · rename_i sources
        cases ok
        exact ⟨rfl, by rw [if_neg segment, if_neg (not_not_intro bounds), if_neg sources]⟩

theorem mdxChecked {config checked : MDX23CVocalsConfig} (ok : config.checked = .ok checked)
    {reduction : Float} (bounds : 0 ≤ reduction ∧ reduction ≤ 1) :
    checked = config ∧ MDX23CVocalsConfig.checked { config with vocalReduction := reduction } =
      .ok { config with vocalReduction := reduction } := by
  obtain ⟨_, passed, same⟩ := okBind.mp ok
  have passed := raiseFirstFailureOk.mp passed
  refine ⟨(Except.ok.inj same).symm, okBind.mpr ⟨(), raiseFirstFailureOk.mpr ?_, rfl⟩⟩
  simp only [List.mem_cons, List.not_mem_nil, or_false, forall_eq_or_imp, forall_eq] at passed ⊢
  obtain ⟨segment, overlap, batch, _, precision⟩ := passed
  exact ⟨segment, overlap, batch, by simpa using bounds, precision⟩

theorem validChecks {s : Settings} (valid : validateRuntimeSettings s = .ok ()) :
    validateDemucsSettings s = .ok () ∧ validateConvtasnetSettings s = .ok () ∧
      validateMdx23cSettings s = .ok () ∧ (0 ≤ s.centreReduction ∧ s.centreReduction ≤ 1) := by
  simp only [validateRuntimeSettings] at valid
  split at valid
  · contradiction
  obtain ⟨_, demucs, valid⟩ := okBind.mp valid
  obtain ⟨_, tasnet, valid⟩ := okBind.mp valid
  obtain ⟨_, mdx, valid⟩ := okBind.mp valid
  split at valid
  · contradiction
  · rename_i centre
    exact ⟨demucs, tasnet, mdx, not_not.mp centre⟩

theorem validReductions {s : Settings} (valid : validateRuntimeSettings s = .ok ()) :
    (0 ≤ s.demucsVocalReduction ∧ s.demucsVocalReduction ≤ 1) ∧
    (0 ≤ s.convtasnetVocalReduction ∧ s.convtasnetVocalReduction ≤ 1) ∧
    (0 ≤ s.mdx23cVocalReduction ∧ s.mdx23cVocalReduction ≤ 1) ∧
    (0 ≤ s.centreReduction ∧ s.centreReduction ≤ 1) := by
  obtain ⟨demucs, tasnet, mdx, centre⟩ := validChecks valid
  have demucs := raiseFirstFailureOk.mp demucs
  have tasnet := raiseFirstFailureOk.mp tasnet
  have mdx := raiseFirstFailureOk.mp mdx
  simp only [List.mem_cons, List.not_mem_nil, or_false, forall_eq_or_imp, forall_eq,
    decide_eq_true_eq] at demucs tasnet mdx
  exact ⟨demucs.2.2.2.2, tasnet.2.2.1, mdx.2.2.2.1, centre⟩

end Checks

section Live
variable {s t : Settings} {p : Processor}

theorem othersKept {updates : Updates} {key : Field} (keys : updates.keys = [key]) (s : Settings)
    (other : Field) (apart : other ≠ key) : get (replace s updates.value) other = get s other :=
  otherKeys (by simpa [keys] using apart) s

def retune : Processor.Parameters → Processor.Attribute → Float → Processor.Parameters
  | .centre _, .centreReduction, value => .centre value
  | .demucs config, .vocalReduction, value => .demucs { config with vocalReduction := value }
  | .tasnet config, .vocalReduction, value => .tasnet { config with vocalReduction := value }
  | .mdx config, .vocalReduction, value => .mdx { config with vocalReduction := value }
  | other, _, _ => other

theorem setAttributeParameters (p : Processor) (attr : Processor.Attribute) (value : Float) :
    (p.setAttribute attr value).parameters = retune p.parameters attr value := by
  cases p <;> cases attr <;> rfl

theorem demucsRetuned (others : ∀ key, key ≠ .demucsVocalReduction → get t key = get s key)
    (bounds : 0 ≤ t.demucsVocalReduction ∧ t.demucsVocalReduction ≤ 1)
    (created : create s "htdemucs-vocals" = .ok p) : ∃ fresh, create t "htdemucs-vocals" = .ok fresh ∧
      fresh.parameters = retune p.parameters .vocalReduction t.demucsVocalReduction := by
  obtain ⟨config, checked, rfl⟩ := okMap.mp created
  obtain ⟨rfl, rechecked⟩ := demucsChecked checked bounds
  have model : t.demucsModel = s.demucsModel := others .demucsModel (by decide)
  have device : t.demucsDevice = s.demucsDevice := others .demucsDevice (by decide)
  have seconds : t.demucsSegmentSeconds = s.demucsSegmentSeconds :=
    others .demucsSegmentSeconds (by decide)
  have overlap : t.demucsOverlap = s.demucsOverlap := others .demucsOverlap (by decide)
  have shifts : t.demucsShifts = s.demucsShifts := others .demucsShifts (by decide)
  refine ⟨_, okMap.mpr ⟨_, Eq.trans ?_ rechecked, rfl⟩, rfl⟩
  rw [model, device, seconds, overlap, shifts]

theorem tasnetRetuned (others : ∀ key, key ≠ .convtasnetVocalReduction → get t key = get s key)
    (bounds : 0 ≤ t.convtasnetVocalReduction ∧ t.convtasnetVocalReduction ≤ 1)
    (created : create s "convtasnet-lyrics-causal" = .ok p) :
    ∃ fresh, create t "convtasnet-lyrics-causal" = .ok fresh ∧
      fresh.parameters = retune p.parameters .vocalReduction t.convtasnetVocalReduction := by
  obtain ⟨config, checked, rfl⟩ := okMap.mp created
  obtain ⟨rfl, rechecked⟩ := tasnetChecked checked bounds
  have model : t.convtasnetModelPath = s.convtasnetModelPath :=
    others .convtasnetModelPath (by decide)
  have device : t.convtasnetDevice = s.convtasnetDevice := others .convtasnetDevice (by decide)
  have seconds : t.convtasnetSegmentSeconds = s.convtasnetSegmentSeconds :=
    others .convtasnetSegmentSeconds (by decide)
  have vocal : t.convtasnetVocalSourceIndex = s.convtasnetVocalSourceIndex :=
    others .convtasnetVocalSourceIndex (by decide)
  have accompaniment : t.convtasnetAccompanimentSourceIndex = s.convtasnetAccompanimentSourceIndex :=
    others .convtasnetAccompanimentSourceIndex (by decide)
  refine ⟨_, okMap.mpr ⟨_, Eq.trans ?_ rechecked, rfl⟩, rfl⟩
  rw [model, device, seconds, vocal, accompaniment]

theorem mdxRetuned (others : ∀ key, key ≠ .mdx23cVocalReduction → get t key = get s key)
    (same : paths t = paths s)
    (bounds : 0 ≤ t.mdx23cVocalReduction ∧ t.mdx23cVocalReduction ≤ 1)
    (created : create s "mdx23c-vocals" = .ok p) : ∃ fresh, create t "mdx23c-vocals" = .ok fresh ∧
      fresh.parameters = retune p.parameters .vocalReduction t.mdx23cVocalReduction := by
  obtain ⟨config, checked, rfl⟩ := okMap.mp created
  obtain ⟨rfl, rechecked⟩ := mdxChecked checked bounds
  obtain ⟨configPath, checkpoint⟩ := Prod.mk.inj same
  have device : t.mdx23cDevice = s.mdx23cDevice := others .mdx23cDevice (by decide)
  have seconds : t.mdx23cSegmentSeconds = s.mdx23cSegmentSeconds :=
    others .mdx23cSegmentSeconds (by decide)
  have overlap : t.mdx23cOverlap = s.mdx23cOverlap := others .mdx23cOverlap (by decide)
  have batch : t.mdx23cBatchSize = s.mdx23cBatchSize := others .mdx23cBatchSize (by decide)
  have precision : t.mdx23cPrecision = s.mdx23cPrecision := others .mdx23cPrecision (by decide)
  refine ⟨_, okMap.mpr ⟨_, Eq.trans ?_ rechecked, rfl⟩, rfl⟩
  rw [configPath, checkpoint, device, seconds, overlap, batch, precision]

theorem centreRetuned (bounds : 0 ≤ t.centreReduction ∧ t.centreReduction ≤ 1)
    (created : create s "stereo-centre-reduction" = .ok p) :
    ∃ fresh, create t "stereo-centre-reduction" = .ok fresh ∧
      fresh.parameters = retune p.parameters .centreReduction t.centreReduction := by
  refine ⟨.centreReduction t.centreReduction, if_neg (not_not_intro bounds), ?_⟩
  simp only [create, newCentreReduction] at created
  split at created
  · contradiction
  · cases created
    rfl

theorem livePrescribed {updates : Updates} {q : Processor} {rule : LiveApplyRule}
    (created : create s s.processor = .ok p) (tuned : q.parameters = p.parameters)
    (applies : LiveApplies updates q rule) (named : s.processor = q.name)
    (valid : validateRuntimeSettings (replace s updates.value) = .ok ()) :
    ∃ fresh, create (replace s updates.value) (replace s updates.value).processor = .ok fresh ∧
      (q.setAttribute rule.attr (rule.value (replace s updates.value))).parameters =
        fresh.parameters := by
  obtain ⟨demucs, tasnet, mdx, centre⟩ := validReductions valid
  have others := othersKept applies.keys s
  have known := applies.known
  rw [liveKeepsProcessor applies s, setAttributeParameters, tuned]
  rw [named, applies.name] at created ⊢
  simp only [liveApplyRules, List.mem_cons, List.not_mem_nil, or_false] at known
  rcases known with rfl | rfl | rfl | rfl
  · obtain ⟨fresh, built, same⟩ := demucsRetuned others demucs created
    exact ⟨fresh, built, same.symm⟩
  · obtain ⟨fresh, built, same⟩ := mdxRetuned others (replacePaths s _) mdx created
    exact ⟨fresh, built, same.symm⟩
  · obtain ⟨fresh, built, same⟩ := tasnetRetuned others tasnet created
    exact ⟨fresh, built, same.symm⟩
  · obtain ⟨fresh, built, same⟩ := centreRetuned centre created
    exact ⟨fresh, built, same.symm⟩

end Live

end KaraokeAnything.RuntimeSettings
