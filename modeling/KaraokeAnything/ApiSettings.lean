import KaraokeAnything.Library.Overlay
import KaraokeAnything.RuntimeSettings

/-! The payload and the answer of `/api/settings`, from app/main.py, and the table of
app/audio_trombone/service.py that names their fields in JSON and in the settings. The
titles and the descriptions of the web framework are left out. -/
namespace KaraokeAnything.Api
open Config Overlay Python RuntimeSettings

section Groups

def runtimeSettingGroups : List (String × List (String × Field)) := [
  ("demucs", [
    ("model", .demucsModel),
    ("device", .demucsDevice),
    ("segment_seconds", .demucsSegmentSeconds),
    ("overlap", .demucsOverlap),
    ("shifts", .demucsShifts),
    ("vocal_reduction", .demucsVocalReduction)]),
  ("convtasnet", [
    ("model_path", .convtasnetModelPath),
    ("device", .convtasnetDevice),
    ("segment_seconds", .convtasnetSegmentSeconds),
    ("vocal_reduction", .convtasnetVocalReduction),
    ("vocal_source_index", .convtasnetVocalSourceIndex),
    ("accompaniment_source_index", .convtasnetAccompanimentSourceIndex)]),
  ("mdx23c", [
    ("device", .mdx23cDevice),
    ("segment_seconds", .mdx23cSegmentSeconds),
    ("overlap", .mdx23cOverlap),
    ("batch_size", .mdx23cBatchSize),
    ("vocal_reduction", .mdx23cVocalReduction),
    ("precision", .mdx23cPrecision)]),
  ("centre_reduction", [
    ("reduction", .centreReduction)])]

example : Field.all =
    .processor :: runtimeSettingGroups.flatMap (fun group => group.2.map Prod.snd) := rfl

def groupFields (group : String) : List (String × Field) :=
  (runtimeSettingGroups.lookup group).getD []

def path : Field → Option String × String
  | .processor => (none, "processor")
  | .demucsModel => (some "demucs", "model")
  | .demucsDevice => (some "demucs", "device")
  | .demucsSegmentSeconds => (some "demucs", "segment_seconds")
  | .demucsOverlap => (some "demucs", "overlap")
  | .demucsShifts => (some "demucs", "shifts")
  | .demucsVocalReduction => (some "demucs", "vocal_reduction")
  | .convtasnetModelPath => (some "convtasnet", "model_path")
  | .convtasnetDevice => (some "convtasnet", "device")
  | .convtasnetSegmentSeconds => (some "convtasnet", "segment_seconds")
  | .convtasnetVocalReduction => (some "convtasnet", "vocal_reduction")
  | .convtasnetVocalSourceIndex => (some "convtasnet", "vocal_source_index")
  | .convtasnetAccompanimentSourceIndex => (some "convtasnet", "accompaniment_source_index")
  | .mdx23cDevice => (some "mdx23c", "device")
  | .mdx23cSegmentSeconds => (some "mdx23c", "segment_seconds")
  | .mdx23cOverlap => (some "mdx23c", "overlap")
  | .mdx23cBatchSize => (some "mdx23c", "batch_size")
  | .mdx23cVocalReduction => (some "mdx23c", "vocal_reduction")
  | .mdx23cPrecision => (some "mdx23c", "precision")
  | .centreReduction => (some "centre_reduction", "reduction")

end Groups

section Snapshots

abbrev Scalar := Sigma Kind.Value

structure Snapshot where
  processor : String
  groups : List (String × List (String × Scalar))

def groupSnapshot (settings : Settings) (fields : List (String × Field)) : List (String × Scalar) :=
  fields.map fun (fieldName, key) => (fieldName, ⟨key.kind, get settings key⟩)

def settingsSnapshot (settings : Settings) : Snapshot where
  processor := settings.processor
  groups := runtimeSettingGroups.map fun (groupName, fields) =>
    (groupName, groupSnapshot settings fields)

def Snapshot.shows (snapshot : Snapshot) (key : Field) : Option Scalar :=
  match path key with
  | (none, _) => some ⟨.text, snapshot.processor⟩
  | (some group, name) => (snapshot.groups.lookup group).bind (·.lookup name)

theorem snapshotShows (s : Settings) (key : Field) :
    (settingsSnapshot s).shows key = some ⟨key.kind, get s key⟩ := by
  cases key <;> rfl

end Snapshots

section Payloads

structure DemucsSettingsUpdate where
  model : Option String := none
  device : Option String := none
  segmentSeconds : Option Float := none
  overlap : Option Float := none
  shifts : Option Int := none
  vocalReduction : Option Float := none

structure ConvTasNetSettingsUpdate where
  modelPath : Option String := none
  device : Option String := none
  segmentSeconds : Option Float := none
  vocalReduction : Option Float := none
  vocalSourceIndex : Option Int := none
  accompanimentSourceIndex : Option Int := none

structure CentreReductionSettingsUpdate where
  reduction : Option Float := none

structure MDX23CSettingsUpdate where
  device : Option String := none
  segmentSeconds : Option Float := none
  overlap : Option Float := none
  batchSize : Option Int := none
  vocalReduction : Option Float := none
  precision : Option String := none

structure RuntimeSettingsUpdate where
  processor : Option String := none
  demucs : Option DemucsSettingsUpdate := none
  convtasnet : Option ConvTasNetSettingsUpdate := none
  mdx23c : Option MDX23CSettingsUpdate := none
  centreReduction : Option CentreReductionSettingsUpdate := none

/- `getattr(group_payload, request_name)`, at the type the class declares. The table of the
groups has no other names, so that the last case is never reached. -/
abbrev Attributes := String → (kind : Kind) → Option kind.Value

def DemucsSettingsUpdate.getattr (self : DemucsSettingsUpdate) : Attributes
  | "model", .text => self.model
  | "device", .text => self.device
  | "segment_seconds", .real => self.segmentSeconds
  | "overlap", .real => self.overlap
  | "shifts", .whole => self.shifts
  | "vocal_reduction", .real => self.vocalReduction
  | _, _ => none

def ConvTasNetSettingsUpdate.getattr (self : ConvTasNetSettingsUpdate) : Attributes
  | "model_path", .text => self.modelPath
  | "device", .text => self.device
  | "segment_seconds", .real => self.segmentSeconds
  | "vocal_reduction", .real => self.vocalReduction
  | "vocal_source_index", .whole => self.vocalSourceIndex
  | "accompaniment_source_index", .whole => self.accompanimentSourceIndex
  | _, _ => none

def CentreReductionSettingsUpdate.getattr (self : CentreReductionSettingsUpdate) : Attributes
  | "reduction", .real => self.reduction
  | _, _ => none

def MDX23CSettingsUpdate.getattr (self : MDX23CSettingsUpdate) : Attributes
  | "device", .text => self.device
  | "segment_seconds", .real => self.segmentSeconds
  | "overlap", .real => self.overlap
  | "batch_size", .whole => self.batchSize
  | "vocal_reduction", .real => self.vocalReduction
  | "precision", .text => self.precision
  | _, _ => none

def RuntimeSettingsUpdate.field (payload : RuntimeSettingsUpdate) : (key : Field) → Option key.Value
  | .processor => payload.processor
  | .demucsModel => payload.demucs.bind (·.model)
  | .demucsDevice => payload.demucs.bind (·.device)
  | .demucsSegmentSeconds => payload.demucs.bind (·.segmentSeconds)
  | .demucsOverlap => payload.demucs.bind (·.overlap)
  | .demucsShifts => payload.demucs.bind (·.shifts)
  | .demucsVocalReduction => payload.demucs.bind (·.vocalReduction)
  | .convtasnetModelPath => payload.convtasnet.bind (·.modelPath)
  | .convtasnetDevice => payload.convtasnet.bind (·.device)
  | .convtasnetSegmentSeconds => payload.convtasnet.bind (·.segmentSeconds)
  | .convtasnetVocalReduction => payload.convtasnet.bind (·.vocalReduction)
  | .convtasnetVocalSourceIndex => payload.convtasnet.bind (·.vocalSourceIndex)
  | .convtasnetAccompanimentSourceIndex => payload.convtasnet.bind (·.accompanimentSourceIndex)
  | .mdx23cDevice => payload.mdx23c.bind (·.device)
  | .mdx23cSegmentSeconds => payload.mdx23c.bind (·.segmentSeconds)
  | .mdx23cOverlap => payload.mdx23c.bind (·.overlap)
  | .mdx23cBatchSize => payload.mdx23c.bind (·.batchSize)
  | .mdx23cVocalReduction => payload.mdx23c.bind (·.vocalReduction)
  | .mdx23cPrecision => payload.mdx23c.bind (·.precision)
  | .centreReduction => payload.centreReduction.bind (·.reduction)

end Payloads

section Flattening

def equal : (kind : Kind) → kind.Value → kind.Value → Bool
  | .text, a, b => a == b
  | .real, a, b => a == b
  | .whole, a, b => a == b

def same (key : Field) (value current : key.Value) : Bool := equal key.kind value current

def store (updates : Updates) (key : Field) (value : key.Value) : Updates :=
  { updates with
    value other := if found : key = other then some (found ▸ value) else updates.value other }

/- The condition inside `_flatten_group`, which `_flatten_updates` writes out once more for
the processor. -/
def offer (updates : Updates) (key : Field) (value : Option key.Value) (current : Settings) : Updates :=
  match value with
  | none => updates
  | some value => if same key value (get current key) then updates else store updates key value

def flattenGroup (updates : Updates) (groupPayload : Option Attributes)
    (fieldMapping : List (String × Field)) (current : Settings) : Updates :=
  match groupPayload with
  | none => updates
  | some getattr => fieldMapping.foldl (fun updates (requestName, settingsName) =>
      offer updates settingsName (getattr requestName settingsName.kind) current) updates

def flattenUpdates (payload : RuntimeSettingsUpdate) (current : Settings) : Updates :=
  let updates := offer { value := fun _ => none } .processor payload.processor current
  let updates := flattenGroup updates (payload.demucs.map (·.getattr)) (groupFields "demucs") current
  let updates :=
    flattenGroup updates (payload.convtasnet.map (·.getattr)) (groupFields "convtasnet") current
  let updates := flattenGroup updates (payload.mdx23c.map (·.getattr)) (groupFields "mdx23c") current
  flattenGroup updates (payload.centreReduction.map (·.getattr)) (groupFields "centre_reduction") current

variable {updates : Updates} {current : Settings}

theorem offerOther {key other : Field} (value : Option key.Value) (apart : key ≠ other) :
    (offer updates key value current).value other = updates.value other := by
  unfold offer
  split
  · rfl
  · split
    · rfl
    · exact dif_neg apart

theorem offerNew {key : Field} (value : Option key.Value) (fresh : updates.value key = none) :
    (offer updates key value current).value key =
      value.filter (fun value => !same key value (get current key)) := by
  unfold offer
  split
  · exact fresh
  · rename_i value
    cases known : same key value (get current key) with
    | true => simpa [Option.filter, known] using fresh
    | false => simp [Option.filter, known, store]

abbrev Offer := (key : Field) × Option key.Value

def offerAll (updates : Updates) (offers : List Offer) (current : Settings) : Updates :=
  offers.foldl (fun updates offered => offer updates offered.1 offered.2 current) updates

def groupOffers (groupPayload : Option Attributes) (mapping : List (String × Field)) : List Offer :=
  mapping.map fun (requestName, settingsName) =>
    ⟨settingsName, groupPayload.bind (fun getattr => getattr requestName settingsName.kind)⟩

theorem groupOffered (updates : Updates) (groupPayload : Option Attributes)
    (mapping : List (String × Field)) (current : Settings) :
    flattenGroup updates groupPayload mapping current =
      offerAll updates (groupOffers groupPayload mapping) current := by
  induction mapping generalizing updates with
  | nil => cases groupPayload <;> rfl
  | cons entry rest ih =>
    cases groupPayload with
    | none => exact ih updates
    | some getattr => exact ih _

theorem flattenOffered (payload : RuntimeSettingsUpdate) (current : Settings) :
    flattenUpdates payload current = offerAll { value := fun _ => none }
      (Field.all.map (fun key => ⟨key, payload.field key⟩)) current := by
  obtain ⟨processor, demucs, convtasnet, mdx23c, centre⟩ := payload
  have fields : Field.all.map (fun key => (⟨key,
      RuntimeSettingsUpdate.field ⟨processor, demucs, convtasnet, mdx23c, centre⟩ key⟩ : Offer)) =
        ⟨.processor, processor⟩ ::
        (groupOffers (demucs.map (·.getattr)) (groupFields "demucs") ++
        groupOffers (convtasnet.map (·.getattr)) (groupFields "convtasnet") ++
        groupOffers (mdx23c.map (·.getattr)) (groupFields "mdx23c") ++
        groupOffers (centre.map (·.getattr)) (groupFields "centre_reduction")) := by
    cases demucs <;> cases convtasnet <;> cases mdx23c <;> cases centre <;> rfl
  rw [fields, offerAll, List.foldl_cons, List.foldl_append, List.foldl_append, List.foldl_append]
  simp only [flattenUpdates, groupOffered]
  rfl

theorem offerAllOther {key : Field} {offers : List Offer} (apart : key ∉ offers.map Sigma.fst) :
    (offerAll updates offers current).value key = updates.value key := by
  induction offers generalizing updates with
  | nil => rfl
  | cons offered rest ih =>
    rw [List.map_cons, List.mem_cons, not_or] at apart
    exact (ih apart.2).trans (offerOther _ (Ne.symm apart.1))

theorem offerAllNew {key : Field} {value : Option key.Value} {offers : List Offer}
    (nodup : (offers.map Sigma.fst).Nodup) (inside : ⟨key, value⟩ ∈ offers)
    (fresh : updates.value key = none) : (offerAll updates offers current).value key =
      value.filter (fun value => !same key value (get current key)) := by
  induction offers generalizing updates with
  | nil => contradiction
  | cons offered rest ih =>
    obtain ⟨alone, nodup⟩ := List.nodup_cons.mp nodup
    rcases List.mem_cons.mp inside with rfl | later
    · exact (offerAllOther alone).trans (offerNew value fresh)
    · have apart : offered.1 ≠ key := by
        rintro rfl
        exact alone (List.mem_map.mpr ⟨_, later, rfl⟩)
      exact ih nodup later ((offerOther _ apart).trans fresh)

theorem flattenValue (payload : RuntimeSettingsUpdate) (current : Settings) (key : Field) :
    (flattenUpdates payload current).value key = news same payload.field (get current) key := by
  have keys : (Field.all.map (fun key => (⟨key, payload.field key⟩ : Offer))).map Sigma.fst = Field.all := rfl
  rw [flattenOffered]
  exact offerAllNew (by rw [keys]; decide) (List.mem_map.mpr ⟨key, Field.memAll key, rfl⟩) rfl

theorem offerKnown (updates : Updates) (key : Field) (value : Option key.Value) (current : Settings) :
    (offer updates key value current).unknown = updates.unknown := by
  unfold offer
  split
  · rfl
  · split <;> rfl

theorem offerAllKnown (updates : Updates) (offers : List Offer) (current : Settings) :
    (offerAll updates offers current).unknown = updates.unknown := by
  induction offers generalizing updates with
  | nil => rfl
  | cons offered rest ih => exact (ih _).trans (offerKnown updates _ _ _)

theorem flattenKnown (payload : RuntimeSettingsUpdate) (current : Settings) :
    (flattenUpdates payload current).unknown = [] := by
  rw [flattenOffered]
  exact offerAllKnown ..

end Flattening

section Schema

inductive Bound where
  | gt (limit : Float)
  | ge (limit : Float)
  | lt (limit : Float)
  | le (limit : Float)

/- How the framework that checks a request judges a float against a bound. It is not part of
the program, and nothing is assumed of it here. -/
abbrev Verdict := Bound → Float → Bool

def admits (verdict : Verdict) (bounds : List Bound) (value : Float) : Bool :=
  bounds.all (fun bound => verdict bound value)

/- A member of a JSON object, for a field of this type. An absent one is null, and one that
breaks a bound refuses the request as a whole. -/
def member (json : List (String × Scalar)) (name : String) (kind : Kind)
    (admitted : kind.Value → Bool) : Option (Option kind.Value) :=
  match json.lookup name with
  | none => some none
  | some ⟨found, value⟩ =>
    if declared : found = kind then
      if admitted (declared ▸ value) then some (some (declared ▸ value)) else none
    else none

def DemucsSettingsUpdate.read (verdict : Verdict) (json : List (String × Scalar)) :
    Option DemucsSettingsUpdate := do
  let model ← member json "model" .text (fun _ => true)
  let device ← member json "device" .text (fun _ => true)
  let segmentSeconds ← member json "segment_seconds" .real (admits verdict [.gt 0])
  let overlap ← member json "overlap" .real (admits verdict [.ge 0, .lt 1])
  let shifts ← member json "shifts" .whole (fun value => 0 ≤ value)
  let vocalReduction ← member json "vocal_reduction" .real (admits verdict [.ge 0, .le 1])
  some { model, device, segmentSeconds, overlap, shifts, vocalReduction }

def ConvTasNetSettingsUpdate.read (verdict : Verdict) (json : List (String × Scalar)) :
    Option ConvTasNetSettingsUpdate := do
  let modelPath ← member json "model_path" .text (fun _ => true)
  let device ← member json "device" .text (fun _ => true)
  let segmentSeconds ← member json "segment_seconds" .real (admits verdict [.gt 0])
  let vocalReduction ← member json "vocal_reduction" .real (admits verdict [.ge 0, .le 1])
  let vocalSourceIndex ← member json "vocal_source_index" .whole (fun value => 0 ≤ value)
  let accompanimentSourceIndex ←
    member json "accompaniment_source_index" .whole (fun value => 0 ≤ value)
  some { modelPath, device, segmentSeconds, vocalReduction, vocalSourceIndex, accompanimentSourceIndex }

def CentreReductionSettingsUpdate.read (verdict : Verdict) (json : List (String × Scalar)) :
    Option CentreReductionSettingsUpdate := do
  let reduction ← member json "reduction" .real (admits verdict [.ge 0, .le 1])
  some { reduction }

def MDX23CSettingsUpdate.read (verdict : Verdict) (json : List (String × Scalar)) :
    Option MDX23CSettingsUpdate := do
  let device ← member json "device" .text (fun _ => true)
  let segmentSeconds ← member json "segment_seconds" .real (fun _ => true)
  let overlap ← member json "overlap" .real (admits verdict [.ge 0, .lt 0.5])
  let batchSize ← member json "batch_size" .whole (fun value => 1 ≤ value)
  let vocalReduction ← member json "vocal_reduction" .real (admits verdict [.ge 0, .le 1])
  let precision ← member json "precision" .text (fun _ => true)
  some { device, segmentSeconds, overlap, batchSize, vocalReduction, precision }

def RuntimeSettingsUpdate.read (verdict : Verdict) (snapshot : Snapshot) :
    Option RuntimeSettingsUpdate := do
  let demucs ← (snapshot.groups.lookup "demucs").mapM (DemucsSettingsUpdate.read verdict)
  let convtasnet ← (snapshot.groups.lookup "convtasnet").mapM (ConvTasNetSettingsUpdate.read verdict)
  let mdx23c ← (snapshot.groups.lookup "mdx23c").mapM (MDX23CSettingsUpdate.read verdict)
  let centreReduction ←
    (snapshot.groups.lookup "centre_reduction").mapM (CentreReductionSettingsUpdate.read verdict)
  some { processor := some snapshot.processor, demucs, convtasnet, mdx23c, centreReduction }

theorem memberRead {json : List (String × Scalar)} {name : String} {kind : Kind} {value : kind.Value}
    {admitted : kind.Value → Bool} {read : Option kind.Value}
    (reads : member json name kind admitted = some read) (found : json.lookup name = some ⟨kind, value⟩) :
    read = some value := by
  rw [member, found] at reads
  simp only [dite_true] at reads
  split at reads
  · exact (Option.some.inj reads).symm
  · contradiction

theorem groupRead {α β : Type} {read : α → Option β} {group : Option α} {payload : Option β} {json : α}
    (reads : group.mapM read = some payload) (found : group = some json) :
    ∃ update, read json = some update ∧ payload = some update := by
  rw [found] at reads
  obtain ⟨update, reads, same⟩ := Option.map_eq_some_iff.mp reads
  exact ⟨update, reads, same.symm⟩

section Readings
variable {verdict : Verdict} {s : Settings}

theorem demucsRead {self : DemucsSettingsUpdate} (reads : DemucsSettingsUpdate.read verdict
    (groupSnapshot s (groupFields "demucs")) = some self) : self = ⟨s.demucsModel, s.demucsDevice,
      s.demucsSegmentSeconds, s.demucsOverlap, s.demucsShifts, s.demucsVocalReduction⟩ := by
  simp only [DemucsSettingsUpdate.read, bind, Option.bind_eq_some_iff] at reads
  obtain ⟨_, model, _, device, _, segmentSeconds, _, overlap, _, shifts, _, vocalReduction, whole⟩ := reads
  cases whole
  cases memberRead model rfl
  cases memberRead device rfl
  cases memberRead segmentSeconds rfl
  cases memberRead overlap rfl
  cases memberRead shifts rfl
  cases memberRead vocalReduction rfl
  rfl

theorem convtasnetRead {self : ConvTasNetSettingsUpdate} (reads : ConvTasNetSettingsUpdate.read verdict
    (groupSnapshot s (groupFields "convtasnet")) = some self) :
    self = ⟨s.convtasnetModelPath, s.convtasnetDevice, s.convtasnetSegmentSeconds,
      s.convtasnetVocalReduction, s.convtasnetVocalSourceIndex, s.convtasnetAccompanimentSourceIndex⟩ := by
  simp only [ConvTasNetSettingsUpdate.read, bind, Option.bind_eq_some_iff] at reads
  obtain ⟨_, modelPath, _, device, _, segmentSeconds, _, vocalReduction, _, vocal, _, accompaniment,
    whole⟩ := reads
  cases whole
  cases memberRead modelPath rfl
  cases memberRead device rfl
  cases memberRead segmentSeconds rfl
  cases memberRead vocalReduction rfl
  cases memberRead vocal rfl
  cases memberRead accompaniment rfl
  rfl

theorem mdx23cRead {self : MDX23CSettingsUpdate} (reads : MDX23CSettingsUpdate.read verdict
    (groupSnapshot s (groupFields "mdx23c")) = some self) : self = ⟨s.mdx23cDevice,
      s.mdx23cSegmentSeconds, s.mdx23cOverlap, s.mdx23cBatchSize, s.mdx23cVocalReduction,
      s.mdx23cPrecision⟩ := by
  simp only [MDX23CSettingsUpdate.read, bind, Option.bind_eq_some_iff] at reads
  obtain ⟨_, device, _, segmentSeconds, _, overlap, _, batchSize, _, vocalReduction, _, precision,
    whole⟩ := reads
  cases whole
  cases memberRead device rfl
  cases memberRead segmentSeconds rfl
  cases memberRead overlap rfl
  cases memberRead batchSize rfl
  cases memberRead vocalReduction rfl
  cases memberRead precision rfl
  rfl

theorem centreRead {self : CentreReductionSettingsUpdate} (reads : CentreReductionSettingsUpdate.read
    verdict (groupSnapshot s (groupFields "centre_reduction")) = some self) :
    self = ⟨s.centreReduction⟩ := by
  simp only [CentreReductionSettingsUpdate.read, bind, Option.bind_eq_some_iff] at reads
  obtain ⟨_, reduction, whole⟩ := reads
  cases whole
  cases memberRead reduction rfl
  rfl

theorem settingsRead {payload : RuntimeSettingsUpdate}
    (reads : RuntimeSettingsUpdate.read verdict (settingsSnapshot s) = some payload) (key : Field) :
    payload.field key = some (get s key) := by
  simp only [RuntimeSettingsUpdate.read, bind, Option.bind_eq_some_iff] at reads
  obtain ⟨_, demucs, _, convtasnet, _, mdx23c, _, centre, whole⟩ := reads
  cases whole
  obtain ⟨_, readsDemucs, rfl⟩ := groupRead demucs rfl
  obtain ⟨_, readsConvtasnet, rfl⟩ := groupRead convtasnet rfl
  obtain ⟨_, readsMdx23c, rfl⟩ := groupRead mdx23c rfl
  obtain ⟨_, readsCentre, rfl⟩ := groupRead centre rfl
  cases demucsRead readsDemucs
  cases convtasnetRead readsConvtasnet
  cases mdx23cRead readsMdx23c
  cases centreRead readsCentre
  cases key <;> rfl

end Readings

end Schema

end KaraokeAnything.Api
