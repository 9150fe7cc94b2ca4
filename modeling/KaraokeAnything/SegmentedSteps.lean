import KaraokeAnything.KanyExact
import KaraokeAnything.SegmentedInference

/-! What each method of the segment machinery does to the object, one equation for
each way it can go. Later modules use these equations and never the methods. -/
namespace KaraokeAnything.SegmentedInference
open ByteOrder Kany Models Python Stateful

def StereoOnly (model : SegmentModel) : Prop :=
  ∀ host payload packet, model.decodeAndValidate host payload = .ok packet ↔
    decode host payload = .ok packet ∧ packet.channels = 2

theorem registeredStereo {model : SegmentModel} (registered : model = htdemucs ∨ model = convTasNet) :
    StereoOnly model := by
  intro host payload packet
  rcases registered with rfl | rfl
  · simp only [htdemucs, decodeStereoOk]
  · simp only [convTasNet, decodeStereoOk]

def itemBytes (items : List UInt32) : Bytes := items.flatMap (fun item => le 4 item.toNat)

theorem encodedItem (host : HostOrder) (item : UInt32) :
    nativeBytes host (if host ≠ .little then byteswap item else item) = le 4 item.toNat := by
  cases host with
  | little => rfl
  | big =>
    have bound : readBE (le 4 item.toNat) < 2 ^ 32 := by
      simpa using readBeBound (le 4 item.toNat)
    have again := beDecoded (le 4 item.toNat)
    rw [leLength] at again
    simpa [nativeBytes, byteswap, UInt32.toNat_ofNat_of_lt' bound] using again

theorem encodeSamplesOk {host : HostOrder} {packet : KanyPacket} {samples : List UInt32}
    (count : samples.length = packet.channels * packet.frames) :
    encodeSamples host packet samples = .ok (packet.rawHeader ++ itemBytes samples) := by
  have items := encodedItem host
  simp only [encodeSamples, count, ne_eq, not_true_eq_false, if_false, itemBytes]
  cases host with
  | little =>
    have same : nativeBytes .little = fun item => le 4 item.toNat := rfl
    simp [same]
  | big =>
    simp only [ne_eq, reduceCtorEq, not_false_eq_true, if_true] at items
    simp [List.flatMap_map, items]

theorem samplesRead (host : HostOrder) (header : Bytes) (items : List UInt32)
    (size : header.length = headerSize) : readSamples host (header ++ itemBytes items) = items := by
  have blocks : chunksExact 4 (itemBytes items) = items.map (fun item => le 4 item.toNat) := by
    rw [itemBytes, List.flatMap_def, chunksExactFlatten (by omega)]
    intro block member
    obtain ⟨item, _, rfl⟩ := List.mem_map.mp member
    exact leLength 4 item.toNat
  have body : (header ++ itemBytes items).drop 28 = itemBytes items :=
    List.drop_left' size
  rw [readSamplesPattern, WireFormat.samples, body, blocks, List.map_map, List.map_map]
  refine (List.map_congr_left (fun item _ => ?_)).trans (List.map_id items)
  have bound : item.toNat < 256 ^ 4 := item.toNat_lt
  simp [readLeEncoded 4 item.toNat bound]

def slices (separated : List UInt32) : List KanyPacket → Nat → List ProcessedPacket
  | [], _ => []
  | original :: rest, offset =>
    let count := original.frames * original.channels
    { payload := original.rawHeader ++ itemBytes ((separated.drop offset).take count) } ::
      slices separated rest (offset + count)

theorem distributeExact (host : HostOrder) (separated : List UInt32) (packets : List KanyPacket)
    (offset : Nat) (s : State) (enough : offset + sampleTotal packets ≤ separated.length) :
    exec (distributePackets host separated packets offset) s =
      (.ok (), { s with readyOutput := s.readyOutput ++ slices separated packets offset }) := by
  induction packets generalizing offset s with
  | nil => simp [distributePackets, slices]
  | cons original rest ih =>
    simp only [sampleTotal, List.map_cons, List.sum_cons] at enough
    have count : ((separated.drop offset).take (original.frames * original.channels)).length =
        original.channels * original.frames := by
      rw [List.length_take, List.length_drop, Nat.mul_comm original.channels]
      omega
    have tail : offset + original.frames * original.channels + sampleTotal rest ≤
        separated.length := by simp only [sampleTotal]; omega
    rw [distributePackets, encodeSamplesOk count]
    simp only [Except.mapError, execBind, execOfExcept, execModify, ih _ _ tail, slices,
      List.append_assoc, List.singleton_append]

theorem inferenceEnded {outcome : InferenceOutcome} {s t : State}
    (ends : inferenceEnds outcome s = some t) : ∃ segment, s.inferenceTask = some ⟨segment, none⟩ ∧
      t = { s with inferenceTask := some ⟨segment, some outcome⟩ } := by
  unfold inferenceEnds at ends
  split at ends
  · rename_i segment running
    exact ⟨segment, running, (Option.some.inj ends).symm⟩
  · contradiction

theorem harvestIdle (host : HostOrder) (model : SegmentModel) {s : State}
    (idle : s.inferenceTask.bind (·.outcome) = none) :
    exec (harvestInference host model) s = (.ok (), s) := by
  simp only [harvestInference, execBind, execGet, idle, execPure]

theorem harvestReady (host : HostOrder) (model : SegmentModel) {s : State} {separated : List UInt32}
    (done : s.inferenceTask.bind (·.outcome) = some (.returned separated))
    (size : separated.length = sampleTotal s.activePackets) :
    exec (harvestInference host model) s = (.ok (), { s with
      inferenceTask := none
      activePackets := []
      readyOutput := s.readyOutput ++ slices separated s.activePackets 0
      segmentsCompleted := s.segmentsCompleted + 1
      lastError := none }) := by
  have enough : 0 + sampleTotal s.activePackets ≤ separated.length := by omega
  simp only [harvestInference, execBind, execGet, done, execModify, awaitSegmentResult, execPure,
    distributeSegmentOutput, size, ne_eq, not_true_eq_false, if_false,
    distributeExact host separated s.activePackets 0 _ enough, finishSegment]

def Failed (s : State) (outcome : InferenceOutcome) : Prop :=
  ∀ separated, outcome = .returned separated → separated.length ≠ sampleTotal s.activePackets

def failureError (model : SegmentModel) (s : State) : InferenceOutcome → PyError
  | .cancelled => .cancelledError
  | .raised text => .runtimeError s!"{model.label} inference failed: {text}"
  | .returned separated => .runtimeError
      s!"{model.label} returned {separated.length} samples; expected {sampleTotal s.activePackets}"

def afterFailure (s : State) (outcome : InferenceOutcome) : State :=
  { s with
    inferenceTask := none
    activePackets := []
    lastError := match outcome with
      | .raised text => some text
      | _ => s.lastError }

theorem harvestFailed (host : HostOrder) (model : SegmentModel) {s : State}
    {outcome : InferenceOutcome} (done : s.inferenceTask.bind (·.outcome) = some outcome)
    (failed : Failed s outcome) :
    exec (harvestInference host model) s =
      (.error (failureError model s outcome), afterFailure s outcome) := by
  cases outcome with
  | cancelled =>
    simp only [harvestInference, execBind, execGet, done, execModify, awaitSegmentResult, execThrow,
      failureError, afterFailure]
  | raised text =>
    simp only [harvestInference, execBind, execGet, done, execModify, awaitSegmentResult, execThrow,
      failureError, afterFailure]
  | returned separated =>
    have size := failed separated rfl
    simp only [harvestInference, execBind, execGet, done, execModify, awaitSegmentResult, execPure,
      distributeSegmentOutput, if_pos size, execThrow, failureError, afterFailure]

def harvested (s : State) (separated : List UInt32) : State :=
  { s with
    inferenceTask := none
    activePackets := []
    readyOutput := s.readyOutput ++ slices separated s.activePackets 0
    segmentsCompleted := s.segmentsCompleted + 1
    lastError := none }

inductive Harvests (model : SegmentModel) (s : State) : Except PyError Unit × State → Prop where
  | idle (running : s.inferenceTask.bind (·.outcome) = none) : Harvests model s (.ok (), s)
  | cut (separated : List UInt32)
    (done : s.inferenceTask.bind (·.outcome) = some (.returned separated))
    (size : separated.length = sampleTotal s.activePackets) :
    Harvests model s (.ok (), harvested s separated)
  | lost (outcome : InferenceOutcome) (done : s.inferenceTask.bind (·.outcome) = some outcome)
    (failed : Failed s outcome) :
    Harvests model s (.error (failureError model s outcome), afterFailure s outcome)

theorem harvestCases (host : HostOrder) (model : SegmentModel) (s : State) :
    Harvests model s (exec (harvestInference host model) s) := by
  cases done : s.inferenceTask.bind (·.outcome) with
  | none =>
    rw [harvestIdle host model done]
    exact .idle done
  | some outcome =>
    by_cases failed : Failed s outcome
    · rw [harvestFailed host model done failed]
      exact .lost outcome done failed
    · simp only [Failed, not_forall, ne_eq, not_not] at failed
      obtain ⟨separated, rfl, size⟩ := failed
      rw [harvestReady host model done size]
      exact .cut separated done size

def FormatFits (s : State) (packet : KanyPacket) : Prop :=
  ∀ rate, s.streamSampleRate = some rate →
    packet.sampleRate = rate ∧ some packet.channels = s.streamChannels

def withFormat (s : State) (packet : KanyPacket) : State :=
  { s with streamSampleRate := some packet.sampleRate, streamChannels := some packet.channels }

def queued (s : State) (packet : KanyPacket) : State :=
  { withFormat s packet with
    inputPackets := s.inputPackets ++ [packet]
    inputFrames := s.inputFrames + packet.frames }

theorem acceptFits {s : State} {packet : KanyPacket} (fits : FormatFits s packet) :
    exec (acceptStreamFormat packet) s = (.ok (), withFormat s packet) := by
  cases known : s.streamSampleRate with
  | none => simp only [acceptStreamFormat, execBind, execGet, known, execModify, withFormat]
  | some rate =>
    obtain ⟨sameRate, sameChannels⟩ := fits rate known
    have same : withFormat s packet = s := by
      simp only [withFormat, sameRate, ← known, sameChannels]
    simp only [acceptStreamFormat, execBind, execGet, known, sameRate, sameChannels, ne_eq,
      not_true_eq_false, or_self, if_false, execPure, same]

theorem acceptRejects {s : State} {packet : KanyPacket} (differs : ¬ FormatFits s packet) :
    ∃ e, exec (acceptStreamFormat packet) s = (.error e, s) := by
  cases known : s.streamSampleRate with
  | none => exact absurd (fun rate h => by rw [known] at h; contradiction) differs
  | some rate =>
    have changed : packet.sampleRate ≠ rate ∨ some packet.channels ≠ s.streamChannels := by
      by_contra same
      simp only [not_or, ne_eq, not_not] at same
      refine differs (fun other h => ?_)
      rw [known] at h
      cases Option.some.inj h
      exact same
    simp only [acceptStreamFormat, execBind, execGet, known, if_pos changed, execThrow]
    exact ⟨_, rfl⟩

def target (s : State) : Except PyError Int :=
  match s.streamSampleRate with
  | none => .error (.runtimeError "stream format is not known")
  | some rate => (round (Float.ofNat rate * s.segmentSeconds)).map (max 1)

theorem targetExact (s : State) : exec targetSegmentFrames s = (target s, s) := by
  simp only [targetSegmentFrames, execBind, execGet, target]
  cases s.streamSampleRate with
  | none => rfl
  | some rate =>
    simp only [execBind, execOfExcept]
    cases round (Float.ofNat rate * s.segmentSeconds) <;> rfl

def launched (s : State) (frames : Int) : State :=
  let cut := takeSegment (·.frames) frames s.inputPackets 0
  { s with
    inputPackets := cut.2.2
    inputFrames := s.inputFrames - cut.2.1
    activePackets := cut.1
    segmentsStarted := s.segmentsStarted + 1
    inferenceTask := some ⟨⟨cut.1, cut.2.1, cut.1.flatMap (·.samples)⟩, none⟩ }

theorem launchBusy {s : State} {task : InferenceTask} (busy : s.inferenceTask = some task) :
    exec launchWhenReady s = (.ok (), s) := by
  simp [launchWhenReady, execBind, busy]

theorem launchUnknown {s : State} {e : PyError} (free : s.inferenceTask = none)
    (unknown : target s = .error e) : exec launchWhenReady s = (.error e, s) := by
  simp [launchWhenReady, segmentReady, execBind, free, targetExact, unknown]

theorem launchShort {s : State} {frames : Int} (free : s.inferenceTask = none)
    (known : target s = .ok frames) (short : ¬ frames ≤ s.inputFrames) :
    exec launchWhenReady s = (.ok (), s) := by
  simp [launchWhenReady, segmentReady, execBind, free, targetExact, known, short]

theorem launchReady {s : State} {frames : Int} (free : s.inferenceTask = none)
    (known : target s = .ok frames) (ready : frames ≤ s.inputFrames) :
    exec launchWhenReady s = (.ok (), launched s frames) := by
  simp [launchWhenReady, segmentReady, launchSegment, execBind, free, targetExact, known, ready,
    launched]

def popped (s : State) : State := { s with readyOutput := s.readyOutput.drop 1 }

theorem popExact (s : State) : exec popReady s = (.ok (s.readyOutput.take 1), popped s) := by
  cases ready : s.readyOutput with
  | nil =>
    have same : popped s = s := by cases s; simp_all [popped]
    simp only [popReady, execBind, execGet, ready, execPure, same, List.take_nil]
  | cons first rest =>
    simp only [popReady, execBind, execGet, ready, execModify, execPure, popped]
    rfl

section Process
variable {host : HostOrder} {model : SegmentModel} {s t : State} {payload : Bytes}
  {packet : KanyPacket}

theorem processHarvestRaises {e : PyError}
    (harvest : exec (harvestInference host model) s = (.error e, t)) :
    exec (process host model payload) s = (.error e, t) := execBindError harvest

theorem processInvalid {e : PyError} (harvest : exec (harvestInference host model) s = (.ok (), t))
    (invalid : model.decodeAndValidate host payload = .error e) :
    exec (process host model payload) s = (.error e, t) := by
  rw [process, execBindOk harvest, invalid]
  exact execBindError (execOfExcept _ t)

theorem processFormatChanged (harvest : exec (harvestInference host model) s = (.ok (), t))
    (decoded : model.decodeAndValidate host payload = .ok packet) (differs : ¬ FormatFits t packet) :
    ∃ e, exec (process host model payload) s = (.error e, t) := by
  obtain ⟨e, rejected⟩ := acceptRejects differs
  refine ⟨e, ?_⟩
  rw [process, execBindOk harvest, decoded, execBindOk (execOfExcept _ t)]
  exact execBindError rejected

/- The packet is in the buffer before the target is computed, which can raise. -/
theorem processTargetRaises {e : PyError}
    (harvest : exec (harvestInference host model) s = (.ok (), t))
    (decoded : model.decodeAndValidate host payload = .ok packet) (fits : FormatFits t packet)
    (free : t.inferenceTask = none) (raises : target (queued t packet) = .error e) :
    exec (process host model payload) s = (.error e, queued t packet) := by
  rw [process, execBindOk harvest, decoded, execBindOk (execOfExcept _ t),
    execBindOk (acceptFits fits), execBindOk (execModify _ _)]
  exact execBindError (launchUnknown (by exact free) raises)

theorem processAdmits {u : State} (harvest : exec (harvestInference host model) s = (.ok (), t))
    (decoded : model.decodeAndValidate host payload = .ok packet) (fits : FormatFits t packet)
    (launch : exec launchWhenReady (queued t packet) = (.ok (), u)) :
    exec (process host model payload) s = (.ok (u.readyOutput.take 1), popped u) := by
  rw [process, execBindOk harvest, decoded, execBindOk (execOfExcept _ t),
    execBindOk (acceptFits fits), execBindOk (execModify _ _)]
  exact (execBindOk launch).trans (popExact u)

theorem flushRaises {e : PyError}
    (harvest : exec (harvestInference host model) s = (.error e, t)) :
    exec (flush host model) s = (.error e, t) := execBindError harvest

theorem flushDrains (harvest : exec (harvestInference host model) s = (.ok (), t)) :
    exec (flush host model) s = (.ok t.readyOutput, { t with readyOutput := [] }) :=
  execBindOk harvest

inductive Called (host : HostOrder) (model : SegmentModel) (s : State) (payload : Bytes) :
    Except PyError (List ProcessedPacket) × State → Prop where
  | harvestRaised (e : PyError) (t : State)
    (raised : exec (harvestInference host model) s = (.error e, t)) :
    Called host model s payload (.error e, t)
  | invalid (e : PyError) (t : State) (harvest : exec (harvestInference host model) s = (.ok (), t))
    (refused : model.decodeAndValidate host payload = .error e) :
    Called host model s payload (.error e, t)
  | formatChanged (e : PyError) (t : State) (packet : KanyPacket)
    (harvest : exec (harvestInference host model) s = (.ok (), t))
    (decoded : model.decodeAndValidate host payload = .ok packet) (differs : ¬ FormatFits t packet) :
    Called host model s payload (.error e, t)
  | targetRaised (e : PyError) (t : State) (packet : KanyPacket)
    (harvest : exec (harvestInference host model) s = (.ok (), t))
    (decoded : model.decodeAndValidate host payload = .ok packet) (fits : FormatFits t packet)
    (free : t.inferenceTask = none) (raises : target (queued t packet) = .error e) :
    Called host model s payload (.error e, queued t packet)
  | waits (t : State) (packet : KanyPacket)
    (harvest : exec (harvestInference host model) s = (.ok (), t))
    (decoded : model.decodeAndValidate host payload = .ok packet) (fits : FormatFits t packet)
    (waiting : t.inferenceTask = none → ∃ frames, target (queued t packet) = .ok frames ∧
      ¬ frames ≤ (queued t packet).inputFrames) :
    Called host model s payload ((.ok (t.readyOutput.take 1)), popped (queued t packet))
  | launches (t : State) (packet : KanyPacket) (frames : Int)
    (harvest : exec (harvestInference host model) s = (.ok (), t))
    (decoded : model.decodeAndValidate host payload = .ok packet) (fits : FormatFits t packet)
    (free : t.inferenceTask = none) (known : target (queued t packet) = .ok frames)
    (ready : frames ≤ (queued t packet).inputFrames) :
    Called host model s payload
      (.ok (t.readyOutput.take 1), popped (launched (queued t packet) frames))

theorem callCases (host : HostOrder) (model : SegmentModel) (payload : Bytes) (s : State) :
    Called host model s payload (exec (process host model payload) s) := by
  rcases harvest : exec (harvestInference host model) s with ⟨result, t⟩
  cases result with
  | error e =>
    rw [processHarvestRaises harvest]
    exact .harvestRaised e t harvest
  | ok u =>
    cases decoded : model.decodeAndValidate host payload with
    | error e =>
      rw [processInvalid harvest decoded]
      exact .invalid e t harvest decoded
    | ok packet =>
      by_cases fits : FormatFits t packet
      · cases free : t.inferenceTask with
        | some task =>
          rw [processAdmits harvest decoded fits (launchBusy (s := queued t packet) free)]
          exact .waits t packet harvest decoded fits (fun none => by rw [none] at free; contradiction)
        | none =>
          cases known : target (queued t packet) with
          | error e =>
            rw [processTargetRaises harvest decoded fits free known]
            exact .targetRaised e t packet harvest decoded fits free known
          | ok frames =>
            by_cases ready : frames ≤ (queued t packet).inputFrames
            · rw [processAdmits harvest decoded fits
                (launchReady (s := queued t packet) free known ready)]
              exact .launches t packet frames harvest decoded fits free known ready
            · rw [processAdmits harvest decoded fits
                (launchShort (s := queued t packet) free known ready)]
              exact .waits t packet harvest decoded fits (fun _ => ⟨frames, known, ready⟩)
      · obtain ⟨e, raised⟩ := processFormatChanged harvest decoded fits
        rw [raised]
        exact .formatChanged e t packet harvest decoded fits

theorem flushCases (host : HostOrder) (model : SegmentModel) (s : State) :
    (∃ e t, exec (harvestInference host model) s = (.error e, t) ∧
      exec (flush host model) s = (.error e, t)) ∨
    ∃ t, exec (harvestInference host model) s = (.ok (), t) ∧
      exec (flush host model) s = (.ok t.readyOutput, { t with readyOutput := [] }) := by
  rcases harvest : exec (harvestInference host model) s with ⟨result, t⟩
  cases result with
  | error e => exact .inl ⟨e, t, rfl, flushRaises harvest⟩
  | ok u => exact .inr ⟨t, rfl, flushDrains harvest⟩

end Process

end KaraokeAnything.SegmentedInference
