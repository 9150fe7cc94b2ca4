import KaraokeAnything.Library.Lockstep
import KaraokeAnything.Mdx23cStream

/-! The two copies of the segment machinery: without a crossfade, and as long as
nothing is dropped, MDX23C answers every call as the shared base class does. -/
namespace KaraokeAnything.Mdx23cVocals
open Binary64
open ByteOrder Kany Lockstep Models Python Stateful
open SegmentedInference (InferenceOutcome SegmentModel StereoOnly htdemucs registeredStereo
  stereoSilence takeSegment)
open Processors (MDX23CVocalsConfig)

section Views
variable {s : State} {packet : StereoPacket}

def shared (s : State) : SegmentedInference.State where
  segmentSeconds := s.segmentSeconds
  inputPackets := items s.inputPackets
  inputFrames := s.inputFrames
  readyOutput := s.readyOutput
  inferenceTask := s.inferenceTask
  activePackets := items s.activePackets
  streamSampleRate := s.streamSampleRate
  streamChannels := s.streamChannels
  segmentsStarted := s.segmentsStarted
  segmentsCompleted := s.segmentsCompleted
  lastError := s.lastError

theorem sharedQueued (s : State) (packet : StereoPacket) :
    SegmentedInference.queued (shared s) packet.val = shared (pushed (withFormat s packet) packet) := by
  have line : items (s.inputPackets ++ [packet]) = items s.inputPackets ++ [packet.val] :=
    List.map_append
  simp only [SegmentedInference.queued, SegmentedInference.withFormat, shared, pushed, withFormat,
    line]

theorem takeItems (target : Int) (packets : List StereoPacket) (frames : Int) :
    takeSegment (·.frames) target (items packets) frames =
      (items (takeSegment (·.val.frames) target packets frames).1,
        (takeSegment (·.val.frames) target packets frames).2.1,
        items (takeSegment (·.val.frames) target packets frames).2.2) := by
  induction packets generalizing frames with
  | nil => rfl
  | cons packet rest ih =>
    rw [items, List.map_cons, ← items]
    simp only [takeSegment]
    split
    · rw [ih]
      rfl
    · rfl

theorem sharedLaunched (s : State) (frames : Int) :
    SegmentedInference.launched (shared s) frames = shared (launched s frames) := by
  have cut := takeItems frames s.inputPackets 0
  simp only [SegmentedInference.launched, shared, cut]
  rfl

end Views

section Harvest
variable {host : HostOrder} {model : SegmentModel} {config : MDX23CVocalsConfig} {rate : Nat}
  {s : State}

theorem crossfadedSilent (silent : (s.overlap == 0) = true) {output : List UInt32}
    (short : output.length / 2 < 2 ^ 40) : crossfaded s output = output := by
  obtain ⟨sign, zero⟩ := beqZero silent
  have finite : (Float.ofNat (output.length / 2)).isFinite = true :=
    belowFinite (ofNatBelow short (by decide))
  obtain ⟨other, product⟩ := mulZero finite zero
  have rounded : round (fadeLength s output) = .ok 0 := by
    rw [Python.round, fadeLength, product]
  have empty : overlapFrames s output = 0 := by
    rw [overlapFrames, rounded]
    simp
  have unused : usableTail s 0 = none := by
    unfold usableTail
    split
    · rfl
    · exact if_pos (.inl rfl)
  rw [crossfaded, empty, fade, Nat.zero_mul, unused]

structure Alike {α : Type} (base : Except PyError α × SegmentedInference.State)
    (copy : Except PyError α × State) : Prop where
  result : base.1.toOption = copy.1.toOption
  state : base.2 = shared copy.2

variable (host model) in
theorem harvestAlike (checked : config.checked = .ok config)
    (silent : (config.overlap == 0) = true) (streams : Streams config rate s) :
    Alike (exec (SegmentedInference.harvestInference host model) (shared s))
      (exec (harvestInference host) s) := by
  cases done : s.inferenceTask.bind (·.outcome) with
  | none =>
    rw [SegmentedInference.harvestIdle host model (s := shared s) done, harvestIdle host done]
    exact ⟨rfl, rfl⟩
  | some outcome =>
    by_cases failed : Failed s outcome
    · obtain ⟨e, raised⟩ := harvestFailed host done failed
      have also : SegmentedInference.Failed (shared s) outcome := by
        rintro output rfl
        have size : output.length ≠ sampleTotal s.activePackets := failed
        rwa [sampleTotalItems] at size
      rw [SegmentedInference.harvestFailed host model (s := shared s) done also, raised]
      exact ⟨rfl, rfl⟩
    · cases outcome with
      | raised text => exact absurd trivial failed
      | cancelled => exact absurd done streams.uncancelled
      | returned output =>
        have size : output.length = sampleTotal s.activePackets := by_contra failed
        have finite := fadeFinite (streamsParameters streams checked) streams.short size
        have short : output.length / 2 < 2 ^ 40 := by
          rw [size, sampleTotalFrames, Nat.mul_div_cancel _ (by decide)]
          exact streams.short
        have same := crossfadedSilent (by rw [streams.overlap]; exact silent) short
        have total : output.length = SegmentedInference.sampleTotal (shared s).activePackets :=
          size.trans (sampleTotalItems _)
        rw [SegmentedInference.harvestReady host model (s := shared s) done total,
          harvestReady host done size finite]
        refine ⟨rfl, ?_⟩
        simp only [harvested, same]
        rfl

end Harvest

section Calls
variable {host : HostOrder} {model : SegmentModel} {config : MDX23CVocalsConfig} {rate : Nat}
  {s : State} {frames : Int}

def baseNext (host : HostOrder) (model : SegmentModel) (b : SegmentedInference.State) :
    Event → Option (List ProcessedPacket) × SegmentedInference.State
  | .process payload =>
    let call := exec (SegmentedInference.process host model payload) b
    (call.1.toOption, call.2)
  | .flush =>
    let call := exec (SegmentedInference.flush host model) b
    (call.1.toOption, call.2)
  | .reset => (some [], SegmentedInference.clear (SegmentedInference.cancelInference b))
  | .inferenceEnds outcome =>
    (some [], (SegmentedInference.inferenceEnds outcome b).getD b)

/- Both decode checks let the same packets through; the texts of their errors differ. -/
def SameCheck (host : HostOrder) (model : SegmentModel) : Prop :=
  ∀ payload, (model.decodeAndValidate host payload).toOption =
    (decodeAndValidate host payload).toOption.map (·.val)

theorem checkRefuses (same : SameCheck host model) {payload : Bytes} {e : PyError}
    (refused : decodeAndValidate host payload = .error e) :
    ∃ other, model.decodeAndValidate host payload = .error other := by
  have both := same payload
  rw [refused] at both
  cases decoded : model.decodeAndValidate host payload with
  | error other => exact ⟨other, rfl⟩
  | ok packet =>
    rw [decoded] at both
    contradiction

theorem checkPasses (same : SameCheck host model) {payload : Bytes} {packet : StereoPacket}
    (decoded : decodeAndValidate host payload = .ok packet) :
    model.decodeAndValidate host payload = .ok packet.val := by
  have both := same payload
  rw [decoded] at both
  cases known : model.decodeAndValidate host payload with
  | error other =>
    rw [known] at both
    contradiction
  | ok other =>
    rw [known] at both
    exact congrArg Except.ok (Option.some.inj both)

theorem launchShared (known : s.streamSampleRate = some rate) (length : target s rate = .ok frames)
    (positive : 1 ≤ frames) :
    exec SegmentedInference.launchWhenReady (shared s) =
      (.ok (), shared (launchedWhenReady s frames)) := by
  have computed : SegmentedInference.target (shared s) = .ok frames := by
    have rounded : round (Float.ofNat rate * s.segmentSeconds) = .ok frames := length
    have rated : (shared s).streamSampleRate = some rate := known
    rw [SegmentedInference.target, rated]
    change (round (Float.ofNat rate * s.segmentSeconds)).map (max 1) = _
    rw [rounded, Except.map, Int.max_eq_right positive]
  unfold launchedWhenReady
  cases task : s.inferenceTask with
  | some running =>
    rw [SegmentedInference.launchBusy (s := shared s) task]
    simp
  | none =>
    by_cases due : frames ≤ s.inputFrames
    · rw [SegmentedInference.launchReady (s := shared s) task computed due, sharedLaunched]
      simp [due]
    · rw [SegmentedInference.launchShort (s := shared s) task computed due]
      simp [due]

theorem admittedWhole {t : State} {packet : StereoPacket} {maximum : Int}
    (kept : (admitted t packet maximum).droppedPackets = t.droppedPackets) :
    admitted t packet maximum = pushed (withFormat t packet) packet := by
  obtain ⟨line, _, total, _⟩ := dropOldestExact maximum
    (pushed (withFormat t packet) packet).inputPackets (pushed (withFormat t packet) packet).inputFrames
  have count : (dropOldest maximum (pushed (withFormat t packet) packet).inputPackets
      (pushed (withFormat t packet) packet).inputFrames).2.2 = 0 := Nat.add_left_cancel kept
  rw [count] at line total
  simp only [admitted, trimmed, line, total, count, List.drop_zero, List.take_zero]
  simp [frameTotal]

theorem processShared (checked : config.checked = .ok config)
    (silent : (config.overlap == 0) = true) (same : SameCheck host model)
    (streams : Streams config rate s) (length : target (newState config) rate = .ok frames)
    (positive : 1 ≤ frames) {payload : Bytes} (one : OneStream host rate (.process payload))
    (finite : Arrives host (.process payload) → (limit (newState config) rate).isFinite = true)
    (kept : (callProcess host payload s).2.droppedPackets = s.droppedPackets) :
    baseNext host model (shared s) (.process payload) =
      ((callProcess host payload s).1, shared (callProcess host payload s).2) := by
  have harvests := harvestAlike host model checked silent streams
  have cases := callCases host payload s
  generalize callProcess host payload s = call at cases kept
  rcases settled : exec (SegmentedInference.harvestInference host model) (shared s) with ⟨result, b⟩
  rw [settled] at harvests
  cases cases with
  | harvestRaised e t raised =>
    rw [raised] at harvests
    obtain ⟨ends, rfl⟩ := harvests
    cases result with
    | ok u => contradiction
    | error other => rw [baseNext, SegmentedInference.processHarvestRaises settled]; rfl
  | invalid e t harvest refused =>
    rw [harvest] at harvests
    obtain ⟨ends, rfl⟩ := harvests
    obtain ⟨other, also⟩ := checkRefuses same refused
    cases result with
    | error other => contradiction
    | ok u => rw [baseNext, SegmentedInference.processInvalid settled also]; rfl
  | formatChanged t packet harvest decoded differs =>
    exact absurd (formatFits (harvestStreams streams harvest) (one packet decoded)) differs
  | limitRaised t packet harvest decoded fits infinite =>
    have known := finite ⟨packet, decoded⟩
    rw [one packet decoded, streamsLimit (harvestStreams streams harvest), known] at infinite
    contradiction
  | admits t packet maximum other harvest decoded fits room rounded =>
    rw [harvest] at harvests
    obtain ⟨ends, rfl⟩ := harvests
    have also := checkPasses same decoded
    rw [one packet decoded, streamsTarget (harvestStreams streams harvest)] at rounded
    cases Except.ok.inj (rounded.symm.trans length)
    have dropped := (launchKeeps (admitted t packet maximum) frames).2.2.2.2.2
    have whole := admittedWhole (dropped.symm.trans
      (kept.trans (harvestedSettles harvest).droppedPackets.symm))
    have launch : exec SegmentedInference.launchWhenReady
        (SegmentedInference.queued (shared t) packet.val) =
          (.ok (), shared (launchedWhenReady (admitted t packet maximum) frames)) := by
      rw [sharedQueued, whole]
      refine launchShared (congrArg some (one packet decoded)) ?_ positive
      exact (streamsTarget (harvestStreams streams harvest) rate).trans length
    cases result with
    | error other => contradiction
    | ok u =>
      rw [baseNext, SegmentedInference.processAdmits settled also fits launch]
      rfl

theorem flushShared (checked : config.checked = .ok config)
    (silent : (config.overlap == 0) = true) (streams : Streams config rate s) :
    baseNext host model (shared s) .flush = ((callFlush host s).1, shared (callFlush host s).2) := by
  have harvests := harvestAlike host model checked silent streams
  rcases settled : exec (SegmentedInference.harvestInference host model) (shared s) with ⟨result, b⟩
  rw [settled] at harvests
  rcases flushCases host s with ⟨e, t, raised, call⟩ | ⟨t, harvest, call⟩
  · rw [raised] at harvests
    obtain ⟨ends, rfl⟩ := harvests
    cases result with
    | ok u => contradiction
    | error other =>
      rw [baseNext, SegmentedInference.flushRaises settled, call]
      rfl
  · rw [harvest] at harvests
    obtain ⟨ends, rfl⟩ := harvests
    cases result with
    | error other => contradiction
    | ok u =>
      rw [baseNext, SegmentedInference.flushDrains settled, call]
      rfl

theorem endsShared (outcome : InferenceOutcome) (s : State) :
    SegmentedInference.inferenceEnds outcome (shared s) = (inferenceEnds outcome s).map shared := by
  rcases task : s.inferenceTask with _ | ⟨segment, _ | done⟩ <;>
    simp [SegmentedInference.inferenceEnds, inferenceEnds, shared, task]

theorem nextShared (checked : config.checked = .ok config)
    (silent : (config.overlap == 0) = true) (same : SameCheck host model)
    (streams : Streams config rate s) (length : target (newState config) rate = .ok frames)
    (positive : 1 ≤ frames) {event : Event} (one : OneStream host rate event)
    (finite : Arrives host event → (limit (newState config) rate).isFinite = true)
    (kept : (next host s event).2.droppedPackets = s.droppedPackets) :
    baseNext host model (shared s) event = ((next host s event).1, shared (next host s event).2) := by
  cases event with
  | process payload =>
    exact processShared checked silent same streams length positive one finite kept
  | flush => exact flushShared checked silent streams
  | reset => rfl
  | inferenceEnds outcome =>
    rw [baseNext, next, endsShared]
    cases inferenceEnds outcome s <;> rfl

end Calls

section Drops
variable {host : HostOrder} {config : MDX23CVocalsConfig} {rate : Nat} {s : State}

def Boundless (host : HostOrder) (s : State) : Event → Prop
  | .process payload => ∀ packet, decodeAndValidate host payload = .ok packet →
    (limit s packet.val.sampleRate).isFinite = false
  | _ => True

theorem processDropped (host : HostOrder) (payload : Bytes) (s : State) :
    s.droppedPackets ≤ (callProcess host payload s).2.droppedPackets ∧
      (Boundless host s (.process payload) →
        (callProcess host payload s).2.droppedPackets = s.droppedPackets) := by
  have cases := callCases host payload s
  generalize callProcess host payload s = call at cases
  have kept {t : State} {result : Except PyError Unit}
      (harvest : exec (harvestInference host) s = (result, t)) :
      t.droppedPackets = s.droppedPackets := (harvestedSettles harvest).droppedPackets
  cases cases with
  | harvestRaised e t raised => exact ⟨(kept raised).ge, fun _ => kept raised⟩
  | invalid e t harvest refused => exact ⟨(kept harvest).ge, fun _ => kept harvest⟩
  | formatChanged t packet harvest decoded differs =>
    have same := kept harvest
    exact ⟨same.ge, fun _ => same⟩
  | limitRaised t packet harvest decoded fits infinite =>
    have same := kept harvest
    exact ⟨same.ge, fun _ => same⟩
  | admits t packet maximum frames harvest decoded fits room length =>
    have dropped := (launchKeeps (admitted t packet maximum) frames).2.2.2.2.2
    have more : t.droppedPackets ≤ (admitted t packet maximum).droppedPackets := Nat.le_add_right _ _
    refine ⟨(kept harvest).ge.trans (more.trans dropped.ge), fun boundless => ?_⟩
    have finite := (limitDefined t packet).mp ⟨maximum, room⟩
    rw [settledLimit (harvestedSettles harvest), boundless packet decoded] at finite
    contradiction

theorem nextDropped (host : HostOrder) (s : State) (event : Event) :
    s.droppedPackets ≤ (next host s event).2.droppedPackets ∧
      (Boundless host s event → (next host s event).2.droppedPackets = s.droppedPackets) := by
  cases event with
  | process payload => exact processDropped host payload s
  | flush =>
    have kept : (callFlush host s).2.droppedPackets = s.droppedPackets := by
      rcases flushCases host s with ⟨e, t, raised, call⟩ | ⟨t, harvest, call⟩
      · rw [call]
        exact (harvestedSettles raised).droppedPackets
      · rw [call]
        exact (harvestedSettles harvest).droppedPackets
    exact ⟨kept.ge, fun _ => kept⟩
  | reset => exact ⟨Nat.le_refl _, fun _ => rfl⟩
  | inferenceEnds outcome =>
    simp only [next, inferenceEnds]
    split
    · exact ⟨Nat.le_refl _, fun _ => rfl⟩
    · exact ⟨Nat.le_refl _, fun _ => rfl⟩

variable (host s) in
theorem droppedPrefix {before events : List Event} (cut : before <+: events) :
    (run host s before).droppedPackets ≤ (run host s events).droppedPackets := by
  obtain ⟨after, rfl⟩ := cut
  induction after using List.reverseRecOn with
  | nil => rw [List.append_nil]
  | append_singleton after event ih =>
    rw [← List.append_assoc, runSnoc]
    exact ih.trans (nextDropped host _ event).1

theorem boundlessRun (checked : config.checked = .ok config) {events : List Event}
    (one : ∀ event ∈ events, OneStream host rate event)
    (infinite : (limit (newState config) rate).isFinite = false) :
    (run host (newState config) events).droppedPackets = 0 := by
  induction events using List.reverseRecOn with
  | nil => rfl
  | append_singleton events event ih =>
    have earlier (other : Event) (inside : other ∈ events) : OneStream host rate other :=
      one other (List.mem_append_left _ inside)
    have streams := runStreams checked earlier
    have last := one event (List.mem_append_right _ (List.mem_singleton.mpr rfl))
    rw [runSnoc, (nextDropped host _ event).2, ih earlier]
    cases event with
    | process payload =>
      intro packet decoded
      rw [last packet decoded, streamsLimit streams]
      exact infinite
    | flush => trivial
    | reset => trivial
    | inferenceEnds outcome => trivial

end Drops

section Runs
variable {host : HostOrder} {model : SegmentModel} {config : MDX23CVocalsConfig} {rate : Nat}
  {frames : Int}

theorem runShared (checked : config.checked = .ok config)
    (silent : (config.overlap == 0) = true) (same : SameCheck host model)
    (length : target (newState config) rate = .ok frames) (positive : 1 ≤ frames)
    {events : List Event} (one : ∀ event ∈ events, OneStream host rate event)
    (finite : (∃ event ∈ events, Arrives host event) → (limit (newState config) rate).isFinite = true)
    (kept : (run host (newState config) events).droppedPackets = 0) :
    answers (baseNext host model) (shared (newState config)) events =
        answers (next host) (newState config) events ∧
      final (baseNext host model) (shared (newState config)) events =
        shared (run host (newState config) events) := by
  refine lockstep (fun before event cut => ?_)
  have inside : event ∈ events := cut.subset (by simp)
  have streams := runStreams checked
    (fun other within => one other (cut.subset (List.mem_append_left _ within)))
  have first := droppedPrefix host (newState config) ((List.prefix_append _ _).trans cut)
  have second := droppedPrefix host (newState config) cut
  rw [kept] at first second
  rw [runSnoc] at second
  refine nextShared checked silent same streams length positive (one event inside)
    (fun arrives => finite ⟨event, inside, arrives⟩) ?_
  exact (Nat.le_zero.mp second).trans (Nat.le_zero.mp first).symm

theorem baseAnswers (host : HostOrder) (model : SegmentModel) (same : SameCheck host model) {s : State} (unset : Unset s)
    (fresh : s.streamSampleRate = none) {payload : Bytes} {packet : StereoPacket}
    (decoded : decodeAndValidate host payload = .ok packet)
    (length : target s packet.val.sampleRate = .ok frames) (positive : 1 ≤ frames) :
    ∃ outputs, (baseNext host model (shared s) (.process payload)).1 = some outputs := by
  have idle : (shared s).inferenceTask.bind (·.outcome) = none := by
    change s.inferenceTask.bind _ = none
    rw [unset fresh]
    rfl
  have settled := SegmentedInference.harvestIdle host model idle
  have fits : SegmentedInference.FormatFits (shared s) packet.val := fun rate known => by
    rw [shared, fresh] at known
    contradiction
  have launch := launchShared (s := pushed (withFormat s packet) packet) rfl length positive
  rw [← sharedQueued] at launch
  rw [baseNext, SegmentedInference.processAdmits settled (checkPasses same decoded) fits launch]
  exact ⟨_, rfl⟩

/- Without drops both copies answer and raise alike exactly when no valid packet comes,
or the limit at its rate is a finite float. -/
theorem copiesAgree (host : HostOrder) (model : SegmentModel) (config : MDX23CVocalsConfig)
    (checked : config.checked = .ok config) (silent : (config.overlap == 0) = true)
    (same : SameCheck host model) (rate : Nat) (frames : Int)
    (length : target (newState config) rate = .ok frames) (positive : 1 ≤ frames)
    (events : List Event) (one : ∀ event ∈ events, OneStream host rate event) :
    ((run host (newState config) events).droppedPackets = 0 →
      answers (next host) (newState config) events =
        answers (baseNext host model) { segmentSeconds := config.segmentSeconds } events) ↔
    ((∃ event ∈ events, Arrives host event) →
      (limit (newState config) rate).isFinite = true) := by
  constructor
  · intro agree arrives
    by_contra infinite
    rw [Bool.not_eq_true] at infinite
    have alike := agree (boundlessRun checked one infinite)
    obtain ⟨before, event, cut, comes, quiet⟩ := firstArrival arrives
    have inside : event ∈ events := cut.subset (by simp)
    have earlier (other : Event) (within : other ∈ before) : OneStream host rate other :=
      one other (cut.subset (List.mem_append_left _ within))
    have streams := runStreams checked earlier
    have fresh : (run host (newState config) before).streamSampleRate = none := quietRun quiet
    obtain ⟨_, view⟩ := runShared checked silent same length positive earlier
      (fun ⟨other, within, early⟩ => absurd early (quiet other within))
      (boundlessRun checked earlier infinite)
    have both := answersEvent alike.symm cut
    cases event with
    | process payload =>
      obtain ⟨packet, decoded⟩ := comes
      have known := one _ inside packet decoded
      have raises := firstCallRaises streams.unset fresh decoded
        (by rw [known, streamsLimit streams]; exact infinite)
      obtain ⟨outputs, answered⟩ := baseAnswers host model same streams.unset fresh decoded
        (by rw [known, streamsTarget streams]; exact length) positive
      rw [← view] at answered
      have copy : (next host (final (next host) (newState config) before) (.process payload)).1 =
          none := congrArg Prod.fst raises
      rw [copy] at both
      exact absurd (both.symm.trans answered) nofun
    | flush => exact comes.elim
    | reset => exact comes.elim
    | inferenceEnds outcome => exact comes.elim
  · intro finite kept
    exact (runShared checked silent same length positive one finite kept).1.symm

theorem stereoCheck (host : HostOrder) (stereo : StereoOnly model) : SameCheck host model := by
  intro payload
  cases decoded : decodeAndValidate host payload with
  | ok packet =>
    rw [(stereo host payload packet.val).mpr ⟨validated.mp decoded, packet.property⟩]
    rfl
  | error e =>
    cases also : model.decodeAndValidate host payload with
    | error other => rfl
    | ok packet =>
      obtain ⟨known, channels⟩ := (stereo host payload packet).mp also
      have passed : decodeAndValidate host payload = .ok ⟨packet, channels⟩ := validated.mpr known
      rw [passed] at decoded
      contradiction

def hugeSilentConfig : MDX23CVocalsConfig := { hugeConfig with overlap := 0 }

theorem answeredOneStream : ∀ event ∈ answeredSegment, OneStream .little 3 event :=
  List.forall_mem_cons.mpr ⟨fun _ => slowRate, List.forall_mem_cons.mpr
    ⟨InferenceOutcome.noConfusion, List.forall_mem_singleton.mpr fun _ => slowRate⟩⟩

theorem silenceOneStream : ∀ event ∈ [Event.process stereoSilence], OneStream .little 48000 event := by
  intro event inside
  cases List.mem_singleton.mp inside
  intro packet decoded
  cases Except.ok.inj decoded
  rfl

theorem copiesAgreeAnswered :
    answers (next .little) (newState { quarterSecond with overlap := 0 }) answeredSegment =
      answers (baseNext .little htdemucs) { segmentSeconds := 0.25 } answeredSegment :=
  (copiesAgree .little htdemucs { quarterSecond with overlap := 0 } rfl rfl
    (stereoCheck .little (registeredStereo (.inl rfl))) 3 1 (by decide +kernel) (by decide)
    answeredSegment answeredOneStream).mpr (fun _ => by decide +kernel) (by decide +kernel)

theorem copiesDiffer : ¬ ∀ (config : MDX23CVocalsConfig), config.checked = .ok config →
    (config.overlap == 0) = true → ∀ (rate : Nat) (frames : Int),
      target (newState config) rate = .ok frames → 1 ≤ frames → ∀ events : List Event,
        (∀ event ∈ events, OneStream .little rate event) →
          (run .little (newState config) events).droppedPackets = 0 →
            answers (next .little) (newState config) events =
              answers (baseNext .little htdemucs) { segmentSeconds := config.segmentSeconds } events := by
  intro all
  have infinite : (limit (newState hugeSilentConfig) 48000).isFinite = false := by decide +kernel
  have length : target (newState hugeSilentConfig) 48000 = .ok 48000 := by decide +kernel
  have same := all hugeSilentConfig rfl rfl 48000 48000 length (by decide) [.process stereoSilence]
    silenceOneStream (boundlessRun rfl silenceOneStream infinite)
  have check : SameCheck .little htdemucs := stereoCheck .little (registeredStereo (.inl rfl))
  have decoded : decodeAndValidate .little stereoSilence = .ok _ := rfl
  have raises := firstCallRaises (s := newState hugeSilentConfig) (fun _ => rfl) rfl decoded infinite
  obtain ⟨outputs, answered⟩ := baseAnswers .little htdemucs check (s := newState hugeSilentConfig)
    (fun _ => rfl) rfl decoded length (by decide)
  have copy := congrArg Prod.fst raises
  have both := (List.cons.inj same).1
  exact absurd (copy.symm.trans (both.trans answered)) nofun

end Runs

end KaraokeAnything.Mdx23cVocals
