import KaraokeAnything.SegmentErrors
import KaraokeAnything.SegmentLengths

/-! Runs whose inferences end as a function says that takes segments of some lengths and
refuses the others: which harvests raise. -/
namespace KaraokeAnything.SegmentedInference
open ByteOrder Kany Models Python Stateful

structure Takes (infer : Inference) (takes : Nat → Nat → Prop) : Prop where
  returns : ∀ samples frames sampleRate, samples.length = 2 * frames → 0 < sampleRate →
    ((∃ output, infer samples sampleRate 2 = .ok output) ↔ takes frames sampleRate)
  keeps : KeepsLength infer

def Answers (infer : Inference) (segment : Segment) (outcome : InferenceOutcome) : Prop :=
  ∃ elapsed, match segment.infer (·.channels) infer elapsed with
    | .ok (separated, _) => outcome = .returned separated
    | .error _ => ∃ text, outcome = .raised text

def Answered (infer : Inference) (task : List Mdx23cVocals.Event → Option InferenceTask)
    (events : List Mdx23cVocals.Event) : Prop :=
  ∀ before outcome segment, before ++ [.inferenceEnds outcome] <+: events →
    task before = some ⟨segment, none⟩ → Answers infer segment outcome

section Once
variable {infer : Inference} {task : List Mdx23cVocals.Event → Option InferenceTask}
variable {payload : Bytes} {outcome : InferenceOutcome}

theorem answeredOne : Answered infer task [.process payload] := by
  intro before other segment cut
  have length := cut.length_le
  rcases before with _ | ⟨first, before⟩
  · exact absurd (List.cons_prefix_cons.mp cut).1 (by simp)
  · simp only [List.length_append, List.length_cons, List.length_nil] at length
    omega

theorem answeredOnce {segment : Segment} (running : task [.process payload] = some ⟨segment, none⟩)
    (answers : Answers infer segment outcome) :
    Answered infer task [.process payload, .inferenceEnds outcome] := by
  intro before other segment' cut again
  rcases before with _ | ⟨first, _ | ⟨second, before⟩⟩
  · exact absurd (List.cons_prefix_cons.mp cut).1 (by simp)
  · obtain ⟨rfl, next⟩ := List.cons_prefix_cons.mp cut
    cases (List.cons_prefix_cons.mp next).1
    rw [running] at again
    cases again
    exact answers
  · have length := cut.length_le
    simp only [List.length_append, List.length_cons, List.length_nil] at length
    omega

end Once

variable {host : HostOrder} {model : SegmentModel} {s t : State} {infer : Inference}
variable {takes : Nat → Nat → Prop}

/- A task over stereo packets of one rate, long enough for the length of a segment there.
`seen` is what is known of the packets that came in. -/
structure Underway (infer : Inference) (seen : KanyPacket → Prop) (segmentSeconds : Float)
    (active : List KanyPacket) (task : InferenceTask) : Prop where
  known : ∀ packet ∈ active, seen packet
  fitting : task.segment.packets = active ∧ task.segment.samples = active.flatMap (·.samples)
  stereo : ∀ packet ∈ active, packet.channels = 2
  infers : Infers (·.channels) task.segment
  length : ∃ first rounded, active.head? = some first ∧
    round (Float.ofNat first.sampleRate * segmentSeconds) = .ok rounded ∧
    max 1 rounded ≤ frameTotal active
  answered : ∀ outcome, task.outcome = some outcome → Answers infer task.segment outcome

structure Live (infer : Inference) (seen : KanyPacket → Prop) (segmentSeconds : Float) (s : State) :
    Prop where
  seconds : s.segmentSeconds = segmentSeconds
  counted : Counted s
  inputs : ∀ packet ∈ s.inputPackets,
    packet.channels = 2 ∧ s.streamSampleRate = some packet.sampleRate ∧ seen packet
  running : ∀ task, s.inferenceTask = some task →
    Underway infer seen segmentSeconds s.activePackets task

section Steps
variable {seen : KanyPacket → Prop} {segmentSeconds : Float}

theorem liveIdle (untouched : Untouched s t) (live : Live infer seen segmentSeconds s)
    (rate : t.streamSampleRate = s.streamSampleRate) (idle : t.inferenceTask = none) :
    Live infer seen segmentSeconds t := by
  refine ⟨untouched.segmentSeconds.trans live.seconds, untouchedCounted untouched live.counted,
    ?_, fun task running => ?_⟩
  · rw [untouched.inputPackets, rate]
    exact live.inputs
  · rw [idle] at running
    contradiction

theorem harvestLive {result : Except PyError Unit}
    (harvest : exec (harvestInference host model) s = (result, t))
    (live : Live infer seen segmentSeconds s) : Live infer seen segmentSeconds t := by
  have untouched := harvestTouches harvest
  have cases := harvestCases host model s
  rw [harvest] at cases
  cases cases with
  | idle running => exact live
  | cut separated done size => exact liveIdle untouched live rfl rfl
  | lost outcome done failed => exact liveIdle untouched live rfl rfl

theorem queuedLive {payload : Bytes} {packet : KanyPacket} (stereo : StereoOnly model)
    (decoded : model.decodeAndValidate host payload = .ok packet) (fits : FormatFits s packet)
    (new : seen packet) (live : Live infer seen segmentSeconds s) : Live infer seen segmentSeconds (queued s packet) := by
  refine ⟨live.seconds, queuedCounted live.counted packet, fun other member => ?_, live.running⟩
  rcases List.mem_append.mp member with before | last
  · obtain ⟨two, rate, old⟩ := live.inputs other before
    exact ⟨two, congrArg some (fits _ rate).1, old⟩
  · rw [List.mem_singleton.mp last]
    exact ⟨((stereo host payload packet).mp decoded).2, rfl, new⟩

theorem launchedLive {frames : Int} (live : Live infer seen segmentSeconds s)
    (known : target s = .ok frames) (ready : frames ≤ s.inputFrames) :
    Live infer seen segmentSeconds (launched s frames) := by
  obtain ⟨rate, stream⟩ : ∃ rate, s.streamSampleRate = some rate := by
    cases stream : s.streamSampleRate with
    | none => rw [target, stream] at known; contradiction
    | some rate => exact ⟨rate, rfl⟩
  obtain ⟨rounded, rounding, rfl⟩ : ∃ rounded,
      round (Float.ofNat rate * s.segmentSeconds) = .ok rounded ∧ max 1 rounded = frames := by
    rw [target, stream] at known
    exact okMap.mp known
  have split := (takenSegment (·.frames) (max 1 rounded) s.inputPackets 0).1
  obtain ⟨_, sum⟩ := takenSegment (·.frames) (max 1 rounded) s.inputPackets 0
  rw [Int.zero_add] at sum
  have inputs := live.inputs
  rw [split, List.forall_mem_append] at inputs
  rw [live.counted] at ready
  have shortest := takenPrefix (fun packet : KanyPacket => packet.frames) (Int.le_max_left 1 rounded)
    ready
  refine ⟨live.seconds, launchedCounted live.counted _, inputs.2, fun task same => ?_⟩
  cases Option.some.inj same
  obtain ⟨first, rest, found⟩ := List.exists_cons_of_ne_nil shortest.some
  have member : first ∈ (takeSegment (·.frames) (max 1 rounded) s.inputPackets 0).1 :=
    found ▸ List.mem_cons_self
  have rates := (inputs.1 first member).2.1
  rw [stream] at rates
  cases rates
  refine ⟨fun packet member => (inputs.1 packet member).2.2, ⟨rfl, rfl⟩,
    fun packet member => (inputs.1 packet member).1,
    formedInfers _ shortest sum (targetRoom rounding), ⟨first, rounded, ?_, ?_, shortest.reaches⟩, fun _ ended => by contradiction⟩
  · exact congrArg List.head? found
  · rw [← live.seconds]
    exact rounding

theorem nextLive (stereo : StereoOnly model) (event : Mdx23cVocals.Event)
    (new : ∀ payload packet, event = .process payload →
      model.decodeAndValidate host payload = .ok packet → seen packet)
    (answers : ∀ outcome segment, event = .inferenceEnds outcome →
      s.inferenceTask = some ⟨segment, none⟩ → Answers infer segment outcome)
    (live : Live infer seen segmentSeconds s) :
    Live infer seen segmentSeconds (Mdx23cVocals.baseNext host model s event).2 := by
  cases event with
  | process payload =>
    have cases := callCases host model payload s
    rw [Mdx23cVocals.baseNext]
    generalize exec (process host model payload) s = call at cases
    cases cases with
    | harvestRaised e t raised => exact harvestLive raised live
    | invalid e t harvest refused => exact harvestLive harvest live
    | formatChanged e t packet harvest decoded differs => exact harvestLive harvest live
    | targetRaised e t packet harvest decoded fits free raises =>
      exact queuedLive stereo decoded fits (new payload packet rfl decoded) (harvestLive harvest live)
    | waits t packet harvest decoded fits waiting =>
      have after := queuedLive stereo decoded fits (new payload packet rfl decoded) (harvestLive harvest live)
      exact ⟨after.seconds, after.counted, after.inputs, after.running⟩
    | launches t packet frames harvest decoded fits free known ready =>
      have after := launchedLive (queuedLive stereo decoded fits (new payload packet rfl decoded) (harvestLive harvest live)) known ready
      exact ⟨after.seconds, after.counted, after.inputs, after.running⟩
  | flush =>
    rw [Mdx23cVocals.baseNext]
    rcases flushCases host model s with ⟨e, t, raised, call⟩ | ⟨t, harvest, call⟩
    · rw [call]
      exact harvestLive raised live
    · have after := harvestLive harvest live
      rw [call]
      exact ⟨after.seconds, after.counted, after.inputs, after.running⟩
  | reset => exact ⟨live.seconds, rfl, List.forall_mem_nil _, fun _ running => by contradiction⟩
  | inferenceEnds outcome =>
    rw [Mdx23cVocals.baseNext]
    cases ends : inferenceEnds outcome s with
    | none => exact live
    | some t =>
      obtain ⟨segment, running, rfl⟩ := inferenceEnded ends
      refine ⟨live.seconds, live.counted, live.inputs, fun task same => ?_⟩
      cases Option.some.inj same
      have before := live.running _ running
      refine ⟨before.known, before.fitting, before.stereo, before.infers, before.length, fun other same => ?_⟩
      cases Option.some.inj same
      exact answers outcome segment rfl running

theorem answeredPrefix {task : List Mdx23cVocals.Event → Option InferenceTask}
    {before events : List Mdx23cVocals.Event} (cut : before <+: events)
    (answered : Answered infer task events) : Answered infer task before :=
  fun first outcome segment inside => answered first outcome segment (inside.trans cut)

theorem runLive (host : HostOrder) (stereo : StereoOnly model) {events : List Mdx23cVocals.Event}
    (new : ∀ payload packet, .process payload ∈ events →
      model.decodeAndValidate host payload = .ok packet → seen packet)
    (answered : Answered infer
      (fun before => (baseRun host model segmentSeconds before).inferenceTask) events) :
    Live infer seen segmentSeconds (baseRun host model segmentSeconds events) := by
  induction events using List.reverseRecOn with
  | nil => exact ⟨rfl, rfl, List.forall_mem_nil _, fun _ running => by contradiction⟩
  | append_singleton events event ih =>
    rw [baseRun, Lockstep.finalSnoc]
    refine nextLive stereo event (fun payload packet same => ?_)
      (fun outcome segment same running => ?_)
      (ih (fun payload packet member => new payload packet (List.mem_append_left _ member))
        (answeredPrefix (List.prefix_append _ _) answered))
    · exact new payload packet (same ▸ List.mem_append_right _ (List.mem_singleton_self _))
    · subst same
      exact answered events outcome segment (List.prefix_refl _) running

end Steps

section Harvests
variable {seen : KanyPacket → Prop} {segmentSeconds : Float} {task : InferenceTask} {outcome : InferenceOutcome}

theorem answeredHarvest (answering : Takes infer takes) (live : Live infer seen segmentSeconds s)
    (running : s.inferenceTask = some task) (done : task.outcome = some outcome)
    {first : KanyPacket} (head : s.activePackets.head? = some first) :
    (exec (harvestInference host model) s).1 = .ok () ↔
      takes (frameTotal s.activePackets) first.sampleRate := by
  have underway := live.running task running
  have ended : s.inferenceTask.bind (·.outcome) = some outcome := by rw [running]; exact done
  have member : first ∈ s.activePackets := List.mem_of_head? head
  have samples : task.segment.samples.length = 2 * frameTotal s.activePackets := by
    rw [underway.fitting.2, samplesTotal, stereoTotal underway.stereo]
  obtain ⟨elapsed, answer⟩ := underway.answered outcome done
  obtain ⟨other, factor, found, ran⟩ := underway.infers infer elapsed
  rw [underway.fitting.1, head] at found
  cases Option.some.inj found
  simp only [underway.stereo first member] at ran
  have returns := answering.returns task.segment.samples _ first.sampleRate samples
    first.sampleRateRange.1
  rw [ran] at answer
  cases infers : infer task.segment.samples first.sampleRate 2 with
  | ok separated =>
    rw [infers] at answer
    have same : outcome = .returned separated := answer
    subst same
    have size : separated.length = sampleTotal s.activePackets := by
      rw [answering.keeps _ _ _ _ samples first.sampleRateRange.1 infers, samples,
        stereoTotal underway.stereo]
    rw [harvestReady host model ended size]
    exact ⟨fun _ => returns.mp ⟨separated, infers⟩, fun _ => rfl⟩
  | error e =>
    rw [infers] at answer
    obtain ⟨text, same⟩ := (answer : ∃ text, outcome = .raised text)
    subst same
    have failed : Failed s (.raised text) := fun separated same => by contradiction
    rw [harvestFailed host model ended failed]
    refine ⟨fun raised => by contradiction, fun takes => ?_⟩
    obtain ⟨output, ran⟩ := returns.mpr takes
    rw [infers] at ran
    contradiction

theorem answeredNeverRaises (answering : Takes infer takes)
    (live : Live infer seen segmentSeconds s)
    (long : ∀ packet rounded frames, seen packet →
      round (Float.ofNat packet.sampleRate * segmentSeconds) = .ok rounded →
      max 1 rounded ≤ (frames : Nat) → takes frames packet.sampleRate) :
    (exec (harvestInference host model) s).1 = .ok () := by
  cases ended : s.inferenceTask.bind (·.outcome) with
  | none => rw [harvestIdle host model ended]
  | some outcome =>
    obtain ⟨task, running, done⟩ := Option.bind_eq_some_iff.mp ended
    have underway := live.running task running
    obtain ⟨first, rounded, head, rounding, reaches⟩ := underway.length
    exact (answeredHarvest answering live running done head).mpr
      (long first rounded _ (underway.known first (List.mem_of_head? head)) rounding reaches)

theorem quietTrial (quiet : (exec (harvestInference host model) s).1 = .ok ()) (sets : Bool) :
    harvestTrial s ≠ .failed sets := by
  have cases := harvestCases host model s
  generalize exec (harvestInference host model) s = call at cases quiet
  cases cases with
  | idle running => simp [harvestTrial, running]
  | cut separated done size => simp [harvestTrial, done, size]
  | lost outcome done failed => contradiction

theorem nextUnfailed (quiet : (exec (harvestInference host model) s).1 = .ok ())
    (event : Mdx23cVocals.Event) (none : s.lastError = Option.none) :
    (Mdx23cVocals.baseNext host model s event).2.lastError = Option.none := by
  rw [← Option.not_isSome_iff_eq_none, nextFlag host model s event, none]
  cases event with
  | process payload | flush =>
    simp only [trialOf]
    cases known : harvestTrial s with
    | failed sets => exact absurd known (quietTrial quiet sets)
    | quiet | passed | cleared => simp [Trials.flagAfter]
  | reset | inferenceEnds outcome => simp [trialOf, Trials.flagAfter]

end Harvests

section Run
variable {segmentSeconds : Float} {events : List Mdx23cVocals.Event}

structure Judged (host : HostOrder) (model : SegmentModel) (takes : Nat → Nat → Prop)
    (segmentSeconds : Float) (events : List Mdx23cVocals.Event) (s : State) : Prop where
  refuses : ∀ task outcome first, s.inferenceTask = some task → task.outcome = some outcome →
    s.activePackets.head? = some first →
    ((exec (harvestInference host model) s).1 = .ok () ↔
      takes (frameTotal s.activePackets) first.sampleRate)
  succeeds : (∀ payload packet rounded frames, .process payload ∈ events →
      model.decodeAndValidate host payload = .ok packet →
      round (Float.ofNat packet.sampleRate * segmentSeconds) = .ok rounded →
      max 1 rounded ≤ (frames : Nat) → takes frames packet.sampleRate) →
    (exec (harvestInference host model) s).1 = .ok () ∧ s.lastError = none

theorem runJudged (host : HostOrder) (stereo : StereoOnly model) (answering : Takes infer takes)
    (answered : Answered infer
      (fun before => (baseRun host model segmentSeconds before).inferenceTask) events) :
    Judged host model takes segmentSeconds events (baseRun host model segmentSeconds events) := by
  have live {events : List Mdx23cVocals.Event} (answered : Answered infer
      (fun before => (baseRun host model segmentSeconds before).inferenceTask) events) :
      Live infer (fun packet => ∃ payload, .process payload ∈ events ∧
        model.decodeAndValidate host payload = .ok packet) segmentSeconds
        (baseRun host model segmentSeconds events) :=
    runLive host stereo (fun payload packet member decoded => ⟨payload, member, decoded⟩) answered
  refine ⟨fun task outcome first running done head =>
    answeredHarvest answering (live answered) running done head, fun long => ?_⟩
  have quiet {events : List Mdx23cVocals.Event} (answered : Answered infer
      (fun before => (baseRun host model segmentSeconds before).inferenceTask) events)
      (long : ∀ payload packet rounded frames, .process payload ∈ events →
        model.decodeAndValidate host payload = .ok packet →
        round (Float.ofNat packet.sampleRate * segmentSeconds) = .ok rounded →
        max 1 rounded ≤ (frames : Nat) → takes frames packet.sampleRate) :
      (exec (harvestInference host model) (baseRun host model segmentSeconds events)).1 = .ok () :=
    answeredNeverRaises answering (live answered)
      (fun packet rounded frames ⟨payload, member, decoded⟩ => long payload packet rounded frames
        member decoded)
  refine ⟨quiet answered long, ?_⟩
  induction events using List.reverseRecOn with
  | nil => rfl
  | append_singleton events event ih =>
    have before := answeredPrefix (List.prefix_append events [event]) answered
    have fewer := fun payload packet rounded frames member =>
      long payload packet rounded frames (List.mem_append_left [event] member)
    rw [baseRun, Lockstep.finalSnoc]
    exact nextUnfailed (quiet before fewer) event (ih before fewer)

end Run

end KaraokeAnything.SegmentedInference
