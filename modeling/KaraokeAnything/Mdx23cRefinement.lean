import KaraokeAnything.Mdx23cAgreement
import KaraokeAnything.Mdx23cCrossfade

/-! MDX23C with any overlap as the shared base class: its crossfade can be done to every
inference result the moment it is there, and the rest is the base class. -/
namespace KaraokeAnything.Mdx23cVocals
open ByteOrder Kany Lockstep Models Python Stateful
open SegmentedInference (InferenceOutcome InferenceTask SegmentModel htdemucs registeredStereo)
open Processors (MDX23CVocalsConfig)

section Views
variable {s t : State}

def mixedOutcome (s : State) : InferenceOutcome → InferenceOutcome
  | .returned output => .returned (crossfaded s output)
  | outcome => outcome

def mixedTask (s : State) (task : InferenceTask) : InferenceTask :=
  { task with outcome := task.outcome.map (mixedOutcome s) }

def mixed (s : State) : State := { s with inferenceTask := s.inferenceTask.map (mixedTask s) }

def mixedEvent (s : State) : Event → Event
  | .inferenceEnds outcome => .inferenceEnds (mixedOutcome s outcome)
  | event => event

theorem mixedSame (tail : t.previousTail = s.previousTail) (overlap : t.overlap = s.overlap) :
    mixedOutcome t = mixedOutcome s := by
  have frames (output : List UInt32) : overlapFrames t output = overlapFrames s output := by
    rw [overlapFrames, overlapFrames, fadeLength, fadeLength, overlap]
  have usable (samples : Nat) : usableTail t samples = usableTail s samples := by
    rw [usableTail, usableTail, tail]
  funext outcome
  cases outcome with
  | returned output =>
    rw [mixedOutcome, mixedOutcome, crossfaded, crossfaded, fade, fade, frames, usable]
  | raised text => rfl
  | cancelled => rfl

theorem mixedTaskSame (tail : t.previousTail = s.previousTail) (overlap : t.overlap = s.overlap) :
    mixedTask t = mixedTask s := by
  funext task
  rw [mixedTask, mixedTask, mixedSame tail overlap]

theorem mixedNone : (mixed s).inferenceTask.isNone = s.inferenceTask.isNone := by
  simp [mixed]

theorem mixedDone (s : State) : (mixed s).inferenceTask.bind (·.outcome) =
    (s.inferenceTask.bind (·.outcome)).map (mixedOutcome s) := by
  rcases task : s.inferenceTask with _ | ⟨segment, outcome⟩ <;> simp [mixed, mixedTask, task]

theorem mixedLaunched (s : State) (frames : Int) :
    launchedWhenReady (mixed s) frames = mixed (launchedWhenReady s frames) := by
  unfold launchedWhenReady
  rw [mixedNone]
  by_cases due : s.inferenceTask.isNone ∧ frames ≤ s.inputFrames
  · rw [if_pos due, if_pos (by exact due)]
    rfl
  · rw [if_neg due, if_neg (by exact due)]

end Views

section Calls
variable {host : HostOrder} {model : SegmentModel} {config : MDX23CVocalsConfig} {rate : Nat}
  {s : State} {frames : Int}

variable (host model) in
theorem harvestMixed (checked : config.checked = .ok config) (streams : Streams config rate s) :
    let copy := exec (harvestInference host) s
    Alike (exec (SegmentedInference.harvestInference host model) (shared (mixed s)))
      (copy.1, mixed copy.2) := by
  cases done : s.inferenceTask.bind (·.outcome) with
  | none =>
    have idle : (shared (mixed s)).inferenceTask.bind (·.outcome) = none := by
      change (mixed s).inferenceTask.bind _ = none
      rw [mixedDone, done]
      rfl
    rw [SegmentedInference.harvestIdle host model idle, harvestIdle host done]
    exact ⟨rfl, rfl⟩
  | some outcome =>
    have also : (shared (mixed s)).inferenceTask.bind (·.outcome) = some (mixedOutcome s outcome) := by
      change (mixed s).inferenceTask.bind _ = _
      rw [mixedDone, done]
      rfl
    cases outcome with
    | cancelled => exact absurd done streams.uncancelled
    | raised text =>
      obtain ⟨e, raised⟩ := harvestFailed host done trivial
      have failed : SegmentedInference.Failed (shared (mixed s)) (.raised text) := by
        intro output same
        contradiction
      rw [SegmentedInference.harvestFailed host model also failed, raised]
      exact ⟨rfl, rfl⟩
    | returned output =>
      by_cases size : output.length = sampleTotal s.activePackets
      · have finite := fadeFinite (streamsParameters streams checked) streams.short size
        have total : (crossfaded s output).length =
            SegmentedInference.sampleTotal (shared (mixed s)).activePackets :=
          (crossfadedLength s output).trans (size.trans (sampleTotalItems _))
        rw [SegmentedInference.harvestReady host model also total, harvestReady host done size finite]
        exact ⟨rfl, rfl⟩
      · have lost : Failed s (.returned output) := size
        obtain ⟨e, raised⟩ := harvestFailed host done lost
        have failed : SegmentedInference.Failed (shared (mixed s)) (.returned (crossfaded s output)) := by
          intro other same
          cases same
          rw [crossfadedLength]
          exact fun total => size (total.trans (sampleTotalItems _).symm)
        rw [SegmentedInference.harvestFailed host model also failed, raised]
        exact ⟨rfl, rfl⟩

theorem mixedPushed (t : State) (packet : StereoPacket) :
    mixed (pushed (withFormat t packet) packet) = pushed (withFormat (mixed t) packet) packet := by
  have task : mixedTask (pushed (withFormat t packet) packet) = mixedTask t := mixedTaskSame rfl rfl
  rw [mixed, task]
  rfl

theorem mixedPopped (u : State) :
    SegmentedInference.popped (shared (mixed u)) = shared (mixed (popped u)) := by
  have task : mixedTask (popped u) = mixedTask u := mixedTaskSame rfl rfl
  rw [mixed, mixed, task]
  rfl

theorem processMixed (checked : config.checked = .ok config) (same : SameCheck host model)
    (streams : Streams config rate s) (length : target (newState config) rate = .ok frames)
    (positive : 1 ≤ frames) {payload : Bytes} (one : OneStream host rate (.process payload))
    (finite : Arrives host (.process payload) → (limit (newState config) rate).isFinite = true)
    (kept : (callProcess host payload s).2.droppedPackets = s.droppedPackets) :
    baseNext host model (shared (mixed s)) (.process payload) =
      ((callProcess host payload s).1, shared (mixed (callProcess host payload s).2)) := by
  have harvests := harvestMixed host model checked streams
  have cases := callCases host payload s
  generalize callProcess host payload s = call at cases kept
  rcases settled : exec (SegmentedInference.harvestInference host model) (shared (mixed s)) with
    ⟨result, b⟩
  rw [settled] at harvests
  cases cases with
  | harvestRaised e t raised =>
    rw [raised] at harvests
    obtain ⟨ends, rfl⟩ := harvests
    cases result with
    | ok u => contradiction
    | error other => rw [baseNext, SegmentedInference.processHarvestRaises settled]; rfl
  | invalid e t harvest refused =>
    rw [harvest] at harvests
    obtain ⟨ends, rfl⟩ := harvests
    obtain ⟨other, also⟩ := checkRefuses same refused
    cases result with
    | error other => contradiction
    | ok u => rw [baseNext, SegmentedInference.processInvalid settled also]; rfl
  | formatChanged t packet harvest decoded differs =>
    exact absurd (formatFits (harvestStreams streams harvest) (one packet decoded)) differs
  | limitRaised t packet harvest decoded fits infinite =>
    have known := finite ⟨packet, decoded⟩
    rw [one packet decoded, streamsLimit (harvestStreams streams harvest), known] at infinite
    contradiction
  | admits t packet maximum other harvest decoded fits room rounded =>
    rw [harvest] at harvests
    obtain ⟨ends, rfl⟩ := harvests
    have also := checkPasses same decoded
    rw [one packet decoded, streamsTarget (harvestStreams streams harvest)] at rounded
    cases Except.ok.inj (rounded.symm.trans length)
    have dropped := (launchKeeps (admitted t packet maximum) frames).2.2.2.2.2
    have whole := admittedWhole (dropped.symm.trans
      (kept.trans (harvestedSettles harvest).droppedPackets.symm))
    have launch : exec SegmentedInference.launchWhenReady
        (SegmentedInference.queued (shared (mixed t)) packet.val) =
          (.ok (), shared (mixed (launchedWhenReady (admitted t packet maximum) frames))) := by
      rw [sharedQueued, ← mixedPushed, ← whole, ← mixedLaunched]
      refine launchShared (s := mixed (admitted t packet maximum))
        (congrArg some (one packet decoded)) ?_ positive
      exact (streamsTarget (harvestStreams streams harvest) rate).trans length
    have fits : SegmentedInference.FormatFits (shared (mixed t)) packet.val := fits
    cases result with
    | error other => contradiction
    | ok u =>
      rw [baseNext, SegmentedInference.processAdmits settled also fits launch, mixedPopped]
      rfl

theorem flushMixed (checked : config.checked = .ok config) (streams : Streams config rate s) :
    baseNext host model (shared (mixed s)) .flush =
      ((callFlush host s).1, shared (mixed (callFlush host s).2)) := by
  have harvests := harvestMixed host model checked streams
  rcases settled : exec (SegmentedInference.harvestInference host model) (shared (mixed s)) with
    ⟨result, b⟩
  rw [settled] at harvests
  rcases flushCases host s with ⟨e, t, raised, call⟩ | ⟨t, harvest, call⟩
  · rw [raised] at harvests
    obtain ⟨ends, rfl⟩ := harvests
    cases result with
    | ok u => contradiction
    | error other =>
      rw [baseNext, SegmentedInference.flushRaises settled, call]
      rfl
  · rw [harvest] at harvests
    obtain ⟨ends, rfl⟩ := harvests
    cases result with
    | error other => contradiction
    | ok u =>
      rw [baseNext, SegmentedInference.flushDrains settled, call]
      rfl

theorem endsMixed (outcome : InferenceOutcome) (s : State) :
    SegmentedInference.inferenceEnds (mixedOutcome s outcome) (shared (mixed s)) =
      (inferenceEnds outcome s).map (fun t => shared (mixed t)) := by
  rcases task : s.inferenceTask with _ | ⟨segment, _ | done⟩ <;>
    simp [SegmentedInference.inferenceEnds, inferenceEnds, shared, mixed, mixedTask, task]
  exact congrFun (mixedSame rfl rfl) outcome

theorem nextMixed (checked : config.checked = .ok config) (same : SameCheck host model)
    (streams : Streams config rate s) (length : target (newState config) rate = .ok frames)
    (positive : 1 ≤ frames) {event : Event} (one : OneStream host rate event)
    (finite : Arrives host event → (limit (newState config) rate).isFinite = true)
    (kept : (next host s event).2.droppedPackets = s.droppedPackets) :
    baseNext host model (shared (mixed s)) (mixedEvent s event) =
      ((next host s event).1, shared (mixed (next host s event).2)) := by
  cases event with
  | process payload => exact processMixed checked same streams length positive one finite kept
  | flush => exact flushMixed checked streams
  | reset => rfl
  | inferenceEnds outcome =>
    rw [mixedEvent, baseNext, next, endsMixed]
    cases inferenceEnds outcome s <;> rfl

end Calls

section Runs
variable {host : HostOrder} {model : SegmentModel} {config : MDX23CVocalsConfig} {rate : Nat}
  {frames : Int}

def handed (host : HostOrder) (config : MDX23CVocalsConfig) (events : List Event) : List Event :=
  seen (next host) mixedEvent (newState config) events

theorem runMixed (checked : config.checked = .ok config) (same : SameCheck host model)
    (length : target (newState config) rate = .ok frames) (positive : 1 ≤ frames)
    {events : List Event} (one : ∀ event ∈ events, OneStream host rate event)
    (finite : (∃ event ∈ events, Arrives host event) → (limit (newState config) rate).isFinite = true)
    (kept : (run host (newState config) events).droppedPackets = 0) :
    answers (baseNext host model) (shared (newState config)) (handed host config events) =
        answers (next host) (newState config) events ∧
      final (baseNext host model) (shared (newState config)) (handed host config events) =
        shared (mixed (run host (newState config) events)) := by
  refine lockstepSeen (s := newState config) (fun s => shared (mixed s)) mixedEvent
    (fun before event cut => ?_)
  have inside : event ∈ events := cut.subset (by simp)
  have streams := runStreams checked
    (fun other within => one other (cut.subset (List.mem_append_left _ within)))
  have first := droppedPrefix host (newState config) ((List.prefix_append _ _).trans cut)
  have second := droppedPrefix host (newState config) cut
  rw [kept] at first second
  rw [runSnoc] at second
  refine nextMixed checked same streams length positive (one event inside)
    (fun arrives => finite ⟨event, inside, arrives⟩) ?_
  exact (Nat.le_zero.mp second).trans (Nat.le_zero.mp first).symm

theorem fadesSelf (host : HostOrder) (config : MDX23CVocalsConfig) (events : List Event) :
    (fadesRun host config events).self = run host (newState config) events := by
  induction events using List.reverseRecOn with
  | nil => rfl
  | append_singleton events event ih =>
    rw [runSnoc, fadesRun, List.foldl_append, ← fadesRun, ← ih]
    cases event with
    | process payload =>
      rw [List.foldl_cons, List.foldl_nil, fadesNext]
      split <;> rfl
    | flush => rfl
    | reset => rfl
    | inferenceEnds outcome => rfl

/- The result is mixed with the tail of the last one harvested, which was never mixed
itself. -/
theorem handedResult (host : HostOrder) (checked : config.checked = .ok config)
    {before events : List Event} {output : List UInt32}
    (cut : before ++ [.inferenceEnds (.returned output)] <+: events) :
    (handed host config events)[before.length]? = some (.inferenceEnds (.returned
      ((floats.fading config.overlap).fadeIn ((fadesRun host config before).raws.getLast?.bind
        (floats.fading config.overlap).lastFrames) output))) := by
  have fades := runCrossfades host checked before
  have same : final (next host) (newState config) before = (fadesRun host config before).self :=
    (fadesSelf host config before).symm
  rw [handed, seenAt (next host) (newState config) mixedEvent cut, same, mixedEvent, mixedOutcome,
    fadeExact, fades.constant, fades.tail]

theorem handedOther (host : HostOrder) (config : MDX23CVocalsConfig) {before events : List Event}
    {event : Event} (cut : before ++ [event] <+: events)
    (other : ∀ output, event ≠ .inferenceEnds (.returned output)) :
    (handed host config events)[before.length]? = some event := by
  rw [handed, seenAt (next host) (newState config) mixedEvent cut]
  cases event with
  | process payload => rfl
  | flush => rfl
  | reset => rfl
  | inferenceEnds outcome =>
    cases outcome with
    | returned output => exact absurd rfl (other output)
    | raised text => rfl
    | cancelled => rfl

theorem refinesBase (host : HostOrder) (model : SegmentModel) (config : MDX23CVocalsConfig)
    (checked : config.checked = .ok config) (same : SameCheck host model) (rate : Nat) (frames : Int)
    (length : target (newState config) rate = .ok frames) (positive : 1 ≤ frames)
    (events : List Event) (one : ∀ event ∈ events, OneStream host rate event)
    (finite : (∃ event ∈ events, Arrives host event) → (limit (newState config) rate).isFinite = true)
    (kept : (run host (newState config) events).droppedPackets = 0) :
    answers (next host) (newState config) events = answers (baseNext host model)
        { segmentSeconds := config.segmentSeconds } (handed host config events) ∧
      (∀ before output, before ++ [.inferenceEnds (.returned output)] <+: events →
        (handed host config events)[before.length]? = some (.inferenceEnds (.returned
          ((floats.fading config.overlap).fadeIn ((fadesRun host config before).raws.getLast?.bind
            (floats.fading config.overlap).lastFrames) output)))) ∧
      ∀ before event, before ++ [event] <+: events →
        (∀ output, event ≠ .inferenceEnds (.returned output)) →
          (handed host config events)[before.length]? = some event :=
  ⟨(runMixed checked same length positive one finite kept).1.symm,
    fun _ _ cut => handedResult host checked cut, fun _ _ cut other => handedOther host config cut other⟩

theorem quarterOneStream : ∀ event ∈ twoSegments, OneStream .little 16 event := by
  have packets : OneStream .little 16 (.process quarterFrames) := by
    intro packet decoded
    cases Except.ok.inj decoded
    rfl
  intro event inside
  simp only [twoSegments, List.mem_cons, List.not_mem_nil, or_false] at inside
  rcases inside with rfl | rfl | rfl | rfl | rfl
  · exact packets
  · exact InferenceOutcome.noConfusion
  · exact packets
  · exact InferenceOutcome.noConfusion
  · trivial

theorem refinesBaseQuarter : answers (next .little) (newState quarterOverlap) twoSegments =
    answers (baseNext .little htdemucs) { segmentSeconds := 0.25 }
      (handed .little quarterOverlap twoSegments) :=
  (refinesBase .little htdemucs quarterOverlap rfl (stereoCheck .little (registeredStereo (.inl rfl)))
    16 4 (by decide +kernel) (by decide) twoSegments quarterOneStream
    (fun _ => by decide +kernel) (by decide +kernel)).1

end Runs

end KaraokeAnything.Mdx23cVocals
