import KaraokeAnything.Library.Trials
import KaraokeAnything.SegmentFailures
import KaraokeAnything.SegmentRuns

/-! `last_error` of both copies of the segment machinery over whole runs: whether it says
that the segment harvested last failed. Arrays of the wrong length do not set it. -/
namespace KaraokeAnything.SegmentedInference
open ByteOrder Kany Models Python Stateful Trials

def harvestTrial (s : State) : Trial :=
  match s.inferenceTask.bind (·.outcome) with
  | none => .quiet
  | some (.returned separated) =>
    if separated.length = sampleTotal s.activePackets then .passed else .failed false
  | some (.raised _) => .failed true
  | some .cancelled => .failed false

def trialOf (s : State) : Mdx23cVocals.Event → Trial
  | .process _ | .flush => harvestTrial s
  | .reset => .cleared
  | .inferenceEnds _ => .quiet

section Flag
variable {host : HostOrder} {model : SegmentModel} {s t u : State}

theorem harvestFlag {result : Except PyError Unit}
    (harvest : exec (harvestInference host model) s = (result, t)) (kept : u.lastError = t.lastError) :
    u.lastError.isSome = flagAfter s.lastError.isSome (harvestTrial s) := by
  rw [kept]
  have cases := harvestCases host model s
  rw [harvest] at cases
  cases cases with
  | idle running => simp [harvestTrial, running, flagAfter]
  | cut separated done size => simp [harvestTrial, done, size, harvested, flagAfter]
  | lost outcome done failed =>
    cases outcome with
    | returned separated =>
      simp [harvestTrial, done, failed separated rfl, afterFailure, flagAfter]
    | raised text => simp [harvestTrial, done, afterFailure, flagAfter]
    | cancelled => simp [harvestTrial, done, afterFailure, flagAfter]

theorem nextFlag (host : HostOrder) (model : SegmentModel) (s : State)
    (event : Mdx23cVocals.Event) :
    (Mdx23cVocals.baseNext host model s event).2.lastError.isSome =
      flagAfter s.lastError.isSome (trialOf s event) := by
  cases event with
  | process payload =>
    have cases := callCases host model payload s
    rw [Mdx23cVocals.baseNext, trialOf]
    generalize exec (process host model payload) s = call at cases
    cases cases with
    | harvestRaised e t raised => exact harvestFlag raised rfl
    | invalid e t harvest refused => exact harvestFlag harvest rfl
    | formatChanged e t packet harvest decoded differs => exact harvestFlag harvest rfl
    | targetRaised e t packet harvest decoded fits free raises => exact harvestFlag harvest rfl
    | waits t packet harvest decoded fits waiting => exact harvestFlag harvest rfl
    | launches t packet frames harvest decoded fits free known ready => exact harvestFlag harvest rfl
  | flush =>
    rw [Mdx23cVocals.baseNext, trialOf]
    rcases flushCases host model s with ⟨e, t, raised, call⟩ | ⟨t, harvest, call⟩
    · rw [call]
      exact harvestFlag raised rfl
    · rw [call]
      exact harvestFlag harvest rfl
  | reset => rfl
  | inferenceEnds outcome =>
    rw [Mdx23cVocals.baseNext]
    cases ends : inferenceEnds outcome s with
    | none => rfl
    | some t =>
      obtain ⟨segment, _, rfl⟩ := inferenceEnded ends
      rfl

end Flag

def watched (host : HostOrder) (model : SegmentModel) (s : State) (event : Mdx23cVocals.Event) :
    Trial × State := (trialOf s event, (Mdx23cVocals.baseNext host model s event).2)

def trials (host : HostOrder) (model : SegmentModel) (segmentSeconds : Float)
    (events : List Mdx23cVocals.Event) : List Trial :=
  Lockstep.answers (watched host model) { segmentSeconds } events

theorem lastErrorTells (host : HostOrder) (model : SegmentModel) (segmentSeconds : Float)
    (events : List Mdx23cVocals.Event) :
    (∀ before, before <+: events → (baseRun host model segmentSeconds before).lastError.isSome =
      lastFailed (trials host model segmentSeconds before)) ↔
    ∀ before event, before ++ [event] <+: events →
      trialOf (baseRun host model segmentSeconds before) event = .failed false →
        lastFailed (trials host model segmentSeconds before) = true :=
  flagRight (watched host model) (fun s => s.lastError.isSome) rfl
    (fun _ event _ => nextFlag host model _ event)

end KaraokeAnything.SegmentedInference

namespace KaraokeAnything.Mdx23cVocals
open ByteOrder Kany Models Python Stateful Trials
open Processors (MDX23CVocalsConfig)
open SegmentedInference (InferenceOutcome SegmentModel)

instance (s : State) (packet : StereoPacket) : Decidable (FormatFits s packet) :=
  match known : s.streamSampleRate with
  | none => .isTrue (fun rate same => by rw [known] at same; contradiction)
  | some rate => decidable_of_iff
    (packet.val.sampleRate = rate ∧ some packet.val.channels = s.streamChannels)
    ⟨fun fits other same => by cases known.symm.trans same; exact fits, fun fits => fits rate known⟩

def formatResets (host : HostOrder) (s : State) (payload : Bytes) : Bool :=
  match exec (harvestInference host) s, decodeAndValidate host payload with
  | (.ok _, t), .ok packet => !decide (FormatFits t packet)
  | _, _ => false

def harvestTrial (s : State) : Trial :=
  match s.inferenceTask.bind (·.outcome) with
  | none => .quiet
  | some (.returned output) =>
    if output.length = sampleTotal s.activePackets then .passed else .failed false
  | some (.raised _) => .failed true
  | some .cancelled => .failed false

def trialOf (host : HostOrder) (s : State) : Event → Trial
  | .process payload => if formatResets host s payload then .cleared else harvestTrial s
  | .flush => harvestTrial s
  | .reset => .cleared
  | .inferenceEnds _ => .quiet

section Flag
variable {host : HostOrder} {s t u : State}

theorem harvestFlag (sound : Sound s) {result : Except PyError Unit}
    (harvest : exec (harvestInference host) s = (result, t)) (kept : u.lastError = t.lastError) :
    u.lastError.isSome = flagAfter s.lastError.isSome (harvestTrial s) := by
  rw [kept]
  have cases := harvestCases host s
  rw [harvest] at cases
  cases cases with
  | idle running => simp [harvestTrial, running, flagAfter]
  | cut output done size finite => simp [harvestTrial, done, size, harvested, flagAfter]
  | lost outcome e done failed =>
    cases outcome with
    | returned output =>
      have size : output.length ≠ sampleTotal s.activePackets := failed
      simp [harvestTrial, done, size, afterFailure, flagAfter]
    | raised text => simp [harvestTrial, done, afterFailure, flagAfter]
    | cancelled => exact failed.elim
  | stuck outcome e done kept infinite =>
    cases outcome with
    | returned output =>
      have size : output.length = sampleTotal s.activePackets := by_contra kept
      have finite := fadeFinite sound.parameters sound.short size
      rw [infinite output rfl] at finite
      contradiction
    | raised text => exact absurd trivial kept
    | cancelled => simp [harvestTrial, done, flagAfter]

theorem nextFlag (sound : Sound s) (event : Event) : (next host s event).2.lastError.isSome =
    flagAfter s.lastError.isSome (trialOf host s event) := by
  cases event with
  | process payload =>
    have cases := callCases host payload s
    rw [next, trialOf, formatResets]
    generalize callProcess host payload s = call at cases
    cases cases with
    | harvestRaised e t raised =>
      simp only [raised]
      exact harvestFlag sound raised rfl
    | invalid e t harvest refused =>
      simp only [harvest, refused]
      exact harvestFlag sound harvest rfl
    | formatChanged t packet harvest decoded differs =>
      simp only [harvest, decoded, differs, decide_false, Bool.not_false, if_true]
      rfl
    | limitRaised t packet harvest decoded fits infinite =>
      simp only [harvest, decoded, fits, decide_true, Bool.not_true]
      exact harvestFlag sound harvest rfl
    | admits t packet maximum frames harvest decoded fits room length =>
      simp only [harvest, decoded, fits, decide_true, Bool.not_true, answered, launchedWhenReady]
      split <;> exact harvestFlag sound harvest rfl
  | flush =>
    rw [trialOf]
    rcases flushCases host s with ⟨e, t, raised, call⟩ | ⟨t, harvest, call⟩
    · rw [next, call]
      exact harvestFlag sound raised rfl
    · rw [next, call]
      exact harvestFlag sound harvest rfl
  | reset => rfl
  | inferenceEnds outcome =>
    rw [next]
    cases ends : inferenceEnds outcome s with
    | none => rfl
    | some t =>
      obtain ⟨segment, _, rfl⟩ := inferenceEnded ends
      rfl

end Flag

def watched (host : HostOrder) (s : State) (event : Event) : Trial × State :=
  (trialOf host s event, (next host s event).2)

def trials (host : HostOrder) (config : MDX23CVocalsConfig) (events : List Event) : List Trial :=
  Lockstep.answers (watched host) (newState config) events

theorem lastErrorTells (host : HostOrder) {config : MDX23CVocalsConfig}
    (checked : config.checked = .ok config) (events : List Event) :
    (∀ before, before <+: events → (run host (newState config) before).lastError.isSome =
      lastFailed (trials host config before)) ↔
    ∀ before event, before ++ [event] <+: events →
      trialOf host (run host (newState config) before) event = .failed false →
        lastFailed (trials host config before) = true :=
  flagRight (watched host) (fun s => s.lastError.isSome) rfl
    (fun before event _ => nextFlag (runSound checked before) event)

theorem failuresVisible (host : HostOrder) (model : SegmentModel) (segmentSeconds : Float)
    (config : MDX23CVocalsConfig) (checked : config.checked = .ok config) (events : List Event) :
    ((∀ before, before <+: events →
        (SegmentedInference.baseRun host model segmentSeconds before).lastError.isSome =
          lastFailed (SegmentedInference.trials host model segmentSeconds before)) ↔
      ∀ before event, before ++ [event] <+: events →
        SegmentedInference.trialOf (SegmentedInference.baseRun host model segmentSeconds before) event =
          .failed false →
        lastFailed (SegmentedInference.trials host model segmentSeconds before) = true) ∧
    ((∀ before, before <+: events → (run host (newState config) before).lastError.isSome =
        lastFailed (trials host config before)) ↔
      ∀ before event, before ++ [event] <+: events →
        trialOf host (run host (newState config) before) event = .failed false →
        lastFailed (trials host config before) = true) :=
  ⟨SegmentedInference.lastErrorTells host model segmentSeconds events,
    lastErrorTells host checked events⟩

def twiceFailed : List Event := [.process slowFrame, .inferenceEnds (.raised "out of memory"), .flush,
  .process slowFrame, .inferenceEnds (.returned []), .flush]

theorem failuresVisibleTwice : (run .little (newState quarterSecond) twiceFailed).lastError.isSome =
    lastFailed (trials .little quarterSecond twiceFailed) := by
  refine (failuresVisible .little SegmentedInference.htdemucs 1 quarterSecond (by rfl)
    twiceFailed).2.mpr (fun before event cut silent => ?_) _ (List.prefix_refl _)
  obtain ⟨same, there⟩ := prefixAt cut
  have short : before.length < 6 := (List.getElem?_eq_some_iff.mp there).1
  rw [same] at silent ⊢
  generalize before.length = i at there short silent ⊢
  interval_cases i
  all_goals cases there
  -- only the last flush finds a result of the wrong length
  iterate 5
    · exact absurd silent (by decide +kernel)
  · decide +kernel

def shortened : List Event := [.process slowFrame, .inferenceEnds (.returned []), .flush]

theorem shortResultUnseen :
    (¬ ∀ (model : SegmentModel) (segmentSeconds : Float) (events : List Event),
      (SegmentedInference.baseRun .little model segmentSeconds events).lastError.isSome =
        lastFailed (SegmentedInference.trials .little model segmentSeconds events)) ∧
    ¬ ∀ (config : MDX23CVocalsConfig), config.checked = .ok config → ∀ events : List Event,
      (run .little (newState config) events).lastError.isSome =
        lastFailed (trials .little config events) :=
  ⟨fun visible => absurd (visible SegmentedInference.htdemucs 0.25 shortened) (by decide +kernel),
    fun visible => absurd (visible quarterSecond (by rfl) shortened) (by decide +kernel)⟩

end KaraokeAnything.Mdx23cVocals
