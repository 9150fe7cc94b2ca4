import KaraokeAnything.Mdx23cBounds

/-! What a harvest leaves behind when it raises, in both copies of the segment machinery:
only MDX23C keeps the packets of a segment whose inference was cancelled. -/
namespace KaraokeAnything.SegmentedInference
open ByteOrder Kany Models Python Stateful

structure FailsClean (s : State) (call : Except PyError Unit × State) : Prop where
  raises : ∃ e, call.1 = .error e
  inferenceTask : call.2.inferenceTask = none
  activePackets : call.2.activePackets = []
  readyOutput : call.2.readyOutput = s.readyOutput
  inputPackets : call.2.inputPackets = s.inputPackets
  inputFrames : call.2.inputFrames = s.inputFrames
  streamSampleRate : call.2.streamSampleRate = s.streamSampleRate
  streamChannels : call.2.streamChannels = s.streamChannels
  segmentsCompleted : call.2.segmentsCompleted = s.segmentsCompleted

theorem failedClean (host : HostOrder) (model : SegmentModel) {s : State}
    {outcome : InferenceOutcome} (done : s.inferenceTask.bind (·.outcome) = some outcome)
    (failed : Failed s outcome) : FailsClean s (exec (harvestInference host model) s) := by
  rw [harvestFailed host model done failed]
  exact ⟨⟨_, rfl⟩, rfl, rfl, rfl, rfl, rfl, rfl, rfl, rfl⟩

end KaraokeAnything.SegmentedInference

namespace KaraokeAnything.Mdx23cVocals
open ByteOrder Kany Models Python Stateful
open Processors (MDX23CVocalsConfig)
open SegmentedInference (InferenceOutcome SegmentModel)

def Unsuccessful (s : State) (outcome : InferenceOutcome) : Prop :=
  ∀ output, outcome = .returned output → output.length ≠ sampleTotal s.activePackets

structure FailsClean (s : State) (call : Except PyError Unit × State) : Prop where
  raises : ∃ e, call.1 = .error e
  inferenceTask : call.2.inferenceTask = none
  activePackets : call.2.activePackets = []
  readyOutput : call.2.readyOutput = s.readyOutput
  inputPackets : call.2.inputPackets = s.inputPackets
  inputFrames : call.2.inputFrames = s.inputFrames
  streamSampleRate : call.2.streamSampleRate = s.streamSampleRate
  streamChannels : call.2.streamChannels = s.streamChannels
  segmentsCompleted : call.2.segmentsCompleted = s.segmentsCompleted
  previousTail : call.2.previousTail = s.previousTail

theorem unsuccessfulClean (host : HostOrder) {s : State} {outcome : InferenceOutcome}
    (done : s.inferenceTask.bind (·.outcome) = some outcome) (lost : Unsuccessful s outcome) :
    FailsClean s (exec (harvestInference host) s) ↔
      outcome ≠ .cancelled ∨ s.activePackets = [] := by
  cases outcome with
  | cancelled =>
    obtain ⟨e, stuck⟩ := harvestStuck host done id nofun
    rw [stuck]
    refine ⟨fun clean => .inr clean.activePackets, fun empty => ?_⟩
    have active : s.activePackets = [] := empty.resolve_left (· rfl)
    exact ⟨⟨_, rfl⟩, rfl, active, rfl, rfl, rfl, rfl, rfl, rfl, rfl⟩
  | raised text =>
    obtain ⟨e, raised⟩ := harvestFailed host done trivial
    rw [raised]
    exact ⟨fun _ => .inl nofun, fun _ => ⟨⟨_, rfl⟩, rfl, rfl, rfl, rfl, rfl, rfl, rfl, rfl, rfl⟩⟩
  | returned output =>
    obtain ⟨e, raised⟩ := harvestFailed host done (lost output rfl)
    rw [raised]
    exact ⟨fun _ => .inl nofun, fun _ => ⟨⟨_, rfl⟩, rfl, rfl, rfl, rfl, rfl, rfl, rfl, rfl, rfl⟩⟩

theorem failedSegmentClean (host : HostOrder) (model : SegmentModel) :
    (∀ (s : SegmentedInference.State) outcome,
      s.inferenceTask.bind (·.outcome) = some outcome → SegmentedInference.Failed s outcome →
      SegmentedInference.FailsClean s (exec (SegmentedInference.harvestInference host model) s)) ∧
    ∀ (s : State) outcome,
      s.inferenceTask.bind (·.outcome) = some outcome → Unsuccessful s outcome →
      (FailsClean s (exec (harvestInference host) s) ↔
        outcome ≠ .cancelled ∨ s.activePackets = []) :=
  ⟨fun _ _ done failed => SegmentedInference.failedClean host model done failed,
    fun _ _ done lost => unsuccessfulClean host done lost⟩

def quarterRun (outcome : InferenceOutcome) : State :=
  run .little (newState quarterSecond) [.process slowFrame, .inferenceEnds outcome]

theorem failedSegmentCleanRaised :
    FailsClean (quarterRun (.raised "")) (exec (harvestInference .little) (quarterRun (.raised ""))) :=
  ((failedSegmentClean .little SegmentedInference.htdemucs).2 _ (.raised "") (by decide +kernel)
    nofun).mpr (.inl nofun)

theorem cancelledSegmentStays : ¬ ∀ (config : MDX23CVocalsConfig), config.checked = .ok config →
    ∀ events outcome, let s := run .little (newState config) events
      s.inferenceTask.bind (·.outcome) = some outcome → Unsuccessful s outcome →
      FailsClean s (exec (harvestInference .little) s) := by
  intro clean
  have done : (quarterRun .cancelled).inferenceTask.bind (·.outcome) = some .cancelled := by
    decide +kernel
  have kept := clean quarterSecond (by rfl) [.process slowFrame, .inferenceEnds .cancelled] .cancelled
    done nofun
  have active := ((unsuccessfulClean .little done nofun).mp kept).resolve_left (· rfl)
  exact absurd active (by decide +kernel)

end KaraokeAnything.Mdx23cVocals
