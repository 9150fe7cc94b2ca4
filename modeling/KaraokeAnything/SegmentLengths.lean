import KaraokeAnything.SegmentLaunches

/-! Inferences that return as many samples as they got: in every run, a result has the
length of the packets it is cut into. -/
namespace KaraokeAnything.SegmentedInference
open ByteOrder Kany Models Python Stateful

abbrev Inference := List UInt32 → Nat → Nat → Except PyError (List UInt32)

def KeepsLength (infer : Inference) : Prop :=
  ∀ samples sampleRate frames output, samples.length = 2 * frames → 0 < sampleRate →
    infer samples sampleRate 2 = .ok output → output.length = samples.length

/- A result is that of the background task with one of the functions; a model need not say
the same thing twice. -/
def Concludes (possible : Inference → Prop) (channels : KanyPacket → Nat) (task : Option InferenceTask)
    (outcome : InferenceOutcome) : Prop :=
  ∀ segment separated, task = some ⟨segment, none⟩ → outcome = .returned separated →
    ∃ infer elapsed realTimeFactor, possible infer ∧
      segment.infer channels infer elapsed = .ok (separated, realTimeFactor)

def Concluded (possible : Inference → Prop) (channels : KanyPacket → Nat)
    (task : List Mdx23cVocals.Event → Option InferenceTask) (events : List Mdx23cVocals.Event) : Prop :=
  ∀ before outcome, before ++ [.inferenceEnds outcome] <+: events →
    Concludes possible channels (task before) outcome

theorem concludedPrefix {possible : Inference → Prop} {channels : KanyPacket → Nat}
    {task : List Mdx23cVocals.Event → Option InferenceTask} {before events : List Mdx23cVocals.Event}
    (cut : before <+: events) (concluded : Concluded possible channels task events) :
    Concluded possible channels task before :=
  fun first outcome inside => concluded first outcome (inside.trans cut)

theorem concludedOnce {possible : Inference → Prop} {channels : KanyPacket → Nat}
    {task : List Mdx23cVocals.Event → Option InferenceTask} {payload : Bytes}
    {outcome : InferenceOutcome}
    (concludes : Concludes possible channels (task [.process payload]) outcome) :
    Concluded possible channels task [.process payload, .inferenceEnds outcome] := by
  intro before other cut
  rcases before with _ | ⟨first, _ | ⟨second, before⟩⟩
  · exact nomatch (List.cons_prefix_cons.mp cut).1
  · obtain ⟨rfl, next⟩ := List.cons_prefix_cons.mp cut
    cases (List.cons_prefix_cons.mp next).1
    exact concludes
  · have length := cut.length_le
    simp only [List.length_append, List.length_cons, List.length_nil] at length
    omega

section Task

structure Fitting (active : List KanyPacket) (task : InferenceTask) : Prop where
  packets : task.segment.packets = active
  samples : task.segment.samples = active.flatMap (·.samples)
  stereo : ∀ packet ∈ active, packet.channels = 2
  returned : ∀ separated, task.outcome = some (.returned separated) →
    separated.length = sampleTotal active

theorem samplesTotal (packets : List KanyPacket) :
    (packets.flatMap (·.samples)).length = sampleTotal packets := by
  rw [List.length_flatMap, sampleTotal]
  refine congrArg List.sum (List.map_congr_left (fun packet _ => ?_))
  rw [packet.sampleCount, Nat.mul_comm]

theorem stereoTotal {packets : List KanyPacket} (stereo : ∀ packet ∈ packets, packet.channels = 2) :
    sampleTotal packets = 2 * frameTotal packets := by
  induction packets with
  | nil => rfl
  | cons packet rest ih =>
    rw [List.forall_mem_cons] at stereo
    have tail := ih stereo.2
    simp only [sampleTotal, frameTotal, List.map_cons, List.sum_cons, stereo.1] at tail ⊢
    omega

theorem fittingStarts {active : List KanyPacket} (stereo : ∀ packet ∈ active, packet.channels = 2)
    (frames : Int) : Fitting active ⟨⟨active, frames, active.flatMap (·.samples)⟩, none⟩ :=
  ⟨rfl, rfl, stereo, nofun⟩

theorem taskAnswered {channels : KanyPacket → Nat} {infer : Inference} {elapsed realTimeFactor : Float}
    {segment : Segment} {separated : List UInt32}
    (ended : segment.infer channels infer elapsed = .ok (separated, realTimeFactor)) :
    ∃ first, first ∈ segment.packets ∧
      infer segment.samples first.sampleRate (channels first) = .ok separated := by
  unfold Segment.infer at ended
  split at ended
  · contradiction
  · rename_i first rest packets
    obtain ⟨result, went, ended⟩ := okBind.mp ended
    obtain ⟨duration, _, ended⟩ := okBind.mp ended
    obtain ⟨factor, _, same⟩ := okBind.mp ended
    cases Except.ok.inj same
    exact ⟨first, packets ▸ List.mem_cons_self, went⟩

theorem fittingEnds {active : List KanyPacket} {segment : Segment} {outcome : InferenceOutcome}
    {possible : Inference → Prop} {channels : KanyPacket → Nat}
    (fitting : Fitting active ⟨segment, none⟩)
    (concludes : Concludes possible channels (some ⟨segment, none⟩) outcome)
    (two : ∀ packet, packet.channels = 2 → channels packet = 2)
    (keeps : ∀ infer, possible infer → KeepsLength infer) :
    Fitting active ⟨segment, some outcome⟩ := by
  refine ⟨fitting.packets, fitting.samples, fitting.stereo, fun separated same => ?_⟩
  obtain ⟨infer, elapsed, factor, may, ended⟩ :=
    concludes segment separated rfl (Option.some.inj same)
  obtain ⟨first, member, went⟩ := taskAnswered ended
  rw [fitting.packets] at member
  have total : segment.samples.length = sampleTotal active :=
    (congrArg List.length fitting.samples).trans (samplesTotal active)
  rw [two first (fitting.stereo first member)] at went
  rw [← total]
  exact keeps infer may _ _ _ _ (total.trans (stereoTotal fitting.stereo))
    first.sampleRateRange.1 went

end Task

section Runs
variable {host : HostOrder} {model : SegmentModel} {s t : State}
variable {possible : Inference → Prop} {channels : KanyPacket → Nat}

structure Sized (s : State) : Prop where
  inputs : ∀ packet ∈ s.inputPackets, packet.channels = 2
  running : ∀ task, s.inferenceTask = some task → Fitting s.activePackets task

theorem sizedIdle (inputs : ∀ packet ∈ s.inputPackets, packet.channels = 2)
    (idle : s.inferenceTask = none) : Sized s := by
  refine ⟨inputs, fun task running => ?_⟩
  rw [idle] at running
  contradiction

theorem harvestSized {result : Except PyError Unit}
    (harvest : exec (harvestInference host model) s = (result, t)) (sized : Sized s) : Sized t := by
  have cases := harvestCases host model s
  rw [harvest] at cases
  cases cases with
  | idle running => exact sized
  | cut separated done size => exact sizedIdle sized.inputs rfl
  | lost outcome done failed => exact sizedIdle sized.inputs rfl

theorem queuedSized {payload : Bytes} {packet : KanyPacket} (stereo : StereoOnly model)
    (decoded : model.decodeAndValidate host payload = .ok packet) (sized : Sized s) :
    Sized (queued s packet) := by
  refine ⟨fun other member => ?_, sized.running⟩
  rcases List.mem_append.mp member with before | new
  · exact sized.inputs other before
  · rw [List.mem_singleton.mp new]
    exact ((stereo host payload packet).mp decoded).2

theorem launchedSized (sized : Sized s) (frames : Int) : Sized (launched s frames) := by
  have split := (takenSegment (·.frames) frames s.inputPackets 0).1
  have inputs := sized.inputs
  rw [split, List.forall_mem_append] at inputs
  refine ⟨inputs.2, fun task same => ?_⟩
  cases Option.some.inj same
  exact fittingStarts inputs.1 _

theorem nextSized (stereo : StereoOnly model)
    (two : ∀ packet : KanyPacket, packet.channels = 2 → channels packet = 2)
    (keeps : ∀ infer, possible infer → KeepsLength infer) (event : Mdx23cVocals.Event)
    (concludes : ∀ outcome, event = .inferenceEnds outcome →
      Concludes possible channels s.inferenceTask outcome)
    (sized : Sized s) : Sized (Mdx23cVocals.baseNext host model s event).2 := by
  cases event with
  | process payload =>
    have cases := callCases host model payload s
    rw [Mdx23cVocals.baseNext]
    generalize exec (process host model payload) s = call at cases
    cases cases with
    | harvestRaised e t raised => exact harvestSized raised sized
    | invalid e t harvest refused => exact harvestSized harvest sized
    | formatChanged e t packet harvest decoded differs => exact harvestSized harvest sized
    | targetRaised e t packet harvest decoded same free raises =>
      exact queuedSized stereo decoded (harvestSized harvest sized)
    | waits t packet harvest decoded same waiting =>
      have after := queuedSized stereo decoded (harvestSized harvest sized)
      exact ⟨after.inputs, after.running⟩
    | launches t packet frames harvest decoded same free known ready =>
      have after := launchedSized (queuedSized stereo decoded (harvestSized harvest sized)) frames
      exact ⟨after.inputs, after.running⟩
  | flush =>
    rw [Mdx23cVocals.baseNext]
    rcases flushCases host model s with ⟨e, t, raised, call⟩ | ⟨t, harvest, call⟩
    · rw [call]
      exact harvestSized raised sized
    · have after := harvestSized harvest sized
      rw [call]
      exact ⟨after.inputs, after.running⟩
  | reset => exact sizedIdle (List.forall_mem_nil _) rfl
  | inferenceEnds outcome =>
    rw [Mdx23cVocals.baseNext]
    cases ends : inferenceEnds outcome s with
    | none => exact sized
    | some t =>
      obtain ⟨segment, running, rfl⟩ := inferenceEnded ends
      have answer := concludes outcome rfl
      rw [running] at answer
      refine ⟨sized.inputs, fun task same => ?_⟩
      cases Option.some.inj same
      exact fittingEnds (sized.running _ running) answer two keeps

theorem runSized (host : HostOrder) (stereo : StereoOnly model) (segmentSeconds : Float)
    (keeps : ∀ infer, possible infer → KeepsLength infer) {events : List Mdx23cVocals.Event}
    (concluded : Concluded possible (·.channels)
      (fun before => (baseRun host model segmentSeconds before).inferenceTask) events) :
    Sized (baseRun host model segmentSeconds events) := by
  induction events using List.reverseRecOn with
  | nil => exact sizedIdle (List.forall_mem_nil _) rfl
  | append_singleton events event ih =>
    rw [baseRun, Lockstep.finalSnoc]
    refine nextSized stereo (fun _ two => two) keeps event (fun outcome same => ?_)
      (ih (concludedPrefix (List.prefix_append _ _) concluded))
    subst same
    exact concluded events outcome (List.prefix_refl _)

def Matches (host : HostOrder) (model : SegmentModel) (s : State) : Prop :=
  ∀ separated, s.inferenceTask.bind (·.outcome) = some (.returned separated) →
    separated.length = sampleTotal s.activePackets ∧
    (exec (harvestInference host model) s).1 = .ok ()

theorem sizedMatch (sized : Sized s) : Matches host model s := by
  intro separated done
  obtain ⟨task, running, outcome⟩ := Option.bind_eq_some_iff.mp done
  have size := (sized.running task running).returned separated outcome
  exact ⟨size, by rw [harvestReady host model done size]⟩

end Runs

end KaraokeAnything.SegmentedInference

namespace KaraokeAnything.Mdx23cVocals
open ByteOrder Kany Models Python Stateful
open Processors (MDX23CVocalsConfig)
open SegmentedInference (Fitting Concluded Inference Concludes KeepsLength fittingEnds fittingStarts
  concludedPrefix takenSegment)

variable {host : HostOrder} {s t : State} {possible : Inference → Prop}

def Sized (s : State) : Prop :=
  ∀ task, s.inferenceTask = some task → Fitting (items s.activePackets) task

theorem itemsStereo (packets : List StereoPacket) : ∀ packet ∈ items packets, packet.channels = 2 := by
  intro packet member
  obtain ⟨item, _, rfl⟩ := List.mem_map.mp member
  exact item.property

theorem sizedIdle (idle : s.inferenceTask = none) : Sized s := by
  intro task running
  rw [idle] at running
  contradiction

theorem harvestSized {result : Except PyError Unit}
    (harvest : exec (harvestInference host) s = (result, t)) (sized : Sized s) : Sized t := by
  have cases := harvestCases host s
  rw [harvest] at cases
  cases cases with
  | idle running => exact sized
  | cut output done size finite => exact sizedIdle rfl
  | lost outcome e done failed => exact sizedIdle rfl
  | stuck outcome e done kept infinite => exact sizedIdle rfl

theorem launchedSized (sized : Sized s) (frames : Int) : Sized (launchedWhenReady s frames) := by
  unfold launchedWhenReady
  split
  · intro task same
    cases Option.some.inj same
    exact fittingStarts (itemsStereo _) _
  · exact sized

theorem nextSized (keeps : ∀ infer, possible infer → KeepsLength infer) (event : Event)
    (concludes : ∀ outcome, event = .inferenceEnds outcome →
      Concludes possible (fun _ => 2) s.inferenceTask outcome)
    (sized : Sized s) : Sized (next host s event).2 := by
  cases event with
  | process payload =>
    have cases := callCases host payload s
    rw [next]
    generalize callProcess host payload s = call at cases
    cases cases with
    | harvestRaised e t raised => exact harvestSized raised sized
    | invalid e t harvest refused => exact harvestSized harvest sized
    | formatChanged t packet harvest decoded differs => exact sizedIdle rfl
    | limitRaised t packet harvest decoded same infinite =>
      have after : Sized t := harvestSized harvest sized
      exact after
    | admits t packet maximum frames harvest decoded same room length =>
      have before : Sized (admitted t packet maximum) := (harvestSized harvest sized : Sized t)
      exact launchedSized before frames
  | flush =>
    rcases flushCases host s with ⟨e, t, raised, call⟩ | ⟨t, harvest, call⟩
    · rw [next, call]
      exact harvestSized raised sized
    · have after : Sized t := harvestSized harvest sized
      rw [next, call]
      exact after
  | reset => exact sizedIdle rfl
  | inferenceEnds outcome =>
    rw [next]
    cases ends : inferenceEnds outcome s with
    | none => exact sized
    | some t =>
      obtain ⟨segment, running, rfl⟩ := inferenceEnded ends
      have answer := concludes outcome rfl
      rw [running] at answer
      intro task same
      cases Option.some.inj same
      exact fittingEnds (sized _ running) answer (fun _ _ => rfl) keeps

theorem runSized (host : HostOrder) (config : MDX23CVocalsConfig)
    (keeps : ∀ infer, possible infer → KeepsLength infer) {events : List Event}
    (concluded : Concluded possible (fun _ => 2)
      (fun before => (run host (newState config) before).inferenceTask) events) :
    Sized (run host (newState config) events) := by
  induction events using List.reverseRecOn with
  | nil => exact sizedIdle rfl
  | append_singleton events event ih =>
    rw [runSnoc]
    refine nextSized keeps event (fun outcome same => ?_)
      (ih (concludedPrefix (List.prefix_append _ _) concluded))
    subst same
    exact concluded events outcome (List.prefix_refl _)

def Matches (host : HostOrder) (s : State) : Prop :=
  ∀ separated, s.inferenceTask.bind (·.outcome) = some (.returned separated) →
    separated.length = sampleTotal s.activePackets ∧ (exec (harvestInference host) s).1 = .ok ()

theorem sizedMatch (sound : Sound s) (sized : Sized s) : Matches host s := by
  intro separated done
  obtain ⟨task, running, outcome⟩ := Option.bind_eq_some_iff.mp done
  have size := (sized task running).returned separated outcome
  rw [← sampleTotalItems] at size
  have finite := fadeFinite sound.parameters sound.short size
  exact ⟨size, by rw [harvestReady host done size finite]⟩

end KaraokeAnything.Mdx23cVocals
