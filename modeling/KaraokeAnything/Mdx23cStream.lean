import KaraokeAnything.Mdx23cBounds

/-! MDX23C on one stream, whatever its buffer drops: the parameters and the format
stay, and no segment is so long that its frames leave the exact floats. -/
namespace KaraokeAnything.Mdx23cVocals
open Binary64
open ByteOrder Kany Models Python Stateful
open SegmentedInference (InferenceOutcome takeSegment takenSegment)
open Processors (MDX23CVocalsConfig)

def OneStream (host : HostOrder) (rate : Nat) : Event → Prop
  | .process payload => ∀ packet, decodeAndValidate host payload = .ok packet →
    packet.val.sampleRate = rate
  | .inferenceEnds outcome => outcome ≠ .cancelled
  | _ => True

def Arrives (host : HostOrder) : Event → Prop
  | .process payload => ∃ packet, decodeAndValidate host payload = .ok packet
  | _ => False

theorem firstArrival {host : HostOrder} {events : List Event}
    (arrives : ∃ event ∈ events, Arrives host event) :
    ∃ before event, before ++ [event] <+: events ∧ Arrives host event ∧
      ∀ other ∈ before, ¬ Arrives host other := by
  induction events with
  | nil =>
    obtain ⟨event, inside, _⟩ := arrives
    contradiction
  | cons head rest ih =>
    by_cases now : Arrives host head
    · exact ⟨[], head, ⟨rest, rfl⟩, now, nofun⟩
    · have later : ∃ event ∈ rest, Arrives host event := by
        obtain ⟨event, inside, comes⟩ := arrives
        rcases List.mem_cons.mp inside with rfl | inside
        · contradiction
        · exact ⟨event, inside, comes⟩
      obtain ⟨before, event, ⟨after, cut⟩, comes, quiet⟩ := ih later
      refine ⟨head :: before, event, ⟨after, by rw [← cut]; rfl⟩, comes, fun other inside => ?_⟩
      rcases List.mem_cons.mp inside with rfl | inside
      · exact now
      · exact quiet other inside

section Sizes

theorem takenFrames (target : Int) (packets : List StereoPacket) (frames : Int) :
    (takeSegment (·.val.frames) target packets frames).2.1 ≤ max frames (target + 65535) := by
  induction packets generalizing frames with
  | nil => exact Int.le_max_left _ _
  | cons packet rest ih =>
    have most := packet.val.framesRange.2
    have more := ih (frames + packet.val.frames)
    simp only [takeSegment]
    split
    · refine more.trans ?_
      omega
    · exact Int.le_max_left _ _

theorem targetSmall {s : State} (parameters : Parameters s) {rate : Nat} (low : rate < 2 ^ 32)
    {frames : Int} (length : target s rate = .ok frames) : frames ≤ 2 ^ 38 :=
  roundAtMost (mulBelow (by decide) (by decide) (ofNatBelow low (by decide)) parameters.twoSeconds)
    length

theorem fadeFinite {s : State} (parameters : Parameters s)
    (short : frameTotal s.activePackets < 2 ^ 40) {output : List UInt32}
    (size : output.length = sampleTotal s.activePackets) :
    (fadeLength s output).isFinite = true := by
  rw [sampleTotalFrames] at size
  have frames : output.length / 2 < 2 ^ 40 := by omega
  exact belowFinite (mulBelow (by decide) (by decide) (ofNatBelow frames (by decide))
    parameters.overlap)

end Sizes

section Streams
variable {host : HostOrder} {config : MDX23CVocalsConfig} {rate : Nat} {s : State}

structure Streams (config : MDX23CVocalsConfig) (rate : Nat) (s : State) : Prop where
  seconds : s.segmentSeconds = config.segmentSeconds
  overlap : s.overlap = config.overlap
  segments : s.maxBufferedSegments = config.maxBufferedSegments
  short : frameTotal s.activePackets < 2 ^ 40
  format : s.streamSampleRate = none ∨
    s.streamSampleRate = some rate ∧ s.streamChannels = some 2
  unset : Unset s
  uncancelled : s.inferenceTask.bind (·.outcome) ≠ some .cancelled

theorem streamsNew (config : MDX23CVocalsConfig) (rate : Nat) :
    Streams config rate (newState config) :=
  ⟨rfl, rfl, rfl, Nat.two_pow_pos 40, .inl rfl, fun _ => rfl, nofun⟩

theorem streamsParameters (streams : Streams config rate s) (checked : config.checked = .ok config) :
    Parameters s := by
  have parameters := checkedParameters checked
  refine ⟨?_, ?_, ?_⟩
  · rw [streams.seconds]
    exact parameters.seconds
  · rw [streams.seconds]
    exact parameters.twoSeconds
  · rw [streams.overlap]
    exact parameters.overlap

theorem streamsLimit (streams : Streams config rate s) (other : Nat) :
    limit s other = limit (newState config) other := by
  rw [limit, streams.seconds, streams.segments]
  rfl

theorem streamsTarget (streams : Streams config rate s) (other : Nat) :
    target s other = target (newState config) other := by
  rw [target, streams.seconds]
  rfl

theorem formatFits (streams : Streams config rate s) {packet : StereoPacket}
    (known : packet.val.sampleRate = rate) : FormatFits s packet := by
  intro other format
  rcases streams.format with unset | ⟨same, channels⟩
  · rw [unset] at format
    contradiction
  · rw [same] at format
    cases Option.some.inj format
    exact ⟨known, channels ▸ congrArg some packet.property⟩

theorem settledStreams (streams : Streams config rate s) {active : List StereoPacket}
    (short : frameTotal active < 2 ^ 40) (ready : List ProcessedPacket)
    (tail : Option (List UInt32)) (completed : Nat) (error : Option String) :
    Streams config rate { s with
      inferenceTask := none, activePackets := active, readyOutput := ready, previousTail := tail
      segmentsCompleted := completed, lastError := error } where
  seconds := streams.seconds
  overlap := streams.overlap
  segments := streams.segments
  short := short
  format := streams.format
  unset _ := rfl
  uncancelled := nofun

theorem harvestStreams (streams : Streams config rate s) {t : State}
    {result : Except PyError Unit} (harvest : exec (harvestInference host) s = (result, t)) :
    Streams config rate t := by
  have none : frameTotal [] < 2 ^ 40 := Nat.two_pow_pos 40
  suffices settled : Streams config rate (exec (harvestInference host) s).2 by rwa [harvest] at settled
  have went := harvestCases host s
  generalize exec (harvestInference host) s = call at went ⊢
  cases went with
  | idle running => exact streams
  | cut output done size finite => exact settledStreams streams none _ _ _ _
  | lost outcome e done failed => exact settledStreams streams none _ _ _ _
  | stuck outcome e done kept infinite => exact settledStreams streams streams.short _ _ _ _

theorem arrivedStreams (streams : Streams config rate s) {packet : StereoPacket}
    (known : packet.val.sampleRate = rate) (input : List StereoPacket) (frames : Int)
    (dropped : Nat) :
    Streams config rate { withFormat s packet with
      inputPackets := input, inputFrames := frames, droppedPackets := dropped } where
  seconds := streams.seconds
  overlap := streams.overlap
  segments := streams.segments
  short := streams.short
  format := .inr ⟨congrArg some known, congrArg some packet.property⟩
  unset := nofun
  uncancelled := streams.uncancelled

theorem launchedStreams (streams : Streams config rate s) (set : s.streamSampleRate = some rate)
    {frames : Int} (small : frames ≤ 2 ^ 38) :
    Streams config rate (launchedWhenReady s frames) := by
  unfold launchedWhenReady
  split
  · have most := takenFrames frames s.inputPackets 0
    obtain ⟨_, sum⟩ := takenSegment (·.val.frames) frames s.inputPackets 0
    exact {
      seconds := streams.seconds
      overlap := streams.overlap
      segments := streams.segments
      short := by
        change ((takeSegment (·.val.frames) frames s.inputPackets 0).1.map (·.val.frames)).sum < _
        omega
      format := streams.format
      unset := fun fresh => by
        change s.streamSampleRate = none at fresh
        rw [set] at fresh
        contradiction
      uncancelled := nofun }
  · exact streams

theorem processStreams (checked : config.checked = .ok config) (streams : Streams config rate s)
    {payload : Bytes} (one : OneStream host rate (.process payload)) :
    Streams config rate (callProcess host payload s).2 := by
  have cases := callCases host payload s
  generalize callProcess host payload s = call at cases
  cases cases with
  | harvestRaised e t raised => exact harvestStreams streams raised
  | invalid e t harvest refused => exact harvestStreams streams harvest
  | formatChanged t packet harvest decoded differs =>
    exact absurd (formatFits (harvestStreams streams harvest) (one packet decoded)) differs
  | limitRaised t packet harvest decoded fits infinite =>
    exact arrivedStreams (harvestStreams streams harvest) (one packet decoded) _ _ _
  | admits t packet maximum frames harvest decoded fits room length =>
    have known := one packet decoded
    have settled := harvestStreams streams harvest
    have small := targetSmall (streamsParameters settled checked) packet.val.sampleRateRange.2 length
    have arrived : Streams config rate (admitted t packet maximum) :=
      arrivedStreams settled known _ _ _
    have launched := launchedStreams arrived (congrArg some known) small
    exact { launched with
      short := launched.short
      format := launched.format
      unset := launched.unset }

theorem nextStreams (checked : config.checked = .ok config) (streams : Streams config rate s)
    {event : Event} (one : OneStream host rate event) :
    Streams config rate (next host s event).2 := by
  cases event with
  | process payload => exact processStreams checked streams one
  | flush =>
    rcases flushCases host s with ⟨e, t, raised, call⟩ | ⟨t, harvest, call⟩
    · rw [next, call]
      exact harvestStreams streams raised
    · have settled := harvestStreams streams harvest
      rw [next, call]
      exact { settled with
        short := settled.short
        format := settled.format
        unset := settled.unset }
  | reset =>
    refine ⟨streams.seconds, streams.overlap, streams.segments, Nat.two_pow_pos 40, .inl rfl,
      fun _ => rfl, ?_⟩
    exact Option.some_ne_none InferenceOutcome.cancelled ∘ Eq.symm
  | inferenceEnds outcome =>
    have ends : outcome ≠ .cancelled := one
    simp only [next, inferenceEnds]
    split
    · rename_i segment running
      exact { streams with
        short := streams.short
        format := streams.format
        unset := fun fresh => by
          rw [streams.unset fresh] at running
          contradiction
        uncancelled := by simpa using ends }
    · exact streams

theorem runStreams (checked : config.checked = .ok config) {events : List Event}
    (one : ∀ event ∈ events, OneStream host rate event) :
    Streams config rate (run host (newState config) events) := by
  induction events using List.reverseRecOn with
  | nil => exact streamsNew config rate
  | append_singleton events event ih =>
    rw [runSnoc]
    exact nextStreams checked (ih (fun other inside => one other (List.mem_append_left _ inside)))
      (one event (List.mem_append_right _ (List.mem_singleton.mpr rfl)))

theorem quietRun {events : List Event} (quiet : ∀ event ∈ events, ¬ Arrives host event) :
    (run host (newState config) events).streamSampleRate = none := by
  induction events using List.reverseRecOn with
  | nil => rfl
  | append_singleton events event ih =>
    have fresh := ih (fun other inside => quiet other (List.mem_append_left _ inside))
    have silent := quiet event (List.mem_append_right _ (List.mem_singleton.mpr rfl))
    rw [runSnoc]
    generalize run host (newState config) events = s at fresh
    have kept {t : State} {result : Except PyError Unit}
        (harvest : exec (harvestInference host) s = (result, t)) : t.streamSampleRate = none :=
      (harvestedSettles harvest).streamSampleRate.trans fresh
    cases event with
    | process payload =>
      have cases := callCases host payload s
      change (callProcess host payload s).2.streamSampleRate = none
      generalize callProcess host payload s = call at cases
      cases cases with
      | harvestRaised e t raised => exact kept raised
      | invalid e t harvest refused => exact kept harvest
      | formatChanged t packet harvest decoded differs => exact absurd ⟨packet, decoded⟩ silent
      | limitRaised t packet harvest decoded fits infinite => exact absurd ⟨packet, decoded⟩ silent
      | admits t packet maximum frames harvest decoded fits room length =>
        exact absurd ⟨packet, decoded⟩ silent
    | flush =>
      rcases flushCases host s with ⟨e, t, raised, call⟩ | ⟨t, harvest, call⟩
      · rw [next, call]
        exact kept raised
      · have same : t.streamSampleRate = none := kept harvest
        rw [next, call]
        exact same
    | reset => rfl
    | inferenceEnds outcome =>
      simp only [next, inferenceEnds]
      split <;> exact fresh

end Streams

end KaraokeAnything.Mdx23cVocals
