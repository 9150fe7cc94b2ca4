import KaraokeAnything.Mdx23cRefinement
import KaraokeAnything.SegmentedPacing

/-! The pace of MDX23C on packets of one size. Its buffer has a limit: where that leaves room
for the packets of a segment the output keeps the delay of the base class, and where it does
not the processor stays silent. -/
namespace KaraokeAnything.Mdx23cVocals
open ByteOrder Kany Lockstep Models Pacing Python Stateful
open SegmentedInference (InferenceOutcome SegmentModel Segment Fits OnPace htdemucs onPaceKeeps
  registeredStereo)
open Processors (MDX23CVocalsConfig)

structure Timeline where
  self : State
  calls : Nat := 0
  launches : List (Nat × List KanyPacket) := []
  emissions : List (Nat × ProcessedPacket) := []

def tick (host : HostOrder) (t : Timeline) (event : Event) : Timeline :=
  let answer := next host t.self event
  let calls := match event with
    | .process _ => t.calls + 1
    | _ => t.calls
  let segment := (answer.2.inferenceTask.map (·.segment.packets)).getD []
  { self := answer.2, calls
    launches := t.launches ++
      if answer.2.segmentsStarted = t.self.segmentsStarted then [] else [(calls, segment)]
    emissions := t.emissions ++ (answer.1.getD []).map (calls, ·) }

def timeline (host : HostOrder) (config : MDX23CVocalsConfig) (events : List Event) : Timeline :=
  events.foldl (tick host) { self := newState config }

def Feeds (host : HostOrder) (rate frames : Nat) : Event → Prop
  | .process payload => ∃ packet, decodeAndValidate host payload = .ok packet ∧
    packet.val.sampleRate = rate ∧ packet.val.frames = frames
  | .inferenceEnds outcome => outcome ≠ .cancelled
  | _ => False

def Timely (delay : Nat) (t : Timeline) : Event → Prop
  | .process _ => ∀ segment, t.self.inferenceTask = some ⟨segment, none⟩ →
    ∀ launch, t.launches.getLast? = some launch → t.calls + 1 < launch.1 + delay
  | .inferenceEnds outcome => ∀ segment, t.self.inferenceTask = some ⟨segment, none⟩ →
    ∃ output, outcome = .returned output ∧
      output.length = SegmentedInference.sampleTotal segment.packets
  | _ => True

def Event.decoded (host : HostOrder) : Event → Option KanyPacket
  | .process payload => (decodeAndValidate host payload).toOption.map (·.val)
  | _ => none

def given (host : HostOrder) (events : List Event) : List KanyPacket :=
  events.filterMap (Event.decoded host)

section Timelines
variable {host : HostOrder} {config : MDX23CVocalsConfig} {rate frames : Nat} {t : Timeline}

theorem timelineSnoc (events : List Event) (event : Event) :
    timeline host config (events ++ [event]) = tick host (timeline host config events) event := by
  rw [timeline, List.foldl_append]
  rfl

theorem timelineSelf (host : HostOrder) (config : MDX23CVocalsConfig) (events : List Event) :
    (timeline host config events).self = run host (newState config) events := by
  induction events using List.reverseRecOn with
  | nil => rfl
  | append_singleton events event ih =>
    rw [timelineSnoc, runSnoc, ← ih]
    rfl

theorem feedsOne {event : Event} (feeds : Feeds host rate frames event) :
    OneStream host rate event := by
  cases event with
  | process payload =>
    obtain ⟨packet, decoded, known, _⟩ := feeds
    intro other same
    cases Except.ok.inj (decoded.symm.trans same)
    exact known
  | flush => exact feeds.elim
  | reset => exact feeds.elim
  | inferenceEnds outcome => exact feeds

end Timelines

section Views
variable {host : HostOrder} {model : SegmentModel} {config : MDX23CVocalsConfig}

def baseEvent : Event → Option SegmentedInference.Event
  | .process payload => some (.process payload)
  | .flush => some .flush
  | .reset => none
  | .inferenceEnds outcome => some (.inferenceEnds outcome)

structure Follows (base : SegmentedInference.Timeline) (t : Timeline) : Prop where
  self : base.world.self = shared (mixed t.self)
  calls : base.calls = t.calls
  launches : base.launches = t.launches
  emissions : base.emissions = t.emissions

theorem stepAnswers (host : HostOrder) (model : SegmentModel) (w : SegmentedInference.World)
    {event : Event} {base : SegmentedInference.Event} (same : baseEvent event = some base) :
    (SegmentedInference.step host model w base).self = (baseNext host model w.self event).2 ∧
      (SegmentedInference.step host model w base).journal.emitted =
        w.journal.emitted ++ (baseNext host model w.self event).1.getD [] := by
  cases event with
  | process payload =>
    cases Option.some.inj same
    rw [SegmentedInference.step, baseNext]
    rcases exec (SegmentedInference.process host model payload) w.self with ⟨_ | outputs, self⟩
    · exact ⟨rfl, (List.append_nil _).symm⟩
    · exact ⟨rfl, rfl⟩
  | flush =>
    cases Option.some.inj same
    rw [SegmentedInference.step, baseNext]
    rcases exec (SegmentedInference.flush host model) w.self with ⟨_ | outputs, self⟩
    · exact ⟨rfl, (List.append_nil _).symm⟩
    · exact ⟨rfl, rfl⟩
  | reset => contradiction
  | inferenceEnds outcome =>
    cases Option.some.inj same
    exact ⟨rfl, (List.append_nil _).symm⟩

theorem mixedSegment (s : State) : (shared (mixed s)).inferenceTask.map (·.segment.packets) =
    s.inferenceTask.map (·.segment.packets) := by
  change (s.inferenceTask.map (mixedTask s)).map (·.segment.packets) = _
  rw [Option.map_map]
  rfl

theorem mixedRunning {s : State} {segment : Segment} :
    (shared (mixed s)).inferenceTask = some ⟨segment, none⟩ ↔
      s.inferenceTask = some ⟨segment, none⟩ := by
  rcases task : s.inferenceTask with _ | ⟨other, _ | outcome⟩ <;>
    simp [shared, mixed, mixedTask, task]

theorem tickFollows {base : SegmentedInference.Timeline} {t : Timeline} (follows : Follows base t)
    {event : Event} {other : SegmentedInference.Event}
    (same : baseEvent (mixedEvent t.self event) = some other)
    (steps : baseNext host model (shared (mixed t.self)) (mixedEvent t.self event) =
      ((next host t.self event).1, shared (mixed (next host t.self event).2))) :
    Follows (SegmentedInference.tick host model base other) (tick host t event) := by
  obtain ⟨self, emitted⟩ := stepAnswers host model base.world same
  rw [follows.self, steps] at self emitted
  have calls : (SegmentedInference.tick host model base other).calls = (tick host t event).calls := by
    cases event with
    | process payload =>
      cases Option.some.inj same
      exact congrArg (· + 1) follows.calls
    | flush =>
      cases Option.some.inj same
      exact follows.calls
    | reset => contradiction
    | inferenceEnds outcome =>
      cases Option.some.inj same
      exact follows.calls
  refine ⟨self, calls, ?_, ?_⟩
  · have started : base.world.self.segmentsStarted = t.self.segmentsStarted := by rw [follows.self]; rfl
    change base.launches ++ (if (SegmentedInference.step host model base.world other).self.segmentsStarted =
        base.world.self.segmentsStarted then [] else
          [((SegmentedInference.tick host model base other).calls,
            ((SegmentedInference.step host model base.world other).self.inferenceTask.map
              (·.segment.packets)).getD [])]) = _
    rw [calls, self, started, mixedSegment, follows.launches]
    rfl
  · change base.emissions ++ ((SegmentedInference.step host model base.world other).journal.emitted.drop
        base.world.journal.emitted.length).map
          ((SegmentedInference.tick host model base other).calls, ·) = _
    rw [calls, emitted, List.drop_left, follows.emissions]
    rfl

end Views

section Room
variable {host : HostOrder} {config : MDX23CVocalsConfig} {rate frames k : Nat} {s : State}
  {maximum length : Int} {payload : Bytes} {packet : StereoPacket}

theorem dropNothing {packets : List StereoPacket} {total : Int} (room : total ≤ maximum) :
    dropOldest maximum packets total = (packets, total, 0) := by
  cases packets with
  | nil => rfl
  | cons oldest rest => rw [dropOldest, if_neg (Int.not_lt.mpr room)]

theorem sameMaximum (streams : Streams config rate s)
    (limited : round (limit (newState config) rate) = .ok maximum)
    (known : packet.val.sampleRate = rate) {other : Int}
    (room : maximumFrames s packet = .ok other) : other = maximum := by
  have rounded := maximumExact room
  rw [known, streamsLimit streams, limited] at rounded
  exact (Except.ok.inj rounded).symm

theorem keptRoom (streams : Streams config rate s)
    (limited : round (limit (newState config) rate) = .ok maximum)
    (decoded : decodeAndValidate host payload = .ok packet) (known : packet.val.sampleRate = rate)
    (room : s.inputFrames + packet.val.frames ≤ maximum) :
    (callProcess host payload s).2.droppedPackets = s.droppedPackets := by
  have cases := callCases host payload s
  generalize callProcess host payload s = call at cases
  have kept {t : State} {result : Except PyError Unit}
      (harvest : exec (harvestInference host) s = (result, t)) :
      t.droppedPackets = s.droppedPackets := (harvestedSettles harvest).droppedPackets
  cases cases with
  | harvestRaised e t raised => exact kept raised
  | invalid e t harvest refused => exact kept harvest
  | formatChanged t other harvest same differs =>
    have before := kept harvest
    exact before
  | limitRaised t other harvest same fits infinite =>
    have before := kept harvest
    exact before
  | admits t other most target harvest same fits limits long =>
    cases Except.ok.inj (decoded.symm.trans same)
    cases sameMaximum (harvestStreams streams harvest) limited known limits
    have total : t.inputFrames = s.inputFrames := (harvestedSettles harvest).inputFrames
    have dropped := (launchKeeps (admitted t packet maximum) target).2.2.2.2.2
    have none : dropOldest maximum (t.inputPackets ++ [packet]) (t.inputFrames + packet.val.frames) =
        (t.inputPackets ++ [packet], t.inputFrames + packet.val.frames, 0) :=
      dropNothing (by rw [total]; exact room)
    have admits : (admitted t packet maximum).droppedPackets = t.droppedPackets +
        (dropOldest maximum (t.inputPackets ++ [packet]) (t.inputFrames + packet.val.frames)).2.2 := rfl
    rw [none, Nat.add_zero] at admits
    exact dropped.trans (admits.trans (kept harvest))

theorem targetFits (long : target (newState config) rate = .ok length) (positive : 1 ≤ length)
    (least : IsLeast {count : Nat | length ≤ (count * frames : Nat)} k) :
    Fits config.segmentSeconds rate frames k length where
  rounded := by
    have rounded : round (Float.ofNat rate * config.segmentSeconds) = .ok length := long
    rw [rounded, Except.map, Int.max_eq_right positive]
  least := least

end Room

section Paced
variable {host : HostOrder} {model : SegmentModel} {config : MDX23CVocalsConfig}
  {rate frames k delay : Nat} {maximum length : Int} {line : List KanyPacket}
  {base : SegmentedInference.Timeline} {t : Timeline}

structure Paced (host : HostOrder) (config : MDX23CVocalsConfig) (rate frames k delay : Nat)
    (line : List KanyPacket) (base : SegmentedInference.Timeline) (t : Timeline) : Prop where
  follows : Follows base t
  pace : OnPace host config.segmentSeconds rate 2 frames k delay line base
  kept : t.self.droppedPackets = 0

theorem pacedRoom (paced : Paced host config rate frames k delay line base t) (some : 0 < k)
    (room : ((k * frames : Nat) : Int) ≤ maximum) {packet : StereoPacket}
    (size : packet.val.frames = frames) : t.self.inputFrames + packet.val.frames ≤ maximum := by
  have batched := paced.pace.batched
  have total := batched.total
  have input := congrArg List.length batched.input
  have rest := Nat.mod_lt line.length some
  rw [pendingLength] at input
  have fewer : (base.world.self.inputPackets.length + 1) * frames ≤ k * frames :=
    Nat.mul_le_mul_right frames (by omega)
  have same : base.world.self.inputFrames = t.self.inputFrames := by
    rw [paced.follows.self]
    rfl
  rw [← same, total, size]
  rw [Nat.add_mul, Nat.one_mul] at fewer
  omega

theorem callPaced (checked : config.checked = .ok config) (same : SameCheck host model)
    (long : target (newState config) rate = .ok length) (positive : 1 ≤ length)
    (limited : round (limit (newState config) rate) = .ok maximum)
    (fits : Fits config.segmentSeconds rate frames k length)
    (room : ((k * frames : Nat) : Int) ≤ maximum) (low : 1 ≤ delay) (high : delay ≤ k)
    (streams : Streams config rate t.self)
    (paced : Paced host config rate frames k delay line base t) {payload : Bytes}
    {packet : StereoPacket} (decoded : decodeAndValidate host payload = .ok packet)
    (known : packet.val.sampleRate = rate) (size : packet.val.frames = frames)
    (timely : Timely delay t (.process payload)) :
    Paced host config rate frames k delay (line ++ [packet.val])
      (SegmentedInference.tick host model base (.process payload)) (tick host t (.process payload)) := by
  have kept := keptRoom streams limited decoded known
    (pacedRoom paced (SegmentedInference.fitsSome fits) room size)
  have one : OneStream host rate (.process payload) := by
    intro other again
    cases Except.ok.inj (decoded.symm.trans again)
    exact known
  have finite : (limit (newState config) rate).isFinite = true := (roundDefined _).mp ⟨_, limited⟩
  have steps := nextMixed checked same streams long positive one (fun _ => finite) kept
  have before : SegmentedInference.Timely delay base (.process payload) := by
    intro segment running launch last
    rw [paced.follows.self, mixedRunning] at running
    rw [paced.follows.launches] at last
    rw [paced.follows.calls]
    exact timely segment running launch last
  exact {
    follows := tickFollows paced.follows rfl steps
    pace := SegmentedInference.callPace fits low high paced.pace (checkPasses same decoded) known
      packet.property size before
    kept := kept.trans paced.kept }

theorem endsPaced (checked : config.checked = .ok config) (same : SameCheck host model)
    (long : target (newState config) rate = .ok length) (positive : 1 ≤ length)
    (streams : Streams config rate t.self)
    (paced : Paced host config rate frames k delay line base t) {outcome : InferenceOutcome}
    (uncancelled : outcome ≠ .cancelled) (timely : Timely delay t (.inferenceEnds outcome)) :
    Paced host config rate frames k delay line
      (SegmentedInference.tick host model base (.inferenceEnds (mixedOutcome t.self outcome)))
      (tick host t (.inferenceEnds outcome)) := by
  have kept : (next host t.self (.inferenceEnds outcome)).2.droppedPackets =
      t.self.droppedPackets := (nextDropped host t.self (.inferenceEnds outcome)).2 trivial
  have one : OneStream host rate (.inferenceEnds outcome) := uncancelled
  have steps := nextMixed checked same streams long positive one (fun arrives => arrives.elim) kept
  have before : SegmentedInference.Timely delay base
      (.inferenceEnds (mixedOutcome t.self outcome)) := by
    intro segment running
    rw [paced.follows.self, mixedRunning] at running
    obtain ⟨output, rfl, size⟩ := timely segment running
    exact ⟨_, rfl, (crossfadedLength t.self output).trans size⟩
  exact {
    follows := tickFollows paced.follows rfl steps
    pace := SegmentedInference.endsPace paced.pace before
    kept := kept.trans paced.kept }

theorem givenSnoc (events : List Event) (event : Event) : given host (events ++ [event]) =
    given host events ++ (event.decoded host).toList := by
  rw [given, List.filterMap_append, ← given]
  cases known : event.decoded host <;> simp [known]

theorem runPaced (host : HostOrder) (checked : config.checked = .ok config)
    (long : target (newState config) rate = .ok length) (positive : 1 ≤ length)
    (limited : round (limit (newState config) rate) = .ok maximum)
    (least : IsLeast {count : Nat | length ≤ (count * frames : Nat)} k)
    (room : ((k * frames : Nat) : Int) ≤ maximum) (low : 1 ≤ delay) (high : delay ≤ k)
    {events : List Event} (feeds : ∀ event ∈ events, Feeds host rate frames event)
    (timely : ∀ before event, before ++ [event] <+: events →
      Timely delay (timeline host config before) event) :
    ∃ base, Paced host config rate frames k delay (given host events) base
      (timeline host config events) := by
  have same : SameCheck host htdemucs := stereoCheck host (registeredStereo (.inl rfl))
  have fits : Fits config.segmentSeconds rate frames k length := targetFits long positive least
  induction events using List.reverseRecOn with
  | nil =>
    have none : ∀ event ∈ ([] : List SegmentedInference.Event),
        SegmentedInference.Feeds host htdemucs rate 2 frames event := List.forall_mem_nil _
    have pace := SegmentedInference.runPace fits low high none
      (fun before event cut => absurd (List.prefix_nil.mp cut) (by simp))
    exact ⟨_, ⟨rfl, rfl, rfl, rfl⟩, pace, rfl⟩
  | append_singleton events event ih =>
    obtain ⟨base, paced⟩ := ih (fun other inside => feeds other (List.mem_append_left _ inside))
      (fun before last cut => timely before last (cut.trans (List.prefix_append _ _)))
    have fed := feeds event (List.mem_append_right _ (List.mem_singleton.mpr rfl))
    have now := timely events event (List.prefix_refl _)
    have streams : Streams config rate (timeline host config events).self := by
      rw [timelineSelf]
      exact runStreams checked (fun other inside => feedsOne (feeds other (List.mem_append_left _ inside)))
    rw [givenSnoc, timelineSnoc]
    cases event with
    | process payload =>
      obtain ⟨packet, decoded, known, size⟩ := fed
      have arrives : (Event.process payload).decoded host = some packet.val := by
        rw [Event.decoded, decoded]
        rfl
      rw [arrives]
      exact ⟨_, callPaced checked same long positive limited fits room low high streams paced decoded
        known size now⟩
    | flush => exact fed.elim
    | reset => exact fed.elim
    | inferenceEnds outcome =>
      have none : (Event.inferenceEnds outcome).decoded host = none := rfl
      rw [none, Option.toList_none, List.append_nil]
      exact ⟨_, endsPaced checked same long positive streams paced fed now⟩

structure KeepsPace (k delay : Nat) (line : List KanyPacket) (t : Timeline) : Prop where
  calls : t.calls = line.length
  launched : t.launches = (List.range (t.calls / k)).map
    (fun j => ((j + 1) * k, (line.drop (j * k)).take k))
  single : (t.emissions.map (·.1)).Pairwise (· < ·)
  headers : t.emissions.map (·.2.payload.take headerSize) <+: line.map (·.rawHeader)
  window : ∀ i call, (t.emissions.map (·.1))[i]? = some call →
    i + 1 + k ≤ call ∧ call ≤ i + k + delay
  due : ∀ i, i + k + delay ≤ t.calls → i < t.emissions.length
  gaps : ∀ first, (t.emissions.map (·.1)).head? = some first →
    {call ∈ Finset.Ioc first t.calls | call ∉ t.emissions.map (·.1)}.card ≤ delay - 1
  kept : t.self.droppedPackets = 0

theorem pacedKeeps (paced : Paced host config rate frames k delay line base t) :
    KeepsPace k delay line t := by
  have keeps := onPaceKeeps paced.pace
  have calls := paced.follows.calls
  have launches := paced.follows.launches
  have emissions := paced.follows.emissions
  exact {
    calls := calls ▸ keeps.calls
    launched := by rw [← launches, ← calls]; exact keeps.launched
    single := emissions ▸ keeps.single
    headers := emissions ▸ keeps.headers
    window := emissions ▸ keeps.window
    due := by rw [← calls, ← emissions]; exact keeps.due
    gaps := by rw [← calls, ← emissions]; exact keeps.gaps
    kept := paced.kept }

end Paced

section Starved
variable {host : HostOrder} {config : MDX23CVocalsConfig} {rate frames k : Nat}
  {maximum length : Int} {t : Timeline}

theorem sameFrames {packets : List StereoPacket}
    (sizes : ∀ packet ∈ packets, packet.val.frames = frames) :
    frameTotal packets = packets.length * frames := by
  rw [frameTotal, List.map_congr_left sizes, List.map_const', List.sum_replicate_nat]

theorem dropSame {line : List StereoPacket} (sizes : ∀ packet ∈ line, packet.val.frames = frames)
    (some : 0 < frames) :
    let cut := dropOldest maximum line (frameTotal line)
    cut.1 = line.drop cut.2.2 ∧ cut.2.2 ≤ line.length ∧
      cut.2.1 = (cut.1.length * frames : Nat) ∧ (cut.2.1 ≤ maximum ∨ cut.1 = []) ∧
      cut.1.length ≤ (maximum / frames).toNat ∧
      (cut.2.2 = 0 ∨ (maximum / frames).toNat ≤ cut.1.length) := by
  obtain ⟨kept, inside, total, fits, fewest⟩ := dropOldestExact maximum line (frameTotal line)
  generalize dropOldest maximum line (frameTotal line) = cut at kept inside total fits fewest
  have positive : (0 : Int) < frames := Int.natCast_pos.mpr some
  have rest (count : Nat) (less : count ≤ line.length) :
      (frameTotal line : Int) - frameTotal (line.take count) =
        ((line.length - count) * frames : Nat) := by
    have front : ∀ packet ∈ line.take count, packet.val.frames = frames :=
      fun packet inside => sizes packet (List.mem_of_mem_take inside)
    rw [sameFrames sizes, sameFrames front, List.length_take, Nat.min_eq_left less, Nat.sub_mul]
    have most := Nat.mul_le_mul_right frames less
    omega
  have size : cut.1.length = line.length - cut.2.2 := by rw [kept, List.length_drop]
  have whole : cut.2.1 = (cut.1.length * frames : Nat) := by rw [total, rest _ inside, size]
  refine ⟨kept, inside, whole, fits, ?_, ?_⟩
  · rcases fits with room | empty
    · rw [whole] at room
      have least : (cut.1.length : Int) ≤ maximum / frames :=
        Int.le_ediv_of_mul_le positive (by push_cast at room; exact room)
      omega
    · rw [empty]
      exact Nat.zero_le _
  · rcases Nat.eq_zero_or_pos cut.2.2 with none | dropped
    · exact .inl none
    · right
      have beyond := fewest (cut.2.2 - 1) (by omega)
      rw [rest _ (by omega)] at beyond
      have more : line.length - (cut.2.2 - 1) = cut.1.length + 1 := by omega
      rw [more] at beyond
      have most : maximum / frames < (cut.1.length + 1 : Int) :=
        Int.ediv_lt_of_lt_mul positive (by push_cast at beyond; exact beyond)
      omega

structure Starved (maximum : Int) (frames : Nat) (t : Timeline) : Prop where
  idle : t.self.inferenceTask = none
  ready : t.self.readyOutput = []
  sizes : ∀ packet ∈ t.self.inputPackets, packet.val.frames = frames
  total : t.self.inputFrames = frameTotal t.self.inputPackets
  held : t.self.inputPackets.length = min t.calls (maximum / frames).toNat
  counted : t.self.droppedPackets + t.self.inputPackets.length = t.calls
  launches : t.launches = []
  emissions : t.emissions = []

theorem starvedShort (positive : 1 ≤ length)
    (least : IsLeast {count : Nat | length ≤ (count * frames : Nat)} k)
    (full : maximum < (k * frames : Nat)) {count : Nat}
    (limited : ((count * frames : Nat) : Int) ≤ maximum ∨ count = 0) :
    ¬ length ≤ (count * frames : Nat) := by
  intro enough
  rcases limited with within | rfl
  · have more := Nat.mul_le_mul_right frames (least.2 enough)
    omega
  · rw [Nat.zero_mul] at enough
    omega

theorem answersStarved (positive : 1 ≤ length)
    (least : IsLeast {count : Nat | length ≤ (count * frames : Nat)} k)
    (full : maximum < (k * frames : Nat)) (starved : Starved maximum frames t)
    {packet : StereoPacket} (size : packet.val.frames = frames) :
    let answer := answered (admitted t.self packet maximum) length
    Starved maximum frames {
      self := answer.2, calls := t.calls + 1
      launches := t.launches ++ if answer.2.segmentsStarted = t.self.segmentsStarted then [] else
        [(t.calls + 1, (answer.2.inferenceTask.map (·.segment.packets)).getD [])]
      emissions := t.emissions ++ (answer.1.getD []).map (t.calls + 1, ·) } := by
  have sizes : ∀ other ∈ t.self.inputPackets ++ [packet], other.val.frames = frames := by
    intro other inside
    rcases List.mem_append.mp inside with before | last
    · exact starved.sizes other before
    · rw [List.mem_singleton.mp last, size]
  have joined : t.self.inputFrames + packet.val.frames =
      (frameTotal (t.self.inputPackets ++ [packet]) : Nat) := by
    rw [starved.total, frameTotalAppend]
    simp [frameTotal]
  obtain ⟨kept, inside, whole, fits, most, fewest⟩ :=
    @dropSame frames maximum _ sizes (size ▸ packet.val.framesRange.1)
  generalize cutting : dropOldest maximum (t.self.inputPackets ++ [packet])
    (frameTotal (t.self.inputPackets ++ [packet])) = cut at kept inside whole fits most fewest
  have arrived : admitted t.self packet maximum = { withFormat t.self packet with
      inputPackets := cut.1, inputFrames := cut.2.1
      droppedPackets := t.self.droppedPackets + cut.2.2 } := by
    simp only [admitted, trimmed, pushed, withFormat, joined, cutting]
  have short : ¬ length ≤ cut.2.1 := by
    rw [whole]
    refine starvedShort positive least full ?_
    rcases fits with room | empty
    · exact .inl (whole ▸ room)
    · exact .inr (by rw [empty, List.length_nil])
  have waits : launchedWhenReady (admitted t.self packet maximum) length =
      { withFormat t.self packet with
        inputPackets := cut.1, inputFrames := cut.2.1
        droppedPackets := t.self.droppedPackets + cut.2.2 } := by
    rw [launchedWhenReady, arrived]
    exact if_neg (fun due => short due.2)
  have size' : cut.1.length + cut.2.2 = t.self.inputPackets.length + 1 := by
    rw [kept, List.length_drop]
    rw [List.length_append, List.length_singleton] at inside ⊢
    omega
  have held := starved.held
  have counted := starved.counted
  simp only [answered, waits]
  exact {
    idle := starved.idle
    ready := by simp [popped, withFormat, starved.ready]
    sizes := fun other member => sizes other (List.mem_of_mem_drop (kept ▸ member))
    total := by
      have rest : ∀ other ∈ cut.1, other.val.frames = frames :=
        fun other member => sizes other (List.mem_of_mem_drop (kept ▸ member))
      change cut.2.1 = (frameTotal cut.1 : Int)
      rw [sameFrames rest, whole]
    held := by
      change cut.1.length = min (t.calls + 1) (maximum / frames).toNat
      omega
    counted := by
      change t.self.droppedPackets + cut.2.2 + cut.1.length = t.calls + 1
      omega
    launches := by simp [popped, withFormat, starved.launches]
    emissions := by simp [withFormat, starved.ready, starved.emissions] }

theorem callStarved (long : target (newState config) rate = .ok length) (positive : 1 ≤ length)
    (limited : round (limit (newState config) rate) = .ok maximum)
    (least : IsLeast {count : Nat | length ≤ (count * frames : Nat)} k)
    (full : maximum < (k * frames : Nat)) (streams : Streams config rate t.self)
    (starved : Starved maximum frames t) {payload : Bytes} {packet : StereoPacket}
    (decoded : decodeAndValidate host payload = .ok packet)
    (known : packet.val.sampleRate = rate) (size : packet.val.frames = frames) :
    Starved maximum frames (tick host t (.process payload)) := by
  have some : 0 < frames := size ▸ packet.val.framesRange.1
  have settled := harvestIdle host (s := t.self) (by rw [starved.idle]; rfl)
  have cases := callCases host payload t.self
  rw [tick, next]
  generalize callProcess host payload t.self = call at cases
  cases cases with
  | harvestRaised e u raised =>
    cases (Prod.mk.inj (settled.symm.trans raised)).1
  | invalid e u harvest refused =>
    rw [decoded] at refused
    contradiction
  | formatChanged u other harvest same differs =>
    cases Except.ok.inj (decoded.symm.trans same)
    exact absurd (formatFits (harvestStreams streams harvest) known) differs
  | limitRaised u other harvest same fits infinite =>
    cases Except.ok.inj (decoded.symm.trans same)
    have finite : (limit (newState config) rate).isFinite = true := (roundDefined _).mp ⟨_, limited⟩
    rw [known, streamsLimit (harvestStreams streams harvest), finite] at infinite
    contradiction
  | admits u other most frames' harvest same fits room length' =>
    cases Except.ok.inj (decoded.symm.trans same)
    cases (Prod.mk.inj (settled.symm.trans harvest)).2
    cases sameMaximum streams limited known room
    rw [known, streamsTarget streams, long] at length'
    cases Except.ok.inj length'
    exact answersStarved positive least full starved size

theorem flushStarved (host : HostOrder) (starved : Starved maximum frames t) :
    Starved maximum frames (tick host t .flush) := by
  have settled := harvestIdle host (s := t.self) (by rw [starved.idle]; rfl)
  rcases flushCases host t.self with ⟨e, u, raised, _⟩ | ⟨u, harvest, call⟩
  · cases (Prod.mk.inj (settled.symm.trans raised)).1
  · cases (Prod.mk.inj (settled.symm.trans harvest)).2
    simp only [tick, next, call]
    exact { starved with
      idle := starved.idle
      ready := rfl
      sizes := starved.sizes
      total := starved.total
      held := starved.held
      counted := starved.counted
      launches := by simp [starved.launches]
      emissions := by simp [starved.ready, starved.emissions] }

theorem endsStarved (host : HostOrder) (starved : Starved maximum frames t)
    (outcome : InferenceOutcome) : tick host t (.inferenceEnds outcome) = t := by
  have none : inferenceEnds outcome t.self = none := by rw [inferenceEnds, starved.idle]
  simp [tick, next, none]

theorem runStarved (host : HostOrder) (checked : config.checked = .ok config)
    (long : target (newState config) rate = .ok length) (positive : 1 ≤ length)
    (limited : round (limit (newState config) rate) = .ok maximum)
    (least : IsLeast {count : Nat | length ≤ (count * frames : Nat)} k)
    (full : maximum < (k * frames : Nat)) {events : List Event}
    (feeds : ∀ event ∈ events, Feeds host rate frames event ∨ event = .flush) :
    Starved maximum frames (timeline host config events) ∧
      (timeline host config events).calls = (given host events).length := by
  induction events using List.reverseRecOn with
  | nil =>
    exact ⟨⟨rfl, rfl, List.forall_mem_nil _, rfl, (Nat.zero_min _).symm, rfl, rfl, rfl⟩, rfl⟩
  | append_singleton events event ih =>
    obtain ⟨starved, calls⟩ := ih (fun other inside => feeds other (List.mem_append_left _ inside))
    have streams : Streams config rate (timeline host config events).self := by
      rw [timelineSelf]
      refine runStreams checked (fun other inside => ?_)
      rcases feeds other (List.mem_append_left _ inside) with fed | rfl
      · exact feedsOne fed
      · trivial
    rw [givenSnoc, timelineSnoc, List.length_append, ← calls]
    rcases feeds event (List.mem_append_right _ (List.mem_singleton.mpr rfl)) with fed | rfl
    · cases event with
      | process payload =>
        obtain ⟨packet, decoded, known, size⟩ := fed
        have arrives : (Event.process payload).decoded host = some packet.val := by
          rw [Event.decoded, decoded]
          rfl
        rw [arrives]
        exact ⟨callStarved long positive limited least full streams starved decoded known size, rfl⟩
      | flush => exact fed.elim
      | reset => exact fed.elim
      | inferenceEnds outcome =>
        rw [endsStarved host starved outcome]
        exact ⟨starved, rfl⟩
    · exact ⟨flushStarved host starved, rfl⟩

structure Silent (maximum : Int) (frames : Nat) (line : List KanyPacket) (t : Timeline) : Prop where
  calls : t.calls = line.length
  launches : t.launches = []
  emissions : t.emissions = []
  dropped : t.self.droppedPackets = line.length - (maximum / frames).toNat

theorem starvedSilent {line : List KanyPacket} (starved : Starved maximum frames t)
    (calls : t.calls = line.length) : Silent maximum frames line t where
  calls := calls
  launches := starved.launches
  emissions := starved.emissions
  dropped := by
    have held := starved.held
    have counted := starved.counted
    omega

/- Fed with packets of one size, of which `k` make a segment: if the limit of the buffer has
room for `k` of them, the output keeps its delay, and if not, there never is any. -/
theorem paceDecided (host : HostOrder) (config : MDX23CVocalsConfig)
    (checked : config.checked = .ok config) (rate frames k : Nat) (length maximum : Int)
    (long : target (newState config) rate = .ok length) (positive : 1 ≤ length)
    (limited : round (limit (newState config) rate) = .ok maximum)
    (least : IsLeast {count : Nat | length ≤ (count * frames : Nat)} k) :
    (((k * frames : Nat) : Int) ≤ maximum → ∀ delay, 1 ≤ delay → delay ≤ k → ∀ events,
      (∀ event ∈ events, Feeds host rate frames event) →
      (∀ before event, before ++ [event] <+: events →
        Timely delay (timeline host config before) event) →
      KeepsPace k delay (given host events) (timeline host config events)) ∧
    (maximum < (k * frames : Nat) → ∀ events,
      (∀ event ∈ events, Feeds host rate frames event ∨ event = .flush) →
      Silent maximum frames (given host events) (timeline host config events)) := by
  constructor
  · intro room delay low high events feeds timely
    obtain ⟨base, paced⟩ :=
      runPaced host checked long positive limited least room low high feeds timely
    exact pacedKeeps paced
  · intro full events feeds
    obtain ⟨starved, calls⟩ := runStarved host checked long positive limited least full feeds
    exact starvedSilent starved calls

def pacedQuarters : List Event :=
  [.process quarterFrames, .inferenceEnds (.returned (List.replicate 8 0)), .process quarterFrames]

def shortFrames : Bytes :=
  magic ++ [1, 0, 2, 1, 0, 0, 0, 16] ++ List.replicate 12 0 ++ [0, 3, 0, 0] ++ List.replicate 24 0

def narrowConfig : MDX23CVocalsConfig := { segmentSeconds := 0.25, maxBufferedSegments := 1 }

theorem quarterFed : Feeds .little 16 4 (.process quarterFrames) := ⟨_, rfl, rfl, rfl⟩

theorem quartersFed : ∀ event ∈ pacedQuarters, Feeds .little 16 4 event := by
  intro event inside
  simp only [pacedQuarters, List.mem_cons, List.not_mem_nil, or_false] at inside
  rcases inside with rfl | rfl | rfl
  · exact quarterFed
  · exact InferenceOutcome.noConfusion
  · exact quarterFed

theorem quartersTimely : ∀ before event, before ++ [event] <+: pacedQuarters →
    Timely 1 (timeline .little quarterOverlap before) event := by
  intro before event cut
  rcases before with _ | ⟨first, _ | ⟨second, _ | ⟨third, before⟩⟩⟩
  · cases (List.cons_prefix_cons.mp cut).1
    intro segment running
    contradiction
  · cases (List.cons_prefix_cons.mp cut).1
    cases (List.cons_prefix_cons.mp (List.cons_prefix_cons.mp cut).2).1
    intro segment running
    cases running
    exact ⟨_, rfl, rfl⟩
  · cases (List.cons_prefix_cons.mp cut).1
    cases (List.cons_prefix_cons.mp (List.cons_prefix_cons.mp cut).2).1
    cases (List.cons_prefix_cons.mp (List.cons_prefix_cons.mp (List.cons_prefix_cons.mp cut).2).2).1
    intro segment running
    cases running
  · have length := cut.length_le
    simp only [pacedQuarters, List.length_append, List.length_cons, List.length_nil] at length
    omega

theorem paceDecidedQuarters :
    KeepsPace 1 1 (given .little pacedQuarters) (timeline .little quarterOverlap pacedQuarters) ∧
      Silent 4 3 (given .little [.process shortFrames, .process shortFrames])
        (timeline .little narrowConfig [.process shortFrames, .process shortFrames]) := by
  have fed : ∀ event ∈ [Event.process shortFrames, .process shortFrames],
      Feeds .little 16 3 event ∨ event = .flush := by
    intro event inside
    simp only [List.mem_cons, List.not_mem_nil, or_false, or_self] at inside
    cases inside
    exact .inl ⟨_, rfl, rfl, rfl⟩
  refine ⟨(paceDecided .little quarterOverlap rfl 16 4 1 4 12 (by decide +kernel) (by decide)
    (by decide +kernel) ⟨by decide, ?_⟩).1 (by decide) 1 (Nat.le_refl 1) (Nat.le_refl 1) pacedQuarters
      quartersFed quartersTimely, (paceDecided .little narrowConfig rfl 16 3 2 4 4 (by decide +kernel)
        (by decide) (by decide +kernel) ⟨by decide, ?_⟩).2 (by decide) _ fed⟩
  · intro count enough
    have fits : (4 : Int) ≤ (count * 4 : Nat) := enough
    omega
  · intro count enough
    have fits : (4 : Int) ≤ (count * 3 : Nat) := enough
    omega

end Starved

end KaraokeAnything.Mdx23cVocals
