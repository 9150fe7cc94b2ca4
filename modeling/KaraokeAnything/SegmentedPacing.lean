import Mathlib.Order.Bounds.Defs
import KaraokeAnything.Library.Pacing
import KaraokeAnything.SegmentedLedger

/-! The pace of a segment processor on packets of one size: the calls that launch a
segment, the calls that hand an output back, and the delay between them. -/
namespace KaraokeAnything.SegmentedInference
open ByteOrder Kany Models Pacing Python Stateful

/- A run with its `process` calls counted: at which of them a segment was launched,
with which packets, and at which an output left. -/
structure Timeline where
  world : World
  calls : Nat := 0
  launches : List (Nat × List KanyPacket) := []
  emissions : List (Nat × ProcessedPacket) := []

def tick (host : HostOrder) (model : SegmentModel) (t : Timeline) (event : Event) : Timeline :=
  let world := step host model t.world event
  let calls := match event with
    | .process _ => t.calls + 1
    | _ => t.calls
  let segment := (world.self.inferenceTask.map (·.segment.packets)).getD []
  { world, calls
    launches := t.launches ++
      if world.self.segmentsStarted = t.world.self.segmentsStarted then [] else [(calls, segment)]
    emissions := t.emissions ++
      (world.journal.emitted.drop t.world.journal.emitted.length).map (calls, ·) }

def timeline (host : HostOrder) (model : SegmentModel) (segmentSeconds : Float)
    (events : List Event) : Timeline :=
  events.foldl (tick host model) { world := fresh segmentSeconds }

def Feeds (host : HostOrder) (model : SegmentModel) (rate channels frames : Nat) : Event → Prop
  | .process payload => ∃ packet, model.decodeAndValidate host payload = .ok packet ∧
    packet.sampleRate = rate ∧ packet.channels = channels ∧ packet.frames = frames
  | .flush => False
  | .inferenceEnds _ => True

/- An inference returns an array of the expected length, and no call finds it running
that is `delay` or more calls behind its launch. -/
def Timely (delay : Nat) (t : Timeline) : Event → Prop
  | .process _ => ∀ segment, t.world.self.inferenceTask = some ⟨segment, none⟩ →
    ∀ launch, t.launches.getLast? = some launch → t.calls + 1 < launch.1 + delay
  | .inferenceEnds outcome => ∀ segment, t.world.self.inferenceTask = some ⟨segment, none⟩ →
    ∃ separated, outcome = .returned separated ∧ separated.length = sampleTotal segment.packets
  | .flush => True

def given (host : HostOrder) (model : SegmentModel) (events : List Event) : List KanyPacket :=
  events.filterMap (Event.decoded host model)

section Batched
variable {host : HostOrder} {model : SegmentModel} {segmentSeconds : Float}
  {rate channels frames k : Nat} {length : Int} {line : List KanyPacket} {w : World}

structure Fits (segmentSeconds : Float) (rate frames k : Nat) (length : Int) : Prop where
  rounded : (round (Float.ofNat rate * segmentSeconds)).map (max 1) = .ok length
  least : IsLeast {count : Nat | length ≤ (count * frames : Nat)} k

theorem fitsPositive (fits : Fits segmentSeconds rate frames k length) : 1 ≤ length := by
  have rounded := fits.rounded
  cases value : round (Float.ofNat rate * segmentSeconds) with
  | error e =>
    rw [value] at rounded
    contradiction
  | ok n =>
    rw [value] at rounded
    cases rounded
    exact Int.le_max_left 1 n

theorem fitsFewer (fits : Fits segmentSeconds rate frames k length) {count : Nat} (less : count < k) :
    ((count * frames : Nat) : Int) < length := by
  by_contra enough
  exact absurd (fits.least.2 (Int.not_lt.mp enough)) (Nat.not_le.mpr less)

theorem fitsSome (fits : Fits segmentSeconds rate frames k length) : 0 < k := by
  have positive := fitsPositive fits
  have enough : length ≤ (k * frames : Nat) := fits.least.1
  rcases Nat.eq_zero_or_pos k with rfl | some
  · rw [Nat.zero_mul] at enough
    omega
  · exact some

structure Batched (host : HostOrder) (segmentSeconds : Float) (rate channels frames k : Nat)
    (line : List KanyPacket) (w : World) : Prop where
  sizes : ∀ packet ∈ line, packet.frames = frames
  seconds : w.self.segmentSeconds = segmentSeconds
  format : w.self.streamSampleRate = none ∨
    w.self.streamSampleRate = some rate ∧ w.self.streamChannels = some channels
  input : w.self.inputPackets = pending k line
  total : w.self.inputFrames = (w.self.inputPackets.length * frames : Nat)
  active : w.self.activePackets = (w.self.inferenceTask.map (·.segment.packets)).getD []
  segments : w.journal.harvested.map (·.packets) ++
    (w.self.inferenceTask.map (·.segment.packets)).toList = batches k line
  sound : ∀ segment outcome, w.self.inferenceTask = some ⟨segment, some outcome⟩ →
    ∃ separated, outcome = .returned separated ∧ separated.length = sampleTotal segment.packets
  carried : ∃ released, List.Forall₂ (Carries host) w.journal.harvested released ∧
    w.journal.emitted ++ w.self.readyOutput = released.flatten

structure Cleared (host : HostOrder) (model : SegmentModel) (w : World) : Prop where
  settled : (exec (harvestInference host model) w.self).1 = .ok ()
  started : (afterHarvest host model w).self.segmentsStarted = w.self.segmentsStarted
  running : ∀ task, (afterHarvest host model w).self.inferenceTask = some task →
    task.outcome = none ∧ w.self.inferenceTask = some task

theorem harvestBatched (host : HostOrder) (model : SegmentModel)
    (h : Batched host segmentSeconds rate channels frames k line w) :
    Batched host segmentSeconds rate channels frames k line (afterHarvest host model w) ∧
      Cleared host model w := by
  cases done : w.self.inferenceTask.bind (·.outcome) with
  | none =>
    have entry := harvestedNothing done
    have idle := harvestIdle host model done
    have same : afterHarvest host model w = w := by
      rw [afterHarvest, idle, entry, List.append_nil]
    rw [same]
    refine ⟨h, congrArg Prod.fst idle, congrArg (·.self.segmentsStarted) same, fun task known => ?_⟩
    rw [same] at known
    rw [known] at done
    exact ⟨done, known⟩
  | some outcome =>
    obtain ⟨⟨segment, finished⟩, task, same⟩ := Option.bind_eq_some_iff.mp done
    cases same
    obtain ⟨separated, rfl, size⟩ := h.sound segment outcome task
    have active : w.self.activePackets = segment.packets := by simpa [task] using h.active
    have entry : harvestedNow w.self = [⟨segment.packets, .returned separated⟩] := by
      rw [harvestedNow, task]
    have ready := harvestReady host model done (by rw [active]; exact size)
    have segments := h.segments
    rw [task] at segments
    obtain ⟨released, carries, emitted⟩ := h.carried
    have after : afterHarvest host model w = {
        self := { w.self with
          inferenceTask := none
          activePackets := []
          readyOutput := w.self.readyOutput ++ slices separated segment.packets 0
          segmentsCompleted := w.self.segmentsCompleted + 1
          lastError := none }
        journal := { w.journal with
          harvested := w.journal.harvested ++ [⟨segment.packets, .returned separated⟩] } } := by
      rw [afterHarvest, ready, entry, active]
    refine ⟨?_, congrArg Prod.fst ready, congrArg (·.self.segmentsStarted) after, fun other known => ?_⟩
    · rw [after]
      exact {
        sizes := h.sizes
        seconds := h.seconds
        format := h.format
        input := h.input
        total := h.total
        active := rfl
        segments := by
          rw [List.map_append]
          simpa using segments
        sound := fun _ _ finished => absurd finished.symm (Option.some_ne_none _)
        carried := by
          refine ⟨released ++ [slices separated segment.packets 0],
            List.rel_append carries (.cons (slicesCarry host size) .nil), ?_⟩
          rw [← List.append_assoc, emitted, List.flatten_append, List.flatten_singleton] }
    · rw [after] at known
      contradiction

theorem takeWhole (length : Int) (packets : List KanyPacket) (sizes : ∀ p ∈ packets, p.frames = frames)
    (start : Int) (short : ∀ count < packets.length, start + (count * frames : Nat) < length) :
    takeSegment (·.frames) length packets start =
      (packets, start + (packets.length * frames : Nat), []) := by
  induction packets generalizing start with
  | nil => simp [takeSegment]
  | cons packet rest ih =>
    have size := sizes packet List.mem_cons_self
    have first := short 0 (Nat.succ_pos _)
    have more := ih (fun p inside => sizes p (List.mem_cons_of_mem _ inside)) (start + packet.frames)
      (fun count less => by
        have next := short (count + 1) (Nat.succ_lt_succ less)
        rw [size]
        push_cast at next ⊢
        rw [Int.add_mul] at next
        omega)
    rw [Nat.zero_mul] at first
    rw [takeSegment, if_pos (by simpa using first), more, size, List.length_cons]
    push_cast
    rw [Int.add_mul]
    simp [Int.add_assoc, Int.add_comm]

structure Arrived (k : Nat) (line : List KanyPacket) (packet : KanyPacket) (s u : State) : Prop where
  launch : exec launchWhenReady (queued s packet) = (.ok (), u)
  ready : u.readyOutput = s.readyOutput
  whole : k ∣ line.length + 1 → u.segmentsStarted = s.segmentsStarted + 1 ∧
    (u.inferenceTask.map (·.segment.packets)).getD [] = batch k (line ++ [packet]) (line.length / k)
  ragged : ¬ k ∣ line.length + 1 → u.segmentsStarted = s.segmentsStarted

def afterArrival (w : World) (payload : Bytes) (u : State) : World where
  self := u
  journal := { w.journal with accepted := w.journal.accepted ++ [payload] }

section Arrivals
variable {packet : KanyPacket} (h : Batched host segmentSeconds rate channels frames k line w)
include h

theorem arrivedTarget (fits : Fits segmentSeconds rate frames k length)
    (known : packet.sampleRate = rate) : target (queued w.self packet) = .ok length := by
  have rounded := fits.rounded
  rw [← known, ← h.seconds] at rounded
  exact rounded

theorem arrivedInput : (queued w.self packet).inputPackets = pending k line ++ [packet] := by
  rw [← h.input]
  rfl

theorem arrivedTotal (size : packet.frames = frames) : (queued w.self packet).inputFrames =
    ((queued w.self packet).inputPackets.length * frames : Nat) := by
  simp only [queued, withFormat, h.total, size, List.length_append, List.length_singleton]
  push_cast
  rw [Int.add_mul, Int.one_mul]

theorem arrivedSizes (size : packet.frames = frames) : ∀ p ∈ line ++ [packet], p.frames = frames := by
  intro p inside
  rcases List.mem_append.mp inside with before | last
  · exact h.sizes p before
  · rw [List.mem_singleton.mp last, size]

theorem arrivedCut (fits : Fits segmentSeconds rate frames k length) (size : packet.frames = frames)
    (whole : k ∣ line.length + 1) :
    takeSegment (·.frames) length (queued w.self packet).inputPackets 0 =
      (batch k (line ++ [packet]) (line.length / k), (queued w.self packet).inputFrames, []) := by
  have count : (pending k line ++ [packet]).length = k := by
    rw [List.length_append, List.length_singleton, pendingWhole whole]
  have inside : ∀ p ∈ pending k line ++ [packet], p.frames = frames := by
    have within : (pending k line ++ [packet]).Sublist (line ++ [packet]) :=
      (List.drop_sublist _ _).append_right _
    exact fun p member => arrivedSizes h size p (within.subset member)
  have total : (queued w.self packet).inputFrames = 0 + ((k * frames : Nat) : Int) := by
    rw [arrivedTotal h size, arrivedInput h, count, Int.zero_add]
  have taken := takeWhole length _ inside 0 (fun fewer less => by
    rw [count] at less
    simpa using fitsFewer fits less)
  rw [arrivedInput h, taken, total, count, pendingLast (fitsSome fits) whole]

theorem completesBatched (fits : Fits segmentSeconds rate frames k length)
    (known : packet.sampleRate = rate) (wide : packet.channels = channels)
    (size : packet.frames = frames) (whole : k ∣ line.length + 1) (idle : w.self.inferenceTask = none)
    (payload : Bytes) :
    Arrived k line packet w.self (launched (queued w.self packet) length) ∧
      Batched host segmentSeconds rate channels frames k (line ++ [packet])
        (afterArrival w payload (launched (queued w.self packet) length)) := by
  have cut := arrivedCut h fits size whole
  have due : length ≤ (queued w.self packet).inputFrames := by
    rw [arrivedTotal h size, arrivedInput h, List.length_append, List.length_singleton,
      pendingWhole whole]
    exact fits.least.1
  refine ⟨⟨launchReady idle (arrivedTarget h fits known) due, rfl, fun _ => ⟨rfl, ?_⟩,
    fun ragged => absurd whole ragged⟩, ?_⟩
  · simp only [launched, cut]
    rfl
  · exact {
      sizes := arrivedSizes h size
      seconds := h.seconds
      format := .inr ⟨congrArg some known, congrArg some wide⟩
      input := by
        rw [pendingSnoc, if_pos whole]
        simp only [afterArrival, launched, cut]
      total := by
        simp only [afterArrival, launched, cut]
        simp
      active := rfl
      segments := by
        have segments := h.segments
        rw [idle] at segments
        rw [batchesSnoc, if_pos whole, ← segments]
        simp only [afterArrival, launched, cut]
        simp
      sound := fun segment outcome finished =>
        absurd (InferenceTask.mk.inj (Option.some.inj finished)).2 (Option.some_ne_none outcome).symm
      carried := h.carried }

theorem waitsBatched (fits : Fits segmentSeconds rate frames k length)
    (known : packet.sampleRate = rate) (wide : packet.channels = channels)
    (size : packet.frames = frames) (ragged : ¬ k ∣ line.length + 1) (payload : Bytes) :
    Arrived k line packet w.self (queued w.self packet) ∧
      Batched host segmentSeconds rate channels frames k (line ++ [packet])
        (afterArrival w payload (queued w.self packet)) := by
  have short : ¬ length ≤ (queued w.self packet).inputFrames := by
    rw [arrivedTotal h size, arrivedInput h, List.length_append, List.length_singleton]
    exact Int.not_le.mpr (fitsFewer fits (pendingShort (fitsSome fits) ragged))
  have launch : exec launchWhenReady (queued w.self packet) = (.ok (), queued w.self packet) := by
    cases task : w.self.inferenceTask with
    | none => exact launchShort task (arrivedTarget h fits known) short
    | some running => exact launchBusy task
  refine ⟨⟨launch, rfl, fun whole => absurd whole ragged, fun _ => rfl⟩, ?_⟩
  exact {
    sizes := arrivedSizes h size
    seconds := h.seconds
    format := .inr ⟨congrArg some known, congrArg some wide⟩
    input := by
      rw [pendingSnoc, if_neg ragged]
      exact arrivedInput h
    total := arrivedTotal h size
    active := h.active
    segments := by
      rw [batchesSnoc, if_neg ragged, List.append_nil]
      exact h.segments
    sound := h.sound
    carried := h.carried }

end Arrivals

theorem emitBatched (count : Nat) (h : Batched host segmentSeconds rate channels frames k line w) :
    Batched host segmentSeconds rate channels frames k line (afterEmit w count) := by
  obtain ⟨released, carries, emitted⟩ := h.carried
  exact { h with
    sizes := h.sizes
    seconds := h.seconds
    format := h.format
    input := h.input
    total := h.total
    active := h.active
    segments := h.segments
    sound := h.sound
    carried := ⟨released, carries, by simpa [afterEmit] using emitted⟩ }

theorem harvestedCount (h : Batched host segmentSeconds rate channels frames k line w) :
    w.journal.harvested.length + w.self.inferenceTask.toList.length = line.length / k := by
  have count := congrArg List.length h.segments
  rw [List.length_append, List.length_map, batches, List.length_map, List.length_range] at count
  rw [← count]
  cases w.self.inferenceTask <;> rfl

theorem carriedLength {harvested : List Harvest} {released : List (List ProcessedPacket)}
    (carried : List.Forall₂ (Carries host) harvested released)
    (whole : ∀ packets ∈ harvested.map (·.packets), packets.length = k) :
    released.flatten.length = harvested.length * k := by
  induction carried with
  | nil => exact (Nat.zero_mul k).symm
  | @cons harvest outputs _ _ carries _ ih =>
    have first := congrArg List.length carries.headers
    have size := whole harvest.packets List.mem_cons_self
    rw [List.length_map, List.length_map, size] at first
    rw [List.flatten_cons, List.length_append, List.length_cons,
      ih (fun packets inside => whole packets (List.mem_cons_of_mem _ inside)), first, Nat.succ_mul]
    exact Nat.add_comm _ _

theorem outputCount (h : Batched host segmentSeconds rate channels frames k line w) :
    w.journal.emitted.length + w.self.readyOutput.length = w.journal.harvested.length * k := by
  obtain ⟨released, carries, emitted⟩ := h.carried
  have count := congrArg List.length emitted
  rw [List.length_append] at count
  rw [count]
  refine carriedLength carries (fun packets inside => ?_)
  have member : packets ∈ batches k line := by
    rw [← h.segments]
    exact List.mem_append_left _ inside
  obtain ⟨j, within, rfl⟩ := List.mem_map.mp member
  exact batchLength (List.mem_range.mp within)

end Batched

section Timelines
variable {host : HostOrder} {model : SegmentModel} {segmentSeconds : Float}
  {rate channels frames k delay : Nat} {length : Int} {line : List KanyPacket} {t : Timeline}

def schedule (k : Nat) (line : List KanyPacket) : List (Nat × List KanyPacket) :=
  (List.range (line.length / k)).map (fun j => ((j + 1) * k, batch k line j))

theorem scheduleSnoc (packet : KanyPacket) : schedule k (line ++ [packet]) = schedule k line ++
    if k ∣ line.length + 1 then
      [(line.length + 1, batch k (line ++ [packet]) (line.length / k))] else [] := by
  have kept : (List.range (line.length / k)).map
      (fun j => ((j + 1) * k, batch k (line ++ [packet]) j)) = schedule k line :=
    List.map_congr_left (fun j inside => by rw [batchAppend (List.mem_range.mp inside)])
  rw [schedule, List.length_append, List.length_singleton, Nat.succ_div]
  split
  · rename_i whole
    have call : (line.length / k + 1) * k = line.length + 1 := by
      rw [← Nat.succ_div_of_dvd whole, Nat.div_mul_cancel whole]
    rw [List.range_succ, List.map_append, kept, List.map_singleton, call]
  · rw [Nat.add_zero, kept, List.append_nil]

theorem scheduleLast {launch : Nat × List KanyPacket}
    (last : (schedule k line).getLast? = some launch) : launch.1 = line.length / k * k := by
  rw [schedule] at last
  generalize line.length / k = count at last ⊢
  cases count with
  | zero => contradiction
  | succ count =>
    rw [List.range_succ, List.map_append, List.map_singleton, List.getLast?_concat] at last
    cases last
    rfl

structure OnPace (host : HostOrder) (segmentSeconds : Float) (rate channels frames k delay : Nat)
    (line : List KanyPacket) (t : Timeline) : Prop where
  calls : t.calls = line.length
  launched : t.launches = schedule k line
  emitted : t.emissions.map (·.2) = t.world.journal.emitted
  batched : Batched host segmentSeconds rate channels frames k line t.world
  steady : Steady k delay t.calls (t.emissions.map (·.1))

theorem stepAdmits {w : World} {payload : Bytes} {packet : KanyPacket} {u : State}
    (settled : (exec (harvestInference host model) w.self).1 = .ok ())
    (decoded : model.decodeAndValidate host payload = .ok packet)
    (fits : FormatFits (afterHarvest host model w).self packet)
    (launch : exec launchWhenReady (queued (afterHarvest host model w).self packet) = (.ok (), u)) :
    step host model w (.process payload) =
      afterEmit (afterArrival (afterHarvest host model w) payload u) 1 := by
  have harvest : exec (harvestInference host model) w.self =
      (.ok (), (afterHarvest host model w).self) := Prod.ext settled rfl
  simp only [step, processAdmits harvest decoded fits launch]
  rfl

theorem runningLate (h : OnPace host segmentSeconds rate channels frames k delay line t)
    {payload : Bytes} (timely : Timely delay t (.process payload)) {segment : Segment}
    (running : t.world.self.inferenceTask = some ⟨segment, none⟩) :
    line.length + 1 < line.length / k * k + delay := by
  have count := harvestedCount h.batched
  rw [running, Option.toList_some, List.length_singleton] at count
  have some : schedule k line ≠ [] := by
    intro none
    have length := congrArg List.length none
    rw [schedule, List.length_map, List.length_range, List.length_nil] at length
    omega
  have last := List.getLast?_eq_some_getLast some
  have bound := timely segment running _ ((congrArg List.getLast? h.launched).trans last)
  rwa [scheduleLast last, h.calls] at bound

section Calls
variable {payload : Bytes} {packet : KanyPacket}

theorem arriveBatched (fits : Fits segmentSeconds rate frames k length) (high : delay ≤ k) {w : World}
    (harvested : Batched host segmentSeconds rate channels frames k line w)
    (late : ∀ task, w.self.inferenceTask = some task →
      line.length + 1 < line.length / k * k + delay)
    (known : packet.sampleRate = rate) (wide : packet.channels = channels)
    (size : packet.frames = frames) (payload : Bytes) :
    ∃ u, Arrived k line packet w.self u ∧
      Batched host segmentSeconds rate channels frames k (line ++ [packet])
        (afterArrival w payload u) := by
  by_cases whole : k ∣ line.length + 1
  · have idle : w.self.inferenceTask = none := by
      cases task : w.self.inferenceTask with
      | none => rfl
      | some running =>
        have early := late running task
        have call : (line.length / k + 1) * k = line.length + 1 := by
          rw [← Nat.succ_div_of_dvd whole, Nat.div_mul_cancel whole]
        rw [Nat.add_mul, Nat.one_mul] at call
        omega
    exact ⟨_, completesBatched harvested fits known wide size whole idle payload⟩
  · exact ⟨_, waitsBatched harvested fits known wide size whole payload⟩

theorem arrivalFits {w : World} (batched : Batched host segmentSeconds rate channels frames k line w)
    (known : packet.sampleRate = rate) (wide : packet.channels = channels) :
    FormatFits w.self packet := by
  intro other set
  rcases batched.format with fresh | ⟨same, two⟩
  · rw [fresh] at set
    contradiction
  · rw [same] at set
    cases Option.some.inj set
    exact ⟨known, two ▸ congrArg some wide⟩

theorem callSteady (fits : Fits segmentSeconds rate frames k length) (low : 1 ≤ delay)
    (h : OnPace host segmentSeconds rate channels frames k delay line t) {w : World}
    (harvested : Batched host segmentSeconds rate channels frames k line w)
    (emitted : w.journal.emitted = t.world.journal.emitted)
    (late : ∀ task, w.self.inferenceTask = some task →
      line.length + 1 < line.length / k * k + delay) :
    Steady k delay (t.calls + 1) (t.emissions.map (·.1) ++
      List.replicate (min 1 w.self.readyOutput.length) (t.calls + 1)) := by
  have outputs := outputCount harvested
  have segments := harvestedCount harvested
  have past := Nat.div_mul_le_self line.length k
  have rest := Nat.mod_lt line.length (fitsSome fits)
  have split := Nat.div_add_mod' line.length k
  have taken := congrArg List.length h.emitted
  rw [List.length_map, ← emitted] at taken
  refine steadyCall h.steady w.journal.harvested.length ?_ ?_ ?_
  · rw [List.length_map, taken]
    exact outputs
  · rw [h.calls]
    refine (Nat.mul_le_mul_right k ?_).trans past
    omega
  · rw [h.calls]
    cases task : w.self.inferenceTask with
    | none =>
      rw [task, Option.toList_none, List.length_nil, Nat.add_zero] at segments
      rw [segments]
      omega
    | some running =>
      have early := late running task
      rw [task, Option.toList_some, List.length_singleton] at segments
      rw [← segments, Nat.add_mul, Nat.one_mul] at early
      omega

theorem callPace (fits : Fits segmentSeconds rate frames k length) (low : 1 ≤ delay)
    (high : delay ≤ k) (h : OnPace host segmentSeconds rate channels frames k delay line t)
    (decoded : model.decodeAndValidate host payload = .ok packet)
    (known : packet.sampleRate = rate) (wide : packet.channels = channels)
    (size : packet.frames = frames) (timely : Timely delay t (.process payload)) :
    OnPace host segmentSeconds rate channels frames k delay (line ++ [packet])
      (tick host model t (.process payload)) := by
  obtain ⟨harvested, cleared⟩ := harvestBatched host model h.batched
  have late (task : InferenceTask) (running : (afterHarvest host model t.world).self.inferenceTask =
      some task) : line.length + 1 < line.length / k * k + delay := by
    obtain ⟨unfinished, before⟩ := cleared.running task running
    obtain ⟨segment, outcome⟩ := task
    cases unfinished
    exact runningLate h timely before
  have accepts := arrivalFits harvested known wide
  have steady := callSteady fits low h harvested rfl late
  obtain ⟨u, arrived, batched⟩ := arriveBatched fits high harvested late known wide size payload
  have stepped := stepAdmits cleared.settled decoded accepts arrived.launch
  have left : (afterEmit (afterArrival (afterHarvest host model t.world) payload u) 1).journal.emitted
      = t.world.journal.emitted ++ u.readyOutput.take 1 := rfl
  have launches : (tick host model t (.process payload)).launches = t.launches ++
      if u.segmentsStarted = t.world.self.segmentsStarted then []
      else [(t.calls + 1, (u.inferenceTask.map (·.segment.packets)).getD [])] := by
    simp only [tick, stepped]
    rfl
  have emissions : (tick host model t (.process payload)).emissions =
      t.emissions ++ (u.readyOutput.take 1).map (t.calls + 1, ·) := by
    simp only [tick, stepped, left, List.drop_left]
  exact {
    calls := by
      rw [List.length_append, List.length_singleton, ← h.calls]
      rfl
    launched := by
      rw [scheduleSnoc, ← h.launched, launches, h.calls]
      by_cases whole : k ∣ line.length + 1
      · obtain ⟨started, segment⟩ := arrived.whole whole
        rw [if_pos whole, segment, started, cleared.started, if_neg (Nat.succ_ne_self _)]
      · rw [if_neg whole, arrived.ragged whole, cleared.started, if_pos rfl]
    emitted := by
      rw [emissions, List.map_append, h.emitted, List.map_map]
      simp only [tick, stepped, left]
      exact congrArg _ (List.map_id _)
    batched := by
      have world : (tick host model t (.process payload)).world =
        afterEmit (afterArrival (afterHarvest host model t.world) payload u) 1 := stepped
      rw [world]
      exact emitBatched 1 batched
    steady := by
      have calls : (tick host model t (.process payload)).calls = t.calls + 1 := rfl
      have log : (tick host model t (.process payload)).emissions.map (·.1) =
          t.emissions.map (·.1) ++
            List.replicate (min 1 (afterHarvest host model t.world).self.readyOutput.length)
              (t.calls + 1) := by
        rw [emissions, List.map_append, List.map_map, arrived.ready]
        simp [Function.comp_def]
      rw [calls, log]
      exact steady }

end Calls

theorem endsPace (h : OnPace host segmentSeconds rate channels frames k delay line t)
    {outcome : InferenceOutcome} (timely : Timely delay t (.inferenceEnds outcome)) :
    OnPace host segmentSeconds rate channels frames k delay line
      (tick host model t (.inferenceEnds outcome)) := by
  cases ends : inferenceEnds outcome t.world.self with
  | none =>
    have same : tick host model t (.inferenceEnds outcome) = t := by
      simp [tick, step, ends]
    rwa [same]
  | some self =>
    obtain ⟨segment, running, rfl⟩ := inferenceEnded ends
    obtain ⟨separated, rfl, size⟩ := timely segment running
    have ticked : tick host model t (.inferenceEnds (.returned separated)) = { t with
        world := { t.world with self := { t.world.self with
          inferenceTask := some ⟨segment, some (.returned separated)⟩ } } } := by
      simp [tick, step, ends]
    have segments := h.batched.segments
    have active := h.batched.active
    rw [running] at segments active
    rw [ticked]
    exact { h with
      calls := h.calls
      launched := h.launched
      emitted := h.emitted
      batched := { h.batched with
        sizes := h.batched.sizes
        seconds := h.batched.seconds
        format := h.batched.format
        input := h.batched.input
        total := h.batched.total
        active := active
        segments := segments
        sound := fun other outcome finished => by
          cases finished
          exact ⟨separated, rfl, size⟩
        carried := h.batched.carried }
      steady := h.steady }

theorem givenSnoc (events : List Event) (event : Event) : given host model (events ++ [event]) =
    given host model events ++ (event.decoded host model).toList := by
  rw [given, List.filterMap_append, ← given]
  cases known : event.decoded host model <;> simp [known]

theorem runPace (fits : Fits segmentSeconds rate frames k length) (low : 1 ≤ delay)
    (high : delay ≤ k) {events : List Event}
    (feeds : ∀ event ∈ events, Feeds host model rate channels frames event)
    (timely : ∀ before event, before ++ [event] <+: events →
      Timely delay (timeline host model segmentSeconds before) event) :
    OnPace host segmentSeconds rate channels frames k delay (given host model events)
      (timeline host model segmentSeconds events) := by
  induction events using List.reverseRecOn with
  | nil =>
    have empty : batches k ([] : List KanyPacket) = [] := by
      rw [batches, List.length_nil, Nat.zero_div]
      rfl
    have schedules : schedule k [] = [] := by
      rw [schedule, List.length_nil, Nat.zero_div]
      rfl
    exact {
      calls := rfl
      launched := schedules.symm
      emitted := rfl
      batched := {
        sizes := List.forall_mem_nil _
        seconds := rfl
        format := .inl rfl
        input := List.drop_nil.symm
        total := by simp [timeline, fresh]
        active := rfl
        segments := empty.symm
        sound := fun _ _ finished => absurd finished.symm (Option.some_ne_none _)
        carried := ⟨[], .nil, rfl⟩ }
      steady := steadyNil low }
  | append_singleton events event ih =>
    have before := ih (fun other inside => feeds other (List.mem_append_left _ inside))
      (fun head last cut => timely head last (cut.trans (List.prefix_append _ _)))
    have now := timely events event (List.prefix_refl _)
    have fed := feeds event (List.mem_append_right _ (List.mem_singleton.mpr rfl))
    have ticked : timeline host model segmentSeconds (events ++ [event]) =
        tick host model (timeline host model segmentSeconds events) event := by
      rw [timeline, List.foldl_append]
      rfl
    rw [givenSnoc, ticked]
    cases event with
    | process payload =>
      obtain ⟨packet, decoded, known, wide, size⟩ := fed
      have arrives : (Event.process payload).decoded host model = some packet := by
        rw [Event.decoded, decoded]
        rfl
      rw [arrives]
      exact callPace fits low high before decoded known wide size now
    | flush => exact fed.elim
    | inferenceEnds outcome =>
      have none : (Event.inferenceEnds outcome).decoded host model = none := rfl
      rw [none, Option.toList_none, List.append_nil]
      exact endsPace before now

theorem carriedHeaders {harvested : List Harvest} {released : List (List ProcessedPacket)}
    (carried : List.Forall₂ (Carries host) harvested released) :
    released.flatten.map (·.payload.take headerSize) =
      (harvested.map (·.packets)).flatten.map (·.rawHeader) := by
  induction carried with
  | nil => rfl
  | cons carries _ ih =>
    rw [List.flatten_cons, List.map_append, carries.headers, ih, List.map_cons, List.flatten_cons,
      List.map_append]

structure KeepsPace (host : HostOrder) (k delay : Nat) (line : List KanyPacket) (t : Timeline) :
    Prop where
  calls : t.calls = line.length
  launched : t.launches = (List.range (t.calls / k)).map
    (fun j => ((j + 1) * k, (line.drop (j * k)).take k))
  single : (t.emissions.map (·.1)).Pairwise (· < ·)
  headers : t.emissions.map (·.2.payload.take headerSize) <+: line.map (·.rawHeader)
  carried : ∃ released, List.Forall₂ (Carries host) t.world.journal.harvested released ∧
    t.emissions.map (·.2) <+: released.flatten ∧
    t.world.journal.harvested.map (·.packets) <+: t.launches.map (·.2)
  window : ∀ i call, (t.emissions.map (·.1))[i]? = some call →
    i + 1 + k ≤ call ∧ call ≤ i + k + delay
  due : ∀ i, i + k + delay ≤ t.calls → i < t.emissions.length
  gaps : ∀ first, (t.emissions.map (·.1)).head? = some first →
    {call ∈ Finset.Ioc first t.calls | call ∉ t.emissions.map (·.1)}.card ≤ delay - 1

theorem onPaceKeeps (h : OnPace host segmentSeconds rate channels frames k delay line t) :
    KeepsPace host k delay line t := by
  obtain ⟨released, carries, emitted⟩ := h.batched.carried
  have outputs : t.emissions.map (·.2) <+: released.flatten :=
    ⟨t.world.self.readyOutput, by rw [h.emitted, emitted]⟩
  have segments : t.launches.map (·.2) = batches k line := by
    rw [h.launched, schedule, List.map_map]
    rfl
  have packets : t.world.journal.harvested.map (·.packets) <+: batches k line :=
    ⟨_, h.batched.segments⟩
  have headers : t.emissions.map (·.2.payload.take headerSize) <+: line.map (·.rawHeader) := by
    have first := outputs.map (·.payload.take headerSize)
    rw [carriedHeaders carries, List.map_map] at first
    have second := packets.flatten.map (·.rawHeader)
    have third := (List.take_prefix (line.length / k * k) line).map (·.rawHeader)
    rw [batchesFlatten] at second
    exact first.trans (second.trans third)
  exact {
    calls := h.calls
    launched := by rw [h.calls]; exact h.launched
    single := h.steady.increasing
    headers := headers
    carried := ⟨released, carries, outputs, segments ▸ packets⟩
    window := h.steady.window
    due := fun i passed => by simpa using steadyDue h.steady passed
    gaps := fun first head => steadyGaps h.steady head }

theorem pacedOutput (host : HostOrder) (model : SegmentModel) (segmentSeconds : Float)
    (rate channels frames k delay : Nat) (length : Int)
    (rounded : (round (Float.ofNat rate * segmentSeconds)).map (max 1) = .ok length)
    (least : IsLeast {count : Nat | length ≤ (count * frames : Nat)} k)
    (low : 1 ≤ delay) (high : delay ≤ k) (events : List Event)
    (feeds : ∀ event ∈ events, Feeds host model rate channels frames event)
    (timely : ∀ before event, before ++ [event] <+: events →
      Timely delay (timeline host model segmentSeconds before) event) :
    KeepsPace host k delay (given host model events) (timeline host model segmentSeconds events) :=
  onPaceKeeps (runPace ⟨rounded, least⟩ low high feeds timely)

def pacedSilence : List Event :=
  [.process stereoSilence, .inferenceEnds (.returned [0, 0]), .process stereoSilence]

theorem pacedOutputSilence : KeepsPace .little 1 1 (given .little htdemucs pacedSilence)
    (timeline .little htdemucs 0.00002 pacedSilence) := by
  refine pacedOutput .little htdemucs 0.00002 48000 2 1 1 1 1 (by decide +kernel)
    ⟨by decide, fun count some => by simpa using some⟩ (Nat.le_refl 1) (Nat.le_refl 1) pacedSilence ?_ ?_
  · intro event inside
    simp only [pacedSilence, List.mem_cons, List.not_mem_nil, or_false] at inside
    rcases inside with rfl | rfl | rfl
    · exact ⟨_, rfl, rfl, rfl, rfl⟩
    · trivial
    · exact ⟨_, rfl, rfl, rfl, rfl⟩
  · intro before event cut
    rcases before with _ | ⟨first, _ | ⟨second, _ | ⟨third, before⟩⟩⟩
    · cases (List.cons_prefix_cons.mp cut).1
      exact nofun
    · cases (List.cons_prefix_cons.mp cut).1
      cases (List.cons_prefix_cons.mp (List.cons_prefix_cons.mp cut).2).1
      intro segment running
      cases running
      exact ⟨_, rfl, rfl⟩
    · cases (List.cons_prefix_cons.mp cut).1
      cases (List.cons_prefix_cons.mp (List.cons_prefix_cons.mp cut).2).1
      cases (List.cons_prefix_cons.mp (List.cons_prefix_cons.mp (List.cons_prefix_cons.mp cut).2).2).1
      exact nofun
    · have length := cut.length_le
      simp only [pacedSilence, List.length_append, List.length_cons, List.length_nil] at length
      omega

end Timelines

end KaraokeAnything.SegmentedInference
