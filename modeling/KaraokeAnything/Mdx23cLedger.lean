import Mathlib.Data.List.Forall2
import KaraokeAnything.Mdx23cStream

/-! The ledger of MDX23C over runs of one stream: in which of six places every
accepted packet is, and which inference result every output carries. -/
namespace KaraokeAnything.Mdx23cVocals
open Binary64
open ByteOrder Kany Models Python Stateful
open Processors (MDX23CVocalsConfig)
open SegmentedInference (InferenceOutcome Segment slices slicesCarry stereoSilence takeSegment
  takenSegment)

structure Harvest where
  before : State
  segment : Segment
  outcome : InferenceOutcome

structure Journal where
  accepted : List Bytes := []
  harvested : List Harvest := []
  emitted : List ProcessedPacket := []

structure World where
  self : State
  journal : Journal := {}

def harvestedNow (s : State) : List Harvest :=
  match s.inferenceTask with
  | some ⟨segment, some outcome⟩ => [⟨s, segment, outcome⟩]
  | _ => []

def step (host : HostOrder) (w : World) (event : Event) : World :=
  let call := next host w.self event
  let harvested := w.journal.harvested ++ harvestedNow w.self
  let emitted := w.journal.emitted ++ call.1.getD []
  match event with
  | .process payload =>
    let accepted := w.journal.accepted ++ (if call.1.isSome then [payload] else [])
    { self := call.2, journal := { accepted, harvested, emitted } }
  | .flush => { self := call.2, journal := { w.journal with harvested, emitted } }
  | _ => { w with self := call.2 }

def ledgerRun (host : HostOrder) (config : MDX23CVocalsConfig) (events : List Event) : World :=
  events.foldl (step host) { self := newState config }

def Harvest.result (h : Harvest) : Option (List UInt32) :=
  match h.outcome with
  | .returned output =>
    if output.length = SegmentedInference.sampleTotal h.segment.packets then some output else none
  | _ => none

def Carries (host : HostOrder) (h : Harvest) (outputs : List ProcessedPacket) : Prop :=
  ∃ output, h.result = some output ∧ SegmentedInference.Carries host
    ⟨h.segment.packets, .returned (crossfaded h.before output)⟩ outputs

def sources (harvested : List Harvest) : List KanyPacket :=
  (harvested.filter (·.result.isSome)).flatMap (·.segment.packets)

def failed (harvested : List Harvest) : List KanyPacket :=
  (harvested.filter (·.result.isNone)).flatMap (·.segment.packets)

def packetsOf (host : HostOrder) (payloads : List Bytes) : List KanyPacket :=
  payloads.filterMap (fun payload => (decodeAndValidate host payload).toOption.map (·.val))

def launchedSegments (w : World) : List (List KanyPacket) :=
  w.journal.harvested.map (·.segment.packets) ++
    (w.self.inferenceTask.map (·.segment.packets)).toList

structure Ledger (host : HostOrder) (w : World) : Prop where
  valid : (packetsOf host w.journal.accepted).length = w.journal.accepted.length
  order : (sources w.journal.harvested ++ items w.self.activePackets ++
    items w.self.inputPackets).Sublist (packetsOf host w.journal.accepted)
  started : (launchedSegments w).length = w.self.segmentsStarted
  contiguous : ∀ segment ∈ launchedSegments w, segment <:+: packetsOf host w.journal.accepted
  count : (packetsOf host w.journal.accepted).length = w.journal.emitted.length +
    w.self.readyOutput.length + w.self.activePackets.length + w.self.inputPackets.length +
    w.self.droppedPackets + (failed w.journal.harvested).length
  outputs : ∃ released,
    List.Forall₂ (Carries host) (w.journal.harvested.filter (·.result.isSome)) released ∧
      w.journal.emitted ++ w.self.readyOutput = released.flatten

section Accounts
variable {host : HostOrder} {config : MDX23CVocalsConfig} {rate : Nat} {w : World}

structure Accounted (host : HostOrder) (w : World) : Prop where
  valid : (packetsOf host w.journal.accepted).length = w.journal.accepted.length
  order : (sources w.journal.harvested ++ items w.self.activePackets ++
    items w.self.inputPackets).Sublist (packetsOf host w.journal.accepted)
  newest : items w.self.inputPackets <:+ packetsOf host w.journal.accepted
  started : (launchedSegments w).length = w.self.segmentsStarted
  contiguous : ∀ segment ∈ launchedSegments w, segment <:+: packetsOf host w.journal.accepted
  count : (packetsOf host w.journal.accepted).length = (sources w.journal.harvested).length +
    w.self.activePackets.length + w.self.inputPackets.length + w.self.droppedPackets +
    (failed w.journal.harvested).length
  outputs : ∃ released,
    List.Forall₂ (Carries host) (w.journal.harvested.filter (·.result.isSome)) released ∧
      w.journal.emitted ++ w.self.readyOutput = released.flatten
  frames : w.self.inputFrames = frameTotal w.self.inputPackets
  active : items w.self.activePackets = (w.self.inferenceTask.map (·.segment.packets)).getD []

theorem carriesLength {harvested : List Harvest} {released : List (List ProcessedPacket)}
    (carried : List.Forall₂ (Carries host) harvested released) :
    released.flatten.length = (harvested.flatMap (·.segment.packets)).length := by
  induction carried with
  | nil => rfl
  | cons carries _ ih =>
    obtain ⟨_, _, carries⟩ := carries
    have headers := congrArg List.length carries.headers
    rw [List.length_map, List.length_map] at headers
    rw [List.flatten_cons, List.flatMap_cons, List.length_append, List.length_append, ih, headers]

theorem accountedLedger (h : Accounted host w) : Ledger host w where
  valid := h.valid
  order := h.order
  started := h.started
  contiguous := h.contiguous
  outputs := h.outputs
  count := by
    obtain ⟨released, carried, emitted⟩ := h.outputs
    have outputs := congrArg List.length emitted
    rw [List.length_append, carriesLength carried] at outputs
    have count := h.count
    rw [sources] at count
    omega

def afterHarvest (host : HostOrder) (w : World) : World where
  self := (exec (harvestInference host) w.self).2
  journal := { w.journal with harvested := w.journal.harvested ++ harvestedNow w.self }

theorem sourcesSnoc (harvested : List Harvest) (h : Harvest) :
    sources (harvested ++ [h]) =
      sources harvested ++ (if h.result.isSome then h.segment.packets else []) := by
  rw [sources, List.filter_append, List.flatMap_append, ← sources]
  cases known : h.result <;> simp [known]

theorem failedSnoc (harvested : List Harvest) (h : Harvest) :
    failed (harvested ++ [h]) =
      failed harvested ++ (if h.result.isSome then [] else h.segment.packets) := by
  rw [failed, List.filter_append, List.flatMap_append, ← failed]
  cases known : h.result <;> simp [known]

theorem failedResult {s : State} {segment : Segment} {outcome : InferenceOutcome}
    (active : items s.activePackets = segment.packets) (failed : Failed s outcome) :
    (Harvest.mk s segment outcome).result = none := by
  cases outcome with
  | returned output =>
    have size : output.length ≠ sampleTotal s.activePackets := failed
    rw [sampleTotalItems, active] at size
    exact if_neg size
  | raised text => rfl
  | cancelled => rfl

theorem settledAccounted (h : Accounted host w) {segment : Segment}
    {outcome : InferenceOutcome} (task : w.self.inferenceTask = some ⟨segment, some outcome⟩)
    {ready : List ProcessedPacket} {tail : Option (List UInt32)} {completed : Nat}
    {error : Option String}
    (outputs : ∃ released, List.Forall₂ (Carries host)
      ((w.journal.harvested ++ [Harvest.mk w.self segment outcome]).filter (·.result.isSome)) released ∧
        w.journal.emitted ++ ready = released.flatten) :
    Accounted host {
      self := { w.self with
        inferenceTask := none, activePackets := [], readyOutput := ready, previousTail := tail
        segmentsCompleted := completed, lastError := error }
      journal := { w.journal with
        harvested := w.journal.harvested ++ [⟨w.self, segment, outcome⟩] } } := by
  have active : items w.self.activePackets = segment.packets := by
    simpa [task] using h.active
  have size : w.self.activePackets.length = segment.packets.length := by
    rw [← active, items, List.length_map]
  have segments : launchedSegments w =
      w.journal.harvested.map (·.segment.packets) ++ [segment.packets] := by
    rw [launchedSegments, task]
    rfl
  have order := h.order
  have count := h.count
  have started := h.started
  have contiguous := h.contiguous
  rw [active] at order
  rw [size] at count
  rw [segments] at started contiguous
  exact {
    valid := h.valid
    order := by
      rw [sourcesSnoc]
      split
      · simpa [items] using order
      · refine List.Sublist.trans ?_ order
        simp [items]
    newest := h.newest
    started := by simpa [launchedSegments] using started
    contiguous := by simpa [launchedSegments] using contiguous
    count := by
      change (packetsOf host w.journal.accepted).length = _
      rw [count, sourcesSnoc, failedSnoc]
      split <;> simp only [List.length_append, List.length_nil] <;> omega
    outputs := outputs
    frames := h.frames
    active := rfl }

theorem harvestedNothing {s : State} (running : s.inferenceTask.bind (·.outcome) = none) :
    harvestedNow s = [] := by
  unfold harvestedNow
  split
  · rename_i segment outcome ended
    rw [ended] at running
    contradiction
  · rfl

theorem harvestAccounted (checked : config.checked = .ok config)
    (streams : Streams config rate w.self) (h : Accounted host w) :
    Accounted host (afterHarvest host w) := by
  cases done : w.self.inferenceTask.bind (·.outcome) with
  | none =>
    have entry := harvestedNothing done
    have same : afterHarvest host w = w := by
      rw [afterHarvest, harvestIdle host done, entry, List.append_nil]
    rwa [same]
  | some outcome =>
    obtain ⟨⟨segment, finished⟩, task, same⟩ := Option.bind_eq_some_iff.mp done
    cases same
    have entry : harvestedNow w.self = [⟨w.self, segment, outcome⟩] := by
      rw [harvestedNow, task]
    have active : items w.self.activePackets = segment.packets := by
      simpa [task] using h.active
    obtain ⟨released, carried, emitted⟩ := h.outputs
    by_cases lost : Failed w.self outcome
    · have result := failedResult active lost
      obtain ⟨e, raised⟩ := harvestFailed host done lost
      rw [afterHarvest, raised, entry]
      refine settledAccounted h task ⟨released, ?_, emitted⟩
      simpa [List.filter_append, result] using carried
    · cases outcome with
      | raised text => exact absurd trivial lost
      | cancelled => exact absurd done streams.uncancelled
      | returned output =>
        have size : output.length = sampleTotal w.self.activePackets := by_contra lost
        have total : output.length = SegmentedInference.sampleTotal segment.packets := by
          rw [size, sampleTotalItems, active]
        have result : (Harvest.mk w.self segment (.returned output)).result = some output :=
          if_pos total
        have carries : Carries host ⟨w.self, segment, .returned output⟩
            (slices (crossfaded w.self output) segment.packets 0) :=
          ⟨output, result, slicesCarry host ((crossfadedLength _ _).trans total)⟩
        have finite := fadeFinite (streamsParameters streams checked) streams.short size
        rw [afterHarvest, harvestReady host done size finite, entry]
        refine settledAccounted h task
          ⟨released ++ [slices (crossfaded w.self output) segment.packets 0], ?_, ?_⟩
        · rw [List.filter_append]
          simpa [result] using List.rel_append carried (.cons carries .nil)
        · rw [← List.append_assoc, emitted, List.flatten_append, List.flatten_singleton, active]

theorem packetsOfSnoc (payloads : List Bytes) {payload : Bytes} {packet : StereoPacket}
    (decoded : decodeAndValidate host payload = .ok packet) :
    packetsOf host (payloads ++ [payload]) = packetsOf host payloads ++ [packet.val] := by
  rw [packetsOf, List.filterMap_append, ← packetsOf]
  simp [decoded, Except.toOption]

def afterAdmit (w : World) (payload : Bytes) (packet : StereoPacket) (maximum : Int) : World where
  self := admitted w.self packet maximum
  journal := { w.journal with accepted := w.journal.accepted ++ [payload] }

theorem admitAccounted {payload : Bytes} {packet : StereoPacket} (maximum : Int)
    (h : Accounted host w) (decoded : decodeAndValidate host payload = .ok packet) :
    Accounted host (afterAdmit w payload packet maximum) := by
  obtain ⟨count, inside, input, dropped, total, _⟩ := admittedExact packet maximum h.frames
  have line : items (admitted w.self packet maximum).inputPackets =
      (items w.self.inputPackets ++ [packet.val]).drop count := by
    rw [input, items, List.map_drop, List.map_append]
    rfl
  have size : (admitted w.self packet maximum).inputPackets.length + count =
      w.self.inputPackets.length + 1 := by
    rw [input, List.length_drop, List.length_append, List.length_singleton]
    omega
  have arrived := packetsOfSnoc w.journal.accepted decoded
  have contiguous := h.contiguous
  exact {
    valid := by
      rw [afterAdmit, arrived, List.length_append, h.valid]
      simp
    order := by
      rw [afterAdmit, arrived, line]
      refine ((List.drop_sublist _ _).append_left _).trans ?_
      rw [← List.append_assoc]
      exact h.order.append_right _
    newest := by
      rw [afterAdmit, arrived, line]
      refine (List.drop_suffix _ _).trans ?_
      obtain ⟨older, split⟩ := h.newest
      exact ⟨older, by rw [← split, List.append_assoc]⟩
    started := h.started
    contiguous := fun segment launched => by
      rw [afterAdmit, arrived]
      exact (h.contiguous segment launched).trans (List.prefix_append _ _).isInfix
    count := by
      have count := h.count
      have active : (admitted w.self packet maximum).activePackets = w.self.activePackets := rfl
      simp only [afterAdmit, arrived, List.length_append, List.length_singleton, dropped, active]
      omega
    outputs := h.outputs
    frames := total
    active := h.active }

def afterLaunch (w : World) (frames : Int) : World := { w with self := launched w.self frames }

theorem launchAccounted {frames : Int} (h : Accounted host w)
    (free : w.self.inferenceTask = none) : Accounted host (afterLaunch w frames) := by
  obtain ⟨split, sum⟩ := takenSegment (·.val.frames) frames w.self.inputPackets 0
  have active : items w.self.activePackets = [] := by simpa [free] using h.active
  have idle : w.self.activePackets = [] := List.map_eq_nil_iff.mp active
  have whole := congrArg items split
  have size := congrArg List.length split
  have total := congrArg frameTotal split
  rw [items, items, List.map_append, ← items, ← items] at whole
  rw [List.length_append] at size
  rw [frameTotalAppend] at total
  have order := h.order
  have count := h.count
  have segments : launchedSegments w = w.journal.harvested.map (·.segment.packets) := by
    rw [launchedSegments, free]
    exact List.append_nil _
  have started := h.started
  have contiguous := h.contiguous
  obtain ⟨older, arrived⟩ := h.newest
  rw [active, List.append_nil, whole] at order
  rw [idle, size, List.length_nil] at count
  rw [segments] at started contiguous
  rw [whole] at arrived
  have taken : (takeSegment (·.val.frames) frames w.self.inputPackets 0).2.1 =
      frameTotal (takeSegment (·.val.frames) frames w.self.inputPackets 0).1 := by
    rw [sum, Int.zero_add]
    rfl
  have next : launchedSegments (afterLaunch w frames) =
      w.journal.harvested.map (·.segment.packets) ++
        [items (takeSegment (·.val.frames) frames w.self.inputPackets 0).1] := rfl
  exact { h with
    order := by
      change (sources w.journal.harvested ++ items _ ++ items _).Sublist _
      rw [List.append_assoc]
      exact order
    newest := by
      refine ⟨older ++ items (takeSegment (·.val.frames) frames w.self.inputPackets 0).1, ?_⟩
      rw [List.append_assoc]
      exact arrived
    started := by
      rw [next, List.length_append, started]
      rfl
    contiguous := fun segment inside => by
      rw [next, List.mem_append, List.mem_singleton] at inside
      rcases inside with before | rfl
      · exact contiguous segment before
      · refine ⟨older, items (takeSegment (·.val.frames) frames w.self.inputPackets 0).2.2, ?_⟩
        rw [List.append_assoc]
        exact arrived
    count := by
      simp only [afterLaunch, launched]
      omega
    outputs := h.outputs
    frames := by
      simp only [afterLaunch, launched]
      rw [h.frames, total, taken]
      omega
    active := rfl }

def afterEmit (w : World) (left rest : List ProcessedPacket) (underruns : Nat) : World where
  self := { w.self with readyOutput := rest, underruns }
  journal := { w.journal with emitted := w.journal.emitted ++ left }

theorem emitAccounted {left rest : List ProcessedPacket} (h : Accounted host w)
    (ready : w.self.readyOutput = left ++ rest) (underruns : Nat) :
    Accounted host (afterEmit w left rest underruns) := by
  obtain ⟨released, carried, emitted⟩ := h.outputs
  rw [ready, ← List.append_assoc] at emitted
  exact { h with
    order := h.order
    newest := h.newest
    started := h.started
    contiguous := h.contiguous
    count := h.count
    outputs := ⟨released, carried, emitted⟩
    frames := h.frames
    active := h.active }

def Steady (host : HostOrder) (rate : Nat) : Event → Prop
  | .process payload => ∀ packet, decodeAndValidate host payload = .ok packet →
    packet.val.sampleRate = rate
  | .flush => True
  | .reset => False
  | .inferenceEnds outcome => outcome ≠ .cancelled

theorem steadyOne {event : Event} (steady : Steady host rate event) : OneStream host rate event := by
  cases event with
  | process payload => exact steady
  | flush => trivial
  | reset => trivial
  | inferenceEnds outcome => exact steady

theorem processAccounted {payload : Bytes} (checked : config.checked = .ok config)
    (streams : Streams config rate w.self) (h : Accounted host w)
    (steady : Steady host rate (.process payload))
    (finite : Arrives host (.process payload) →
      (limit (newState config) rate).isFinite = true) :
    Accounted host (step host w (.process payload)) := by
  have settled := harvestAccounted checked streams h
  have cases := callCases host payload w.self
  have stepped : step host w (.process payload) = {
      self := (callProcess host payload w.self).2
      journal := {
        accepted := w.journal.accepted ++
          (if (callProcess host payload w.self).1.isSome then [payload] else [])
        harvested := w.journal.harvested ++ harvestedNow w.self
        emitted := w.journal.emitted ++ (callProcess host payload w.self).1.getD [] } } := rfl
  rw [stepped]
  generalize callProcess host payload w.self = call at cases
  have after {t : State} {result : Except PyError Unit}
      (harvest : exec (harvestInference host) w.self = (result, t)) :
      afterHarvest host w = { self := t, journal := { w.journal with
        harvested := w.journal.harvested ++ harvestedNow w.self } } := by
    rw [afterHarvest, harvest]
  cases cases with
  | harvestRaised e t raised =>
    rw [after raised] at settled
    simpa using settled
  | invalid e t harvest refused =>
    rw [after harvest] at settled
    simpa using settled
  | formatChanged t packet harvest decoded differs =>
    exact absurd (formatFits (harvestStreams streams harvest) (steady packet decoded)) differs
  | limitRaised t packet harvest decoded fits infinite =>
    have known := finite ⟨packet, decoded⟩
    rw [steady packet decoded, streamsLimit (harvestStreams streams harvest), known] at infinite
    contradiction
  | admits t packet maximum frames harvest decoded fits room length =>
    rw [after harvest] at settled
    have buffered := admitAccounted maximum settled decoded
    have launched : Accounted host {
        self := launchedWhenReady (admitted t packet maximum) frames
        journal := { w.journal with
          accepted := w.journal.accepted ++ [payload]
          harvested := w.journal.harvested ++ harvestedNow w.self } } := by
      unfold launchedWhenReady
      split
      · rename_i due
        exact launchAccounted buffered (Option.isNone_iff_eq_none.mp due.1)
      · exact buffered
    exact emitAccounted launched (List.take_append_drop 1 _).symm _

theorem stepAccounted {event : Event} (checked : config.checked = .ok config)
    (streams : Streams config rate w.self) (h : Accounted host w) (steady : Steady host rate event)
    (finite : Arrives host event → (limit (newState config) rate).isFinite = true) :
    Accounted host (step host w event) := by
  cases event with
  | process payload => exact processAccounted checked streams h steady finite
  | flush =>
    have settled := harvestAccounted checked streams h
    rcases flushCases host w.self with ⟨e, t, raised, call⟩ | ⟨t, harvest, call⟩
    · have stepped : step host w .flush = afterHarvest host w := by
        simp [step, next, call, afterHarvest, raised]
      rwa [stepped]
    · have drained := emitAccounted settled (List.append_nil _).symm
        (afterHarvest host w).self.underruns
      have stepped : step host w .flush = afterEmit (afterHarvest host w)
          (afterHarvest host w).self.readyOutput [] (afterHarvest host w).self.underruns := by
        simp [step, next, call, afterEmit, afterHarvest, harvest]
      rwa [stepped]
  | reset => exact steady.elim
  | inferenceEnds outcome =>
    simp only [step, next, inferenceEnds]
    split
    · rename_i segment running
      have segments : launchedSegments w = w.journal.harvested.map (·.segment.packets) ++
          [segment.packets] := by
        rw [launchedSegments, running]
        rfl
      have started := h.started
      have contiguous := h.contiguous
      rw [segments] at started contiguous
      exact { h with
        order := h.order
        newest := h.newest
        started := started
        contiguous := contiguous
        count := h.count
        outputs := h.outputs
        frames := h.frames
        active := by simpa [running] using h.active }
    · exact h

end Accounts

section Runs
variable {host : HostOrder} {config : MDX23CVocalsConfig} {rate : Nat}

theorem ledgerSnoc (events : List Event) (event : Event) :
    ledgerRun host config (events ++ [event]) = step host (ledgerRun host config events) event := by
  rw [ledgerRun, List.foldl_append]
  rfl

theorem ledgerSelf (events : List Event) :
    (ledgerRun host config events).self = run host (newState config) events := by
  induction events using List.reverseRecOn with
  | nil => rfl
  | append_singleton events event ih =>
    rw [ledgerSnoc, runSnoc, ← ih]
    cases event <;> rfl

variable (host rate) in
theorem runAccounted (checked : config.checked = .ok config) {events : List Event}
    (steady : ∀ event ∈ events, Steady host rate event)
    (finite : (∃ event ∈ events, Arrives host event) →
      (limit (newState config) rate).isFinite = true) :
    Accounted host (ledgerRun host config events) := by
  induction events using List.reverseRecOn with
  | nil =>
    exact {
      valid := rfl
      order := List.Sublist.refl _
      newest := List.suffix_refl _
      started := rfl
      contiguous := nofun
      count := rfl
      outputs := ⟨[], .nil, rfl⟩
      frames := rfl
      active := rfl }
  | append_singleton events event ih =>
    have earlier (other : Event) (inside : other ∈ events) : Steady host rate other :=
      steady other (List.mem_append_left _ inside)
    have streams := runStreams checked (fun other inside => steadyOne (earlier other inside))
    rw [← ledgerSelf] at streams
    rw [ledgerSnoc]
    refine stepAccounted checked streams (ih earlier (fun ⟨other, inside, arrives⟩ => ?_))
      (steady event (List.mem_append_right _ (List.mem_singleton.mpr rfl)))
      (fun arrives => finite ⟨event, List.mem_append_right _ (List.mem_singleton.mpr rfl), arrives⟩)
    exact finite ⟨other, List.mem_append_left _ inside, arrives⟩

/- A packet whose limit is infinite is buffered by a call that raises. -/
theorem ledgerBroken {w : World} (h : Accounted host w) (unset : Unset w.self)
    (fresh : w.self.streamSampleRate = none) {payload : Bytes} {packet : StereoPacket}
    (decoded : decodeAndValidate host payload = .ok packet)
    (infinite : (limit w.self packet.val.sampleRate).isFinite = false) :
    ¬ Ledger host (step host w (.process payload)) := by
  have entry := harvestedNothing (s := w.self) (by rw [unset fresh]; rfl)
  have call := firstCallRaises unset fresh decoded infinite
  intro ledger
  have before := (accountedLedger h).count
  have after := ledger.count
  simp only [step, next, call, entry, List.append_nil, Option.isSome_none, Bool.false_eq_true,
    if_false, Option.getD_none, pushed, withFormat, List.length_append, List.length_singleton]
    at after
  omega

theorem accountsExact (host : HostOrder) (config : MDX23CVocalsConfig)
    (checked : config.checked = .ok config) (rate : Nat) (events : List Event)
    (steady : ∀ event ∈ events, Steady host rate event) :
    (∀ before, before <+: events → Ledger host (ledgerRun host config before)) ↔
      ((∃ event ∈ events, Arrives host event) →
        (limit (newState config) rate).isFinite = true) := by
  constructor
  · intro all arrives
    by_contra infinite
    rw [Bool.not_eq_true] at infinite
    obtain ⟨before, event, cut, comes, quiet⟩ := firstArrival arrives
    have inside : event ∈ events := cut.subset (by simp)
    have earlier (other : Event) (within : other ∈ before) : Steady host rate other :=
      steady other (cut.subset (List.mem_append_left _ within))
    have accounted := runAccounted host rate checked earlier
      (fun ⟨other, within, early⟩ => absurd early (quiet other within))
    have streams := runStreams checked (fun other within => steadyOne (earlier other within))
    have fresh : (run host (newState config) before).streamSampleRate = none := quietRun quiet
    have broken := all _ cut
    rw [← ledgerSelf] at streams fresh
    cases event with
    | process payload =>
      obtain ⟨packet, decoded⟩ := comes
      rw [ledgerSnoc] at broken
      refine ledgerBroken accounted streams.unset fresh decoded ?_ broken
      rw [steady _ inside packet decoded, streamsLimit streams]
      exact infinite
    | flush => exact comes.elim
    | reset => exact comes.elim
    | inferenceEnds outcome => exact comes.elim
  · intro finite before cut
    exact accountedLedger (runAccounted _ _ checked (fun event inside => steady event (cut.subset inside))
      (fun ⟨event, inside, comes⟩ => finite ⟨event, cut.subset inside, comes⟩))

theorem answeredSteady : ∀ event ∈ answeredSegment, Steady .little 3 event :=
  List.forall_mem_cons.mpr ⟨fun _ => slowRate, List.forall_mem_cons.mpr
    ⟨InferenceOutcome.noConfusion, List.forall_mem_singleton.mpr fun _ => slowRate⟩⟩

theorem accountsExactAnswered : Ledger .little (ledgerRun .little quarterSecond answeredSegment) :=
  (accountsExact .little quarterSecond rfl 3 answeredSegment answeredSteady).mpr
    (fun _ => by decide +kernel) _ (List.prefix_refl _)

theorem accountsOverflow : ¬ ∀ (config : MDX23CVocalsConfig), config.checked = .ok config →
    ∀ (rate : Nat) (events : List Event), (∀ event ∈ events, Steady .little rate event) →
      Ledger .little (ledgerRun .little config events) := by
  intro all
  have fresh : Accounted .little (ledgerRun .little hugeConfig []) :=
    runAccounted _ 48000 rfl nofun (fun ⟨_, inside, _⟩ => absurd inside List.not_mem_nil)
  have decoded : decodeAndValidate .little stereoSilence = .ok _ := rfl
  refine ledgerBroken fresh (fun _ => rfl) rfl decoded (by decide +kernel) ?_
  refine all hugeConfig rfl 48000 [.process stereoSilence] (fun event inside => ?_)
  cases List.mem_singleton.mp inside
  intro packet decoded
  cases Except.ok.inj decoded
  rfl

end Runs

end KaraokeAnything.Mdx23cVocals
