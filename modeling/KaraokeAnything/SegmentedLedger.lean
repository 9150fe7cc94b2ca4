import Mathlib.Data.List.Forall2
import Mathlib.Data.List.Induction
import KaraokeAnything.SegmentedSteps

/-! The ledger of a segment processor over whole runs: where every accepted packet
is, and which inference result every output carries. -/
namespace KaraokeAnything.SegmentedInference
open ByteOrder Kany Models Python Stateful

structure Harvest where
  packets : List KanyPacket
  outcome : InferenceOutcome
  deriving DecidableEq

/- What a caller of the processor has seen: the payloads whose `process` call did
not raise, the harvested segments and the outputs, each in order. -/
structure Journal where
  accepted : List Bytes := []
  harvested : List Harvest := []
  emitted : List ProcessedPacket := []

structure World where
  self : State
  journal : Journal := {}

inductive Event where
  | process (payload : Bytes)
  | flush
  | inferenceEnds (outcome : InferenceOutcome)

def fresh (segmentSeconds : Float) : World := { self := { segmentSeconds } }

/- The packets are those the background coroutine closed over at the launch. -/
def harvestedNow (s : State) : List Harvest :=
  match s.inferenceTask with
  | some ⟨segment, some outcome⟩ => [⟨segment.packets, outcome⟩]
  | _ => []

def step (host : HostOrder) (model : SegmentModel) (w : World) : Event → World
  | .process payload =>
    match exec (process host model payload) w.self with
    | (.ok outputs, self) => { self, journal := {
        accepted := w.journal.accepted ++ [payload]
        harvested := w.journal.harvested ++ harvestedNow w.self
        emitted := w.journal.emitted ++ outputs } }
    | (.error _, self) =>
      { self, journal := { w.journal with harvested := w.journal.harvested ++ harvestedNow w.self } }
  | .flush =>
    match exec (flush host model) w.self with
    | (.ok outputs, self) => { self, journal := { w.journal with
        harvested := w.journal.harvested ++ harvestedNow w.self
        emitted := w.journal.emitted ++ outputs } }
    | (.error _, self) =>
      { self, journal := { w.journal with harvested := w.journal.harvested ++ harvestedNow w.self } }
  | .inferenceEnds outcome => { w with self := (inferenceEnds outcome w.self).getD w.self }

def run (host : HostOrder) (model : SegmentModel) (segmentSeconds : Float)
    (events : List Event) : World :=
  events.foldl (step host model) (fresh segmentSeconds)

def Harvest.result (h : Harvest) : Option (List UInt32) :=
  match h.outcome with
  | .returned separated => if separated.length = sampleTotal h.packets then some separated else none
  | _ => none

structure Carries (host : HostOrder) (h : Harvest) (outputs : List ProcessedPacket) : Prop where
  headers : outputs.map (·.payload.take headerSize) = h.packets.map (·.rawHeader)
  sizes : outputs.map (·.payload.length) =
    h.packets.map (fun p => headerSize + p.frames * p.channels * 4)
  samples : h.result = some (outputs.flatMap (fun o => readSamples host o.payload))

structure Ledger (host : HostOrder) (model : SegmentModel) (w : World) : Prop where
  order : w.journal.accepted.map (model.decodeAndValidate host) =
    (w.journal.harvested.flatMap (·.packets) ++ w.self.activePackets ++ w.self.inputPackets).map .ok
  frames : w.self.inputFrames = ((w.self.inputPackets.map (·.frames)).sum : Nat)
  outputs : ∃ released, List.Forall₂ (Carries host)
      (w.journal.harvested.filter (·.result.isSome)) released ∧
    w.journal.emitted ++ w.self.readyOutput = released.flatten

def Event.decoded (host : HostOrder) (model : SegmentModel) : Event → Option KanyPacket
  | .process payload => (model.decodeAndValidate host payload).toOption
  | _ => none

def firstPacket (host : HostOrder) (model : SegmentModel) (events : List Event) :
    Option KanyPacket :=
  events.findSome? (Event.decoded host model)

theorem slicesFrom (host : HostOrder) (separated : List UInt32) (packets : List KanyPacket)
    (offset : Nat) (enough : offset + sampleTotal packets ≤ separated.length) :
    let outputs := slices separated packets offset
    outputs.map (·.payload.take headerSize) = packets.map (·.rawHeader) ∧
    outputs.map (·.payload.length) =
      packets.map (fun p => headerSize + p.frames * p.channels * 4) ∧
    outputs.flatMap (fun o => readSamples host o.payload) =
      (separated.drop offset).take (sampleTotal packets) := by
  induction packets generalizing offset with
  | nil => simp [slices, sampleTotal]
  | cons original rest ih =>
    have total : sampleTotal (original :: rest) =
        original.frames * original.channels + sampleTotal rest := by simp [sampleTotal]
    rw [total] at enough ⊢
    obtain ⟨headers, sizes, samples⟩ :=
      ih (offset + original.frames * original.channels) (by omega)
    have items : ((separated.drop offset).take (original.frames * original.channels)).length =
        original.frames * original.channels := by
      rw [List.length_take, List.length_drop]; omega
    have bytes : ∀ items : List UInt32, (itemBytes items).length = items.length * 4 := by
      intro items; simp [itemBytes, List.length_flatMap]
    refine ⟨?_, ?_, ?_⟩
    · simp only [slices, List.map_cons, headers, List.take_left' original.headerLength]
    · simp only [slices, List.map_cons, sizes, List.length_append, original.headerLength, bytes,
        items]
    · simp only [slices, List.flatMap_cons, samples, samplesRead host _ _ original.headerLength]
      rw [← List.drop_drop, List.take_add]

theorem slicesCarry (host : HostOrder) {separated : List UInt32} {packets : List KanyPacket}
    (size : separated.length = sampleTotal packets) :
    Carries host ⟨packets, .returned separated⟩ (slices separated packets 0) := by
  obtain ⟨headers, sizes, samples⟩ := slicesFrom host separated packets 0 (by omega)
  refine ⟨headers, sizes, ?_⟩
  rw [samples, List.drop_zero, ← size, List.take_length]
  simp [Harvest.result, size]

structure Settled (host : HostOrder) (s t : State) : Prop where
  inputPackets : t.inputPackets = s.inputPackets
  inputFrames : t.inputFrames = s.inputFrames
  segmentSeconds : t.segmentSeconds = s.segmentSeconds
  streamSampleRate : t.streamSampleRate = s.streamSampleRate
  packets : (harvestedNow s).flatMap (·.packets) ++ t.activePackets = s.activePackets
  active : t.activePackets = (t.inferenceTask.map (·.segment.packets)).getD []
  idle : s.inferenceTask = none → t.inferenceTask = none
  outputs : ∃ released, List.Forall₂ (Carries host)
      ((harvestedNow s).filter (·.result.isSome)) released ∧
    t.readyOutput = s.readyOutput ++ released.flatten

theorem harvestedNothing {s : State} (running : s.inferenceTask.bind (·.outcome) = none) :
    harvestedNow s = [] := by
  unfold harvestedNow
  split
  · rename_i segment outcome ended
    rw [ended] at running
    contradiction
  · rfl

theorem harvestedOne {s : State} {outcome : InferenceOutcome}
    (active : s.activePackets = (s.inferenceTask.map (·.segment.packets)).getD [])
    (done : s.inferenceTask.bind (·.outcome) = some outcome) :
    harvestedNow s = [⟨s.activePackets, outcome⟩] := by
  obtain ⟨⟨segment, finished⟩, task, same⟩ := Option.bind_eq_some_iff.mp done
  cases same
  rw [harvestedNow, active, task]
  rfl

theorem failedResult {s : State} {outcome : InferenceOutcome} (failed : Failed s outcome) :
    (Harvest.mk s.activePackets outcome).result = none := by
  cases outcome with
  | returned separated => exact if_neg (failed separated rfl)
  | raised text => rfl
  | cancelled => rfl

theorem harvestSettles (host : HostOrder) (model : SegmentModel) {s : State}
    (active : s.activePackets = (s.inferenceTask.map (·.segment.packets)).getD []) :
    Settled host s (exec (harvestInference host model) s).2 := by
  have cases := harvestCases host model s
  generalize exec (harvestInference host model) s = call at cases
  cases cases with
  | idle running =>
    have entry := harvestedNothing running
    exact ⟨rfl, rfl, rfl, rfl, by simp [entry], active, id, [], by simp [entry], by simp⟩
  | cut separated done size =>
    have entry := harvestedOne active done
    have carries := slicesCarry host size
    refine ⟨rfl, rfl, rfl, rfl, by simp [entry, harvested], rfl, fun _ => rfl,
      [slices separated s.activePackets 0], ?_, by simp [harvested]⟩
    simpa [entry, carries.samples] using List.Forall₂.cons carries .nil
  | lost outcome done failed =>
    have entry := harvestedOne active done
    have lost := failedResult failed
    exact ⟨rfl, rfl, rfl, rfl, by simp [entry, afterFailure], rfl, fun _ => rfl, [],
      by simp [entry, lost], by simp [afterFailure]⟩

section Phases
variable {host : HostOrder} {model : SegmentModel}

structure Accounted (host : HostOrder) (model : SegmentModel) (segmentSeconds : Float)
    (first : Option KanyPacket) (w : World) : Prop extends Ledger host model w where
  seconds : w.self.segmentSeconds = segmentSeconds
  format : w.self.streamSampleRate = first.map (·.sampleRate)
  idle : first = none → w.self.inferenceTask = none
  active : w.self.activePackets = (w.self.inferenceTask.map (·.segment.packets)).getD []

variable {segmentSeconds : Float} {first : Option KanyPacket} {w : World}

theorem freshAccounted (host : HostOrder) (model : SegmentModel) (segmentSeconds : Float) :
    Accounted host model segmentSeconds none (fresh segmentSeconds) where
  order := rfl
  frames := rfl
  outputs := ⟨[], .nil, rfl⟩
  seconds := rfl
  format := rfl
  idle _ := rfl
  active := rfl

def afterHarvest (host : HostOrder) (model : SegmentModel) (w : World) : World where
  self := (exec (harvestInference host model) w.self).2
  journal := { w.journal with harvested := w.journal.harvested ++ harvestedNow w.self }

theorem harvestAccounted (h : Accounted host model segmentSeconds first w) :
    Accounted host model segmentSeconds first (afterHarvest host model w) := by
  have settled := harvestSettles host model h.active
  obtain ⟨before, carried, emitted⟩ := h.outputs
  obtain ⟨released, carries, ready⟩ := settled.outputs
  have order := h.order
  rw [← settled.packets] at order
  exact {
    order := by
      simpa [afterHarvest, settled.inputPackets] using order
    frames := by
      simp only [afterHarvest, settled.inputFrames, settled.inputPackets, h.frames]
    outputs := by
      refine ⟨before ++ released, ?_, ?_⟩
      · simpa only [afterHarvest, List.filter_append] using List.rel_append carried carries
      · simp only [afterHarvest, ready, List.flatten_append, ← emitted, List.append_assoc]
    seconds := settled.segmentSeconds.trans h.seconds
    format := settled.streamSampleRate.trans h.format
    idle := fun none => settled.idle (h.idle none)
    active := settled.active }

def afterAdmit (w : World) (payload : Bytes) (packet : KanyPacket) : World where
  self := queued w.self packet
  journal := { w.journal with accepted := w.journal.accepted ++ [payload] }

theorem admitAccounted {payload : Bytes} {packet : KanyPacket}
    (h : Accounted host model segmentSeconds first w)
    (decoded : model.decodeAndValidate host payload = .ok packet) (fits : FormatFits w.self packet) :
    Accounted host model segmentSeconds (first.or (some packet)) (afterAdmit w payload packet) where
  order := by
    have order := h.order
    simp only [afterAdmit, queued, withFormat, List.map_append, order, List.map_cons, List.map_nil,
      decoded, List.append_assoc]
  frames := by
    simp [afterAdmit, queued, h.frames]
  outputs := h.outputs
  seconds := h.seconds
  format := by
    cases first with
    | none => rfl
    | some known =>
      obtain ⟨same, _⟩ := fits known.sampleRate h.format
      simp [afterAdmit, queued, withFormat, same]
  idle none := by cases first <;> simp at none
  active := h.active

def afterLaunch (w : World) (target : Int) : World := { w with self := launched w.self target }

theorem launchAccounted {target : Int} (h : Accounted host model segmentSeconds first w)
    (known : first ≠ none) (free : w.self.inferenceTask = none) :
    Accounted host model segmentSeconds first (afterLaunch w target) := by
  obtain ⟨split, total⟩ := takenSegment (·.frames) target w.self.inputPackets 0
  have active : w.self.activePackets = [] := by simpa [free] using h.active
  have order := h.order
  have frames := h.frames
  rw [split] at frames
  rw [split, active] at order
  exact { h with
    order := by simpa [afterLaunch, launched] using order
    frames := by
      simp only [afterLaunch, launched, frames, total, List.map_append, List.sum_append]
      omega
    outputs := h.outputs
    seconds := h.seconds
    format := h.format
    idle := fun none => absurd none known
    active := rfl }

def afterEmit (w : World) (count : Nat) : World where
  self := { w.self with readyOutput := w.self.readyOutput.drop count }
  journal := { w.journal with emitted := w.journal.emitted ++ w.self.readyOutput.take count }

theorem emitAccounted (count : Nat) (h : Accounted host model segmentSeconds first w) :
    Accounted host model segmentSeconds first (afterEmit w count) := by
  obtain ⟨released, carried, emitted⟩ := h.outputs
  exact { h with
    order := h.order
    frames := h.frames
    outputs := ⟨released, carried, by simpa [afterEmit] using emitted⟩
    seconds := h.seconds
    format := h.format
    idle := h.idle
    active := h.active }

inductive Processed (host : HostOrder) (model : SegmentModel) (w : World) (payload : Bytes) :
    World → Prop where
  | harvestRaised (e : PyError) (raised : (exec (harvestInference host model) w.self).1 = .error e) :
    Processed host model w payload (afterHarvest host model w)
  | invalid (e : PyError) (refused : model.decodeAndValidate host payload = .error e) :
    Processed host model w payload (afterHarvest host model w)
  | formatChanged (packet : KanyPacket)
    (decoded : model.decodeAndValidate host payload = .ok packet)
    (differs : ¬ FormatFits (afterHarvest host model w).self packet) :
    Processed host model w payload (afterHarvest host model w)
  | buffered (packet : KanyPacket) (decoded : model.decodeAndValidate host payload = .ok packet)
    (fits : FormatFits (afterHarvest host model w).self packet)
    (finite : (afterHarvest host model w).self.inferenceTask = none →
      (Float.ofNat packet.sampleRate *
        (afterHarvest host model w).self.segmentSeconds).isFinite = true) :
    Processed host model w payload
      (afterEmit (afterAdmit (afterHarvest host model w) payload packet) 1)
  | launched (packet : KanyPacket) (decoded : model.decodeAndValidate host payload = .ok packet)
    (fits : FormatFits (afterHarvest host model w).self packet) (target : Int)
    (free : (afterHarvest host model w).self.inferenceTask = none)
    (finite : (Float.ofNat packet.sampleRate *
      (afterHarvest host model w).self.segmentSeconds).isFinite = true) :
    Processed host model w payload
      (afterEmit (afterLaunch (afterAdmit (afterHarvest host model w) payload packet) target) 1)
  | targetRaised (packet : KanyPacket)
    (decoded : model.decodeAndValidate host payload = .ok packet)
    (fits : FormatFits (afterHarvest host model w).self packet)
    (infinite : (Float.ofNat packet.sampleRate *
      (afterHarvest host model w).self.segmentSeconds).isFinite = false) :
    Processed host model w payload
      { afterHarvest host model w with self := queued (afterHarvest host model w).self packet }

theorem targetDefined (s : State) (packet : KanyPacket) :
    (∃ frames, target (queued s packet) = .ok frames) ↔
      (Float.ofNat packet.sampleRate * s.segmentSeconds).isFinite = true := by
  change (∃ frames, (round (Float.ofNat packet.sampleRate * s.segmentSeconds)).map (max 1) =
    .ok frames) ↔ _
  rw [← roundDefined]
  cases round (Float.ofNat packet.sampleRate * s.segmentSeconds) <;> simp [Except.map]

theorem processCases (host : HostOrder) (model : SegmentModel) (w : World) (payload : Bytes) :
    Processed host model w payload (step host model w (.process payload)) := by
  have after {result : Except PyError Unit} {t : State}
      (harvest : exec (harvestInference host model) w.self = (result, t)) :
      t = (afterHarvest host model w).self := (congrArg Prod.snd harvest).symm
  have called := callCases host model payload w.self
  rw [step]
  generalize exec (process host model payload) w.self = call at called
  cases called with
  | harvestRaised e t raised =>
    cases after raised
    exact .harvestRaised e (congrArg Prod.fst raised)
  | invalid e t harvest refused =>
    cases after harvest
    exact .invalid e refused
  | formatChanged e t packet harvest decoded differs =>
    cases after harvest
    exact .formatChanged packet decoded differs
  | targetRaised e t packet harvest decoded fits free raises =>
    cases after harvest
    refine .targetRaised packet decoded fits ?_
    rw [← Bool.not_eq_true, ← targetDefined, raises]
    simp
  | waits t packet harvest decoded fits waiting =>
    cases after harvest
    refine .buffered packet decoded fits (fun free => ?_)
    obtain ⟨frames, known, _⟩ := waiting free
    exact (targetDefined _ packet).mp ⟨frames, known⟩
  | launches t packet frames harvest decoded fits free known ready =>
    cases after harvest
    exact .launched packet decoded fits frames free ((targetDefined _ packet).mp ⟨frames, known⟩)

theorem flushStep (host : HostOrder) (model : SegmentModel) (w : World) :
    step host model w .flush = afterHarvest host model w ∨
    step host model w .flush = afterEmit (afterHarvest host model w)
      (afterHarvest host model w).self.readyOutput.length := by
  rcases flushCases host model w.self with ⟨e, t, raised, call⟩ | ⟨t, harvest, call⟩
  · left
    simp only [step, call, afterHarvest, raised]
  · right
    simp only [step, call, afterHarvest, harvest, afterEmit, List.drop_length, List.take_length]

def LengthDefined (segmentSeconds : Float) (first : Option KanyPacket) : Prop :=
  ∀ packet, first = some packet →
    (Float.ofNat packet.sampleRate * segmentSeconds).isFinite = true

theorem processAccounted {payload : Bytes} (h : Accounted host model segmentSeconds first w)
    (defined : LengthDefined segmentSeconds
      (first.or (model.decodeAndValidate host payload).toOption)) :
    Accounted host model segmentSeconds (first.or (model.decodeAndValidate host payload).toOption)
      (step host model w (.process payload)) := by
  have harvest := harvestAccounted h
  have kept (known : first ≠ none) (other : Option KanyPacket) : first.or other = first := by
    cases first <;> simp_all
  have processed := processCases host model w payload
  generalize step host model w (.process payload) = next at processed ⊢
  cases processed with
  | harvestRaised e raised =>
    rw [kept (fun none => ?_)]
    · exact harvest
    · rw [harvestIdle host model (by simp [h.idle none])] at raised
      contradiction
  | invalid e refused => simpa [refused, Except.toOption] using harvest
  | formatChanged packet decoded differs =>
    rw [kept (fun none => ?_)]
    · exact harvest
    · refine differs (fun rate known => ?_)
      rw [harvest.format, none] at known
      contradiction
  | buffered packet decoded fits finite =>
    rw [decoded]
    exact emitAccounted 1 (admitAccounted harvest decoded fits)
  | launched packet decoded fits target free finite =>
    rw [decoded]
    exact emitAccounted 1 (launchAccounted (admitAccounted harvest decoded fits)
      (by cases first <;> simp [Except.toOption]) free)
  | targetRaised packet decoded fits infinite =>
    rw [decoded] at defined
    cases first with
    | none =>
      have finite := defined packet rfl
      rw [harvest.seconds, finite] at infinite
      contradiction
    | some known =>
      have finite := defined known rfl
      rw [(fits known.sampleRate harvest.format).1, harvest.seconds, finite] at infinite
      contradiction

theorem stepAccounted (event : Event) (h : Accounted host model segmentSeconds first w)
    (defined : LengthDefined segmentSeconds (first.or (event.decoded host model))) :
    Accounted host model segmentSeconds (first.or (event.decoded host model))
      (step host model w event) := by
  cases event with
  | process payload => exact processAccounted h defined
  | flush =>
    simp only [Event.decoded, Option.or_none]
    have harvest := harvestAccounted h
    rcases flushStep host model w with raised | drained
    · rwa [raised]
    · rw [drained]
      exact emitAccounted _ harvest
  | inferenceEnds outcome =>
    simp only [Event.decoded, Option.or_none, step, inferenceEnds]
    split
    · rename_i segment running
      exact { h with
        order := h.order
        frames := h.frames
        outputs := h.outputs
        seconds := h.seconds
        format := h.format
        idle := fun none => by simp [h.idle none] at running
        active := by simpa [running] using h.active }
    · exact h

end Phases

theorem firstPacketSnoc (host : HostOrder) (model : SegmentModel) (events : List Event)
    (event : Event) : firstPacket host model (events ++ [event]) =
      (firstPacket host model events).or (event.decoded host model) := by
  simp [firstPacket, List.findSome?_append]

theorem firstPacketKept {host : HostOrder} {model : SegmentModel} {before events : List Event}
    {packet : KanyPacket} (cut : before <+: events)
    (known : firstPacket host model before = some packet) :
    firstPacket host model events = some packet := by
  obtain ⟨rest, rfl⟩ := cut
  rw [firstPacket] at known
  rw [firstPacket, List.findSome?_append, known, Option.some_or]

theorem decodedProcess {host : HostOrder} {model : SegmentModel} {event : Event}
    {packet : KanyPacket} (known : event.decoded host model = some packet) :
    ∃ payload, event = .process payload ∧ model.decodeAndValidate host payload = .ok packet := by
  cases event with
  | process payload =>
    refine ⟨payload, rfl, ?_⟩
    rw [Event.decoded] at known
    cases decoded : model.decodeAndValidate host payload with
    | error e =>
      rw [decoded] at known
      contradiction
    | ok other =>
      rw [decoded] at known
      exact congrArg Except.ok (Option.some.inj known)
  | flush => contradiction
  | inferenceEnds outcome => contradiction

theorem runAccounted (host : HostOrder) (model : SegmentModel) (segmentSeconds : Float)
    (events : List Event) (defined : LengthDefined segmentSeconds (firstPacket host model events)) :
    Accounted host model segmentSeconds (firstPacket host model events)
      (run host model segmentSeconds events) := by
  induction events using List.reverseRecOn with
  | nil => exact freshAccounted host model segmentSeconds
  | append_singleton events event ih =>
    rw [firstPacketSnoc] at defined ⊢
    have before : LengthDefined segmentSeconds (firstPacket host model events) := by
      intro packet known
      exact defined packet (by simp [known])
    simpa [run] using stepAccounted event (ih before) defined

/- The call that brings the first packet leaves it buffered but not accepted. -/
theorem firstPacketLost {host : HostOrder} {model : SegmentModel} {segmentSeconds : Float}
    {w : World} {payload : Bytes} {packet : KanyPacket}
    (h : Accounted host model segmentSeconds none w)
    (decoded : model.decodeAndValidate host payload = .ok packet)
    (infinite : (Float.ofNat packet.sampleRate * segmentSeconds).isFinite = false) :
    ¬ Ledger host model (step host model w (.process payload)) := by
  have harvest := harvestAccounted h
  have processed := processCases host model w payload
  generalize step host model w (.process payload) = next at processed ⊢
  cases processed with
  | harvestRaised e raised =>
    rw [harvestIdle host model (by simp [h.idle rfl])] at raised
    contradiction
  | invalid e refused =>
    rw [refused] at decoded
    contradiction
  | formatChanged other _ differs =>
    refine absurd (fun rate known => ?_) differs
    rw [harvest.format] at known
    contradiction
  | buffered other same fits finite =>
    cases Except.ok.inj (same.symm.trans decoded)
    rw [harvest.seconds, infinite] at finite
    exact absurd (finite (harvest.idle rfl)) (by simp)
  | launched other same fits target free finite =>
    cases Except.ok.inj (same.symm.trans decoded)
    rw [harvest.seconds, infinite] at finite
    contradiction
  | targetRaised other same fits =>
    intro ledger
    have more := congrArg List.length ledger.order
    have before := congrArg List.length harvest.order
    simp [queued, withFormat] at more before
    omega

theorem ledgerExact (host : HostOrder) (model : SegmentModel) (segmentSeconds : Float)
    (events : List Event) :
    (∀ before, before <+: events → Ledger host model (run host model segmentSeconds before)) ↔
      ∀ packet, firstPacket host model events = some packet →
        (Float.ofNat packet.sampleRate * segmentSeconds).isFinite = true := by
  induction events using List.reverseRecOn with
  | nil =>
    refine ⟨fun _ packet none => by contradiction, fun _ before empty => ?_⟩
    cases List.prefix_nil.mp empty
    exact (freshAccounted host model segmentSeconds).toLedger
  | append_singleton events event ih =>
    refine ⟨fun all packet known => ?_, fun defined before cut => ?_⟩
    · have earlier := ih.mp (fun before cut => all before (cut.trans (List.prefix_append _ _)))
      rw [firstPacketSnoc] at known
      cases first : firstPacket host model events with
      | some other =>
        rw [first] at known
        exact earlier packet (first.trans known)
      | none =>
        have accounted := runAccounted host model segmentSeconds events earlier
        rw [first] at known accounted
        obtain ⟨payload, rfl, decoded⟩ := decodedProcess known
        by_contra infinite
        rw [Bool.not_eq_true] at infinite
        refine firstPacketLost accounted decoded infinite ?_
        simpa [run] using all _ (List.prefix_refl _)
    · have sooner := runAccounted host model segmentSeconds before
        (fun packet known => defined packet (firstPacketKept cut known))
      exact sooner.toLedger

def stereoSilence : Bytes :=
  magic ++ [1, 0, 2, 1, 0, 0, 0xbb, 0x80] ++ List.replicate 12 0 ++ [0, 1, 0, 0] ++
    List.replicate 8 0

def hugeSeconds : Float := Float.ofBits 0x7fe0000000000000

theorem ledgerOverflow : hugeSeconds.isFinite = true ∧ 0 < hugeSeconds ∧
    ¬ Ledger .little htdemucs (run .little htdemucs hugeSeconds [.process stereoSilence]) := by
  refine ⟨by decide +kernel, by decide +kernel, fun ledger => ?_⟩
  have none : (run .little htdemucs hugeSeconds [.process stereoSilence]).journal.accepted = [] := by
    rfl
  have one : (run .little htdemucs hugeSeconds
      [.process stereoSilence]).self.inputPackets.length = 1 := by rfl
  have counted := congrArg List.length ledger.order
  simp only [none, List.length_map, List.length_append, one, List.length_nil] at counted
  omega

end KaraokeAnything.SegmentedInference
