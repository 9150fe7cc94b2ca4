import Mathlib.Data.List.Nodup
import KaraokeAnything.Library.Relay
import KaraokeAnything.ServiceRuns

/-! The service as a relay: the outputs it hands over, then what the installed
processor holds, the packet of the worker and the input queue, read as one line, only
ever lose items of the packets that were enqueued. -/
namespace KaraokeAnything.Service
open ByteOrder Config Kany Lifecycle Models Processors Python RuntimeSettings
open HotSwap (At atAppend atAppendKept atFound atMap atSet atSetKept)
open List (Forall₂ SublistForall₂)
open Processor (Progress Relays)
open Relay Runs

section Traces

inductive Trace where
  | whole (packet : MediaPacket)
  | keyed (name : String) (key : Bytes)

inductive Left : Trace → Trace → Prop where
  | same (trace : Trace) : Left trace trace
  | keyed (name : String) (packet : MediaPacket) :
    Left (.keyed name (keyOf name packet.payload)) (.whole packet)

instance : Std.Refl Left := ⟨.same⟩

instance : IsTrans Trace Left where
  trans a b c first second := by
    cases first with
    | same => exact second
    | keyed name packet =>
      cases second with
      | same => exact .keyed name packet

def Handed.trace (handed : Handed) : Trace :=
  .keyed handed.name (keyOf handed.name handed.output.payload)

def Worker.packets : Worker → List MediaPacket
  | .acquiring packet => [packet]
  | .processing packet _ => [packet]
  | _ => []

def kept (w : World) : List Trace :=
  let installed := w.heap w.processor
  installed.held.map (Trace.keyed installed.name)

def trail (w : World) : List Trace :=
  w.traffic.handed.map Handed.trace ++
    ((kept w ++ w.worker.packets.map Trace.whole) ++ w.inputQueue.map Trace.whole)

def installs (w : World) : List Nat :=
  0 :: w.history.changes.filterMap (fun change => match change.assignment with
    | .processor target => some target
    | _ => none)

end Traces

section Handing
variable {env : Environment} {w : World}

theorem emitHands (target : Nat) (host : String) (outputs : List ProcessedPacket)
    (traffic : Traffic) : (emitOutputs env w target host outputs traffic).handed =
      traffic.handed ++ outputs.map (Handed.mk target (w.heap target).name) := by
  induction outputs generalizing traffic with
  | nil => simp [emitOutputs]
  | cons output rest ih =>
    have one : (sendOutput env w target output host (countEmitted traffic)).handed =
        traffic.handed ++ [Handed.mk target (w.heap target).name output] := by
      unfold sendOutput
      simp only
      split
      · rfl
      · split <;> rfl
    have later := ih (sendOutput env w target output host (countEmitted traffic))
    rw [one, List.append_assoc] at later
    exact later

theorem flushHands (target : Nat) (outputs : List ProcessedPacket) (traffic : Traffic) :
    ∃ sent : List ProcessedPacket, sent.Sublist outputs ∧
      (flushOutputs env w target outputs traffic).handed =
        traffic.handed ++ sent.map (Handed.mk target (w.heap target).name) := by
  induction outputs generalizing traffic with
  | nil => exact ⟨[], List.Sublist.refl _, by simp [flushOutputs]⟩
  | cons output rest ih =>
    cases host : orElse w.settings.returnHost traffic.metrics.lastSenderHost with
    | none =>
      obtain ⟨sent, within, handed⟩ := ih traffic
      refine ⟨sent, within.cons _, ?_⟩
      rw [← handed]
      simp only [flushOutputs, List.foldl_cons, host]
    | some fallback =>
      have one := @emitHands env w target fallback [output] traffic
      obtain ⟨sent, within, handed⟩ := ih (emitOutputs env w target fallback [output] traffic)
      rw [one, List.append_assoc] at handed
      have first : flushOutputs env w target (output :: rest) traffic =
          flushOutputs env w target rest (emitOutputs env w target fallback [output] traffic) := by
        simp only [flushOutputs, emitOutputs, List.foldl_cons, List.foldl_nil, host]
      exact ⟨output :: sent, within.cons_cons _, first ▸ handed⟩

end Handing

section Line
variable {env : Environment} {w w' : World}

theorem relaysLine {p q : Processor} {outputs : List ProcessedPacket}
    (packets : List MediaPacket) (target : Nat)
    (relays : Relays (packets.map (fun packet => keyOf p.name packet.payload)) p outputs q) :
    SublistForall₂ Left
      (outputs.map (fun output => (Handed.mk target p.name output).trace) ++
        q.held.map (Trace.keyed q.name))
      (p.held.map (Trace.keyed p.name) ++ packets.map Trace.whole) := by
  have order := relays.order.map (Trace.keyed p.name)
  rw [List.map_append, List.map_append, List.map_map, List.map_map] at order
  have given : Forall₂ Left
      (packets.map (Trace.keyed p.name ∘ fun packet => keyOf p.name packet.payload))
      (packets.map Trace.whole) := by
    rw [List.forall₂_map_left_iff, List.forall₂_map_right_iff, List.forall₂_same]
    exact fun packet _ => .keyed p.name packet
  have weaker := drawsAppend (drawsAll (List.forall₂_refl (p.held.map (Trace.keyed p.name))))
    (drawsAll given)
  rw [relays.name]
  exact IsTrans.trans _ _ _ order.sublistForall₂ weaker

theorem settleLine {packet : MediaPacket} {target : Nat} {progress : Progress}
    (here : target = w.processor) (busy : w.worker.packets = [packet])
    (relays : Relays (progress.consumed (keyOf (w.heap target).name packet.payload)) (w.heap target)
      progress.outputs progress.self) :
    SublistForall₂ Left (trail (settle env w packet target progress)) (trail w) := by
  subst here
  simp only [trail, kept, busy]
  have refl (traces : List Trace) : SublistForall₂ Left traces traces := Std.Refl.refl _
  cases progress with
  | suspended self =>
    have line := relaysLine [] w.processor relays
    rw [List.map_nil, List.append_nil] at line
    simp only [settle, Function.update_self]
    exact drawsAppend (refl _) (drawsAppend (drawsAppend line (refl _)) (refl _))
  | returned outputs self =>
    have line := relaysLine [packet] w.processor relays
    have handed : (countProcessed (emitOutputs env w w.processor packet.senderHost outputs
        w.traffic)).handed = w.traffic.handed ++
          outputs.map (Handed.mk w.processor (w.heap w.processor).name) := emitHands _ _ _ _
    simp only [settle, Function.update_self, handed, List.map_append, List.map_map, Worker.packets,
      List.map_nil, List.append_nil]
    rw [List.append_assoc, ← List.append_assoc (List.map _ outputs)]
    exact drawsAppend (refl _) (drawsAppend line (refl _))
  | raised error self =>
    have line := relaysLine [packet] w.processor relays
    have complete : (if error = .cancelledError then Worker.finished else Worker.getting).packets = [] := by
      split <;> rfl
    simp only [settle, Function.update_self, complete, List.map_nil, List.append_nil]
    have handed : (if error = .cancelledError then w.traffic else countError w.traffic).handed =
        w.traffic.handed := by
      split <;> rfl
    rw [handed]
    exact drawsAppend (refl _) (drawsAppend line (refl _))

def Forgets (p q : Processor) : Prop := q.held.Sublist p.held ∧ q.name = p.name

theorem forgetsSame (p : Processor) : Forgets p p := ⟨List.Sublist.refl _, rfl⟩

theorem relaysForgets {p q : Processor} (relays : Relays [] p [] q) : Forgets p q :=
  ⟨by simpa using relays.order, relays.name⟩

theorem silentLine (handed : w'.traffic.handed = w.traffic.handed)
    (processor : w'.processor = w.processor)
    (packets : w'.worker.packets.Sublist w.worker.packets) (queue : w'.inputQueue = w.inputQueue)
    (forgets : Forgets (w.heap w.processor) (w'.heap w.processor)) :
    SublistForall₂ Left (trail w') (trail w) := by
  have refl (traces : List Trace) : SublistForall₂ Left traces traces := Std.Refl.refl _
  simp only [trail, kept, handed, processor, queue, forgets.2]
  refine drawsAppend (refl _) (drawsAppend (drawsAppend ?_ ?_) (refl _))
  · exact (forgets.1.map _).sublistForall₂
  · exact (packets.map _).sublistForall₂

theorem flushLine {sent outputs : List ProcessedPacket} {self : Processor}
    (handed : w'.traffic.handed =
      w.traffic.handed ++ sent.map (Handed.mk w.processor (w.heap w.processor).name))
    (within : sent.Sublist outputs) (relays : Relays [] (w.heap w.processor) outputs self)
    (keeps : (kept w').Sublist (self.held.map (Trace.keyed self.name)))
    (worker : w'.worker = w.worker) (queue : w'.inputQueue = w.inputQueue) :
    SublistForall₂ Left (trail w') (trail w) := by
  have refl (traces : List Trace) : SublistForall₂ Left traces traces := Std.Refl.refl _
  have line := relaysLine [] w.processor relays
  rw [List.map_nil, List.append_nil] at line
  have fewer := (within.map fun output =>
    (Handed.mk w.processor (w.heap w.processor).name output).trace).append keeps
  have sends : SublistForall₂ Left _ _ := fewer.sublistForall₂
  simp only [trail, handed, worker, queue, List.map_append, List.map_map, List.append_assoc]
  refine drawsAppend (refl _) ?_
  rw [← List.append_assoc]
  exact drawsAppend (IsTrans.trans _ _ _ sends line) (refl _)

theorem updateForgets {i : Nat} {q : Processor} (forgets : Forgets (w.heap i) q) (j : Nat) :
    Forgets (w.heap j) (Function.update w.heap i q j) := by
  by_cases here : j = i
  · subst here
    rwa [Function.update_self]
  · rw [Function.update_of_ne here]
    exact forgetsSame _

end Line

section Flow
variable {env : Environment} {w w' : World}

def Waits (w : World) (t r : Nat) : Prop :=
  At w.tasks (fun frame => frame.client.replacement) t r

structure Quiet (w w' : World) : Prop where
  processor : w'.processor = w.processor
  next : w'.next = w.next
  installs : installs w' = installs w
  enqueued : w'.history.enqueued = w.history.enqueued
  handed : ∃ more, w'.traffic.handed = w.traffic.handed ++ more ∧ ∀ h ∈ more, h.target = w.processor
  line : SublistForall₂ Left (trail w') (trail w)
  waits : ∀ t r, Waits w' t r → Waits w t r
  empty : ∀ t r, Waits w t r → (w'.heap r).held.Sublist (w.heap r).held

inductive Flow (env : Environment) (w : World) : World → Prop where
  | quiet {w' : World} (quiet : Quiet w w') : Flow env w w'
  | arrives (data : Bytes) (host : String) (port : Nat) :
    Flow env w (datagramReceived w data host port)
  | launches (request : Request) (swap : Swap) (replacement : Processor)
    (created : create (swap.registry w) swap.name = .ok replacement) :
    Flow env w (launched (asked w request) swap replacement)
  | swaps (t : Nat) (swap : Swap) (r : Nat)
    (found : w.tasks[t]? = some (.acquiring (.swap swap r)))
    (outputs : List ProcessedPacket) (self : Processor)
    (drained : (w.heap w.processor).flush env.host = (.ok outputs, self)) :
    Flow env w (install { w with
      heap := Function.update w.heap w.processor self.beginReset
      processorLock := true
      tasks := w.tasks.set t (.finishing (.swap swap r) w.processor)
      traffic := flushOutputs env w w.processor outputs w.traffic
      history := (w.history.called [⟨w.processor, .flush, .begins⟩,
        ⟨w.processor, .flush, .ends⟩, ⟨w.processor, .stop, .begins⟩]).changed t
          (swap.assignments r) } swap r)

theorem silentQuiet (handed : w'.traffic.handed = w.traffic.handed)
    (processor : w'.processor = w.processor) (next : w'.next = w.next)
    (changes : installs w' = installs w) (enqueued : w'.history.enqueued = w.history.enqueued)
    (packets : w'.worker.packets.Sublist w.worker.packets) (queue : w'.inputQueue = w.inputQueue)
    (heap : ∀ i, Forgets (w.heap i) (w'.heap i))
    (waits : ∀ t r, Waits w' t r → Waits w t r) : Quiet w w' where
  processor := processor
  next := next
  installs := changes
  enqueued := enqueued
  handed := ⟨[], by rw [handed, List.append_nil], by simp⟩
  line := silentLine handed processor packets queue (heap _)
  waits := waits
  empty := fun _ r _ => (heap r).1

theorem waitsElsewhere (sound : Sound w) {t r : Nat} (waits : Waits w t r) :
    r < w.next ∧ r ≠ w.processor :=
  sound.linked.pending t r (atMap.mpr waits)

theorem settleQuiet {packet : MediaPacket} {target : Nat} {progress : Progress}
    (here : target = w.processor) (busy : w.worker.packets = [packet])
    (elsewhere : ∀ t r, Waits w t r → r ≠ target)
    (relays : Relays (progress.consumed (keyOf (w.heap target).name packet.payload)) (w.heap target)
      progress.outputs progress.self) : Quiet w (settle env w packet target progress) where
  processor := by cases progress <;> rfl
  next := by cases progress <;> rfl
  installs := by cases progress <;> rfl
  enqueued := by cases progress <;> rfl
  handed := by
    cases progress with
    | suspended self => exact ⟨[], by simp [settle], by simp⟩
    | returned outputs self =>
      refine ⟨_, emitHands target packet.senderHost outputs w.traffic, fun h sent => ?_⟩
      obtain ⟨output, _, rfl⟩ := List.mem_map.mp sent
      exact here
    | raised error self =>
      refine ⟨[], ?_, by simp⟩
      simp only [settle, List.append_nil]
      split <;> rfl
  line := settleLine here busy relays
  waits t r waits := by cases progress <;> exact waits
  empty t r waits := by
    have other := elsewhere t r waits
    cases progress <;> simp only [settle, Function.update_of_ne other, List.Sublist.refl]

theorem resumeConsumes (p : Processor) (payload key : Bytes) :
    (p.resume payload).consumed key = [key] := by
  cases p <;> rfl

theorem interruptConsumes (p : Processor) (payload key : Bytes) :
    (p.interrupt payload).consumed key = [key] := by
  cases p <;> rfl

theorem stepFlow {event : Event} (sound : Sound w) (step : Step env w event w') :
    Flow env w w' := by
  have still (i : Nat) : Forgets (w.heap i) (w.heap i) := forgetsSame _
  cases step with
  | ingress data host port opened => exact .arrives data host port
  | launches request swap replacement brought created =>
    exact .launches request swap replacement created
  | entersSwap t swap r found free outputs self drained =>
    exact .swaps t swap r found outputs self drained
  | workerCancelled requested outside =>
    exact .quiet (silentQuiet rfl rfl rfl rfl rfl (List.nil_sublist _) rfl still
      (fun _ _ waits => waits))
  | workerTakes packet rest idle queue calm =>
    refine .quiet ⟨rfl, rfl, rfl, rfl, ⟨[], by simp, by simp⟩, ?_, fun _ _ waits => waits,
      fun _ _ _ => List.Sublist.refl _⟩
    have same : trail w = trail { w with
        inputQueue := rest
        worker := .acquiring packet
        history := { w.history with taken := w.history.taken ++ [packet] } } := by
      simp [trail, kept, Worker.packets, idle, queue]
    rw [same]
    exact Std.Refl.refl _
  | workerEnters packet waiting free calm =>
    have busy : w.worker.packets = [packet] := by rw [waiting]; rfl
    have settled := @settleQuiet env
      { w with history := w.history.called [⟨w.processor, .process packet, .begins⟩] } packet
      w.processor _ rfl busy (fun t r waits => (waitsElsewhere sound waits).2)
      (Processor.processRelays env.host (w.heap w.processor) packet.payload)
    exact .quiet ⟨settled.processor, settled.next, settled.installs, settled.enqueued, settled.handed,
      settled.line, settled.waits, settled.empty⟩
  | workerInterrupted packet target inside requested =>
    have here := sound.linked.worker packet target (by rw [skeleton, inside]; rfl)
    have busy : w.worker.packets = [packet] := by rw [inside]; rfl
    have relays := Processor.interruptRelays (w.heap target) packet.payload
    rw [← interruptConsumes] at relays
    have settled := @settleQuiet env { w with cancelRequested := false } packet target _ here busy
      (fun t r waits => here ▸ (waitsElsewhere sound waits).2) relays
    exact .quiet ⟨settled.processor, settled.next, settled.installs, settled.enqueued, settled.handed,
      settled.line, settled.waits, settled.empty⟩
  | workerResumes packet target inside calm =>
    have here := sound.linked.worker packet target (by rw [skeleton, inside]; rfl)
    have busy : w.worker.packets = [packet] := by rw [inside]; rfl
    have relays := Processor.resumeRelays (w.heap target) packet.payload
    rw [← resumeConsumes] at relays
    exact .quiet (settleQuiet here busy (fun t r waits => here ▸ (waitsElsewhere sound waits).2)
      relays)
  | inference target outcome self ends =>
    exact .quiet (silentQuiet rfl rfl rfl rfl rfl (List.Sublist.refl _) rfl
      (updateForgets (relaysForgets (Processor.inferenceEndsRelays ends))) (fun _ _ waits => waits))
  | refused request error swaps =>
    exact .quiet (silentQuiet rfl rfl rfl rfl rfl (List.Sublist.refl _) rfl still
      (fun _ _ => atAppendKept rfl))
  | appliedLive request updates rule brought known valid found =>
    refine .quiet (silentQuiet rfl rfl rfl ?_ rfl (List.Sublist.refl _) rfl
      (updateForgets ⟨?_, Processor.setAttributeName _ _ _⟩) (fun _ _ => atAppendKept rfl))
    · simp [installs, applyLive, asked, History.changed]
    · rw [Processor.setAttributeHeld]
      exact List.Sublist.refl _
  | asksReset =>
    exact .quiet (silentQuiet rfl rfl rfl rfl rfl (List.Sublist.refl _) rfl still
      (fun _ _ => atAppendKept rfl))
  | stopIdle down =>
    exact .quiet (silentQuiet rfl rfl rfl rfl rfl (List.Sublist.refl _) rfl still
      (fun _ _ => atAppendKept rfl))
  | stopWaits up gone =>
    exact .quiet (silentQuiet rfl rfl rfl rfl rfl (List.Sublist.refl _) rfl still
      (fun _ _ => atAppendKept rfl))
  | stopJoins up live =>
    exact .quiet (silentQuiet rfl rfl rfl rfl rfl (List.Sublist.refl _) rfl still
      (fun _ _ => atAppendKept rfl))
  | starts t swap r found =>
    exact .quiet (silentQuiet rfl rfl rfl rfl rfl (List.Sublist.refl _) rfl still
      (fun _ _ => atSetKept found (fun _ same => same)))
  | fails t swap r error found =>
    exact .quiet (silentQuiet rfl rfl rfl rfl rfl (List.Sublist.refl _) rfl still
      (fun _ _ => atSetKept found (fun _ none => by contradiction)))
  | joins t found complete =>
    exact .quiet (silentQuiet rfl rfl rfl rfl rfl (List.Sublist.refl _) rfl still
      (fun _ _ => atSetKept found (fun _ none => by contradiction)))
  | entersReset t found free =>
    exact .quiet (silentQuiet rfl rfl rfl rfl rfl (List.Sublist.refl _) rfl
      (updateForgets (relaysForgets (Processor.beginResetRelays _)))
      (fun _ _ => atSetKept found (fun _ none => by contradiction)))
  | flushRaises t job found free flushes error self raised =>
    have relays := Processor.flushRelays env.host (w.heap w.processor)
    rw [raised] at relays
    exact .quiet (silentQuiet rfl rfl rfl rfl rfl (List.Sublist.refl _) rfl
      (updateForgets (relaysForgets relays))
      (fun _ _ => atSetKept found (fun _ none => by contradiction)))
  | entersShutdown t found free outputs self drained =>
    have relays := Processor.flushRelays env.host (w.heap w.processor)
    rw [drained] at relays
    have forgets := relaysForgets (Processor.beginResetRelays self)
    obtain ⟨sent, within, handed⟩ :=
      @flushHands env w w.processor outputs w.traffic
    refine .quiet ⟨rfl, rfl, rfl, rfl, ⟨_, handed, ?_⟩, flushLine handed within relays ?_ rfl rfl,
      fun _ _ => atSetKept found (fun _ none => by contradiction), fun t r waits => ?_⟩
    · intro h inside
      obtain ⟨output, _, rfl⟩ := List.mem_map.mp inside
      rfl
    · simp only [kept, Function.update_self, forgets.2]
      exact forgets.1.map _
    · have other := (waitsElsewhere sound waits).2
      simp only [Function.update_of_ne other, List.Sublist.refl]
  | leaves t job target found =>
    have forgets := updateForgets (relaysForgets (Processor.endResetRelays (w.heap target)))
    cases job with
    | reset =>
      exact .quiet (silentQuiet rfl rfl rfl rfl rfl (List.Sublist.refl _) rfl forgets
        (fun _ _ => atSetKept found (fun _ none => by contradiction)))
    | shutdown =>
      exact .quiet (silentQuiet rfl rfl rfl rfl rfl (List.Sublist.refl _) rfl forgets
        (fun _ _ => atSetKept found (fun _ none => by contradiction)))
    | swap swap r =>
      cases swap with
      | select name =>
        refine .quiet (silentQuiet rfl rfl rfl ?_ rfl (List.Sublist.refl _) rfl forgets
          (fun _ _ => atSetKept found (fun _ none => by contradiction)))
        simp [installs, leave, History.changed, History.called]
      | update snapshot updates =>
        exact .quiet (silentQuiet rfl rfl rfl rfl rfl (List.Sublist.refl _) rfl forgets
          (fun _ _ => atSetKept found (fun _ none => by contradiction)))

end Flow

section Relayed
variable {env : Environment} {settings : Settings} {w w' : World} {events : List Event}

structure Relayed (w : World) : Prop where
  trail : SublistForall₂ Left (trail w) (w.history.enqueued.map .whole)
  empty : ∀ t r, Waits w t r → (w.heap r).held = []

theorem startedRelayed (start : started settings = .ok w) : Relayed w := by
  obtain ⟨p, created, rfl⟩ := startedFresh start
  refine ⟨?_, fun t r waits => absurd waits nobodyAt⟩
  have nothing : trail (fresh settings p) = [] := by
    simp [trail, kept, fresh, Worker.packets, createHeld created]
  rw [nothing]
  exact .nil

theorem stepRelayed (sound : Sound w) (relayed : Relayed w) (flow : Flow env w w') : Relayed w' := by
  cases flow with
  | quiet quiet =>
    refine ⟨?_, fun t r waits => ?_⟩
    · rw [quiet.enqueued]
      exact IsTrans.trans _ _ _ quiet.line relayed.trail
    · have before := quiet.waits t r waits
      have less := quiet.empty t r before
      rw [relayed.empty t r before] at less
      exact List.sublist_nil.mp less
  | arrives data host port =>
    unfold datagramReceived
    simp only
    split
    · exact ⟨relayed.trail, relayed.empty⟩
    · split
      · exact ⟨relayed.trail, relayed.empty⟩
      · refine ⟨?_, relayed.empty⟩
        have last : Forall₂ Left [Trace.whole ⟨data, host, port⟩] [.whole ⟨data, host, port⟩] :=
          .cons (.same _) .nil
        have line := drawsAppend relayed.trail (drawsAll last)
        simpa [trail, kept, List.append_assoc] using line
  | launches request swap replacement created =>
    have installed := sound.linked.installed
    have other : w.processor ≠ w.next := Nat.ne_of_lt installed
    refine ⟨?_, fun t r waits => ?_⟩
    · have same : trail (launched (asked w request) swap replacement) = trail w := by
        simp [trail, kept, launched, asked, Function.update_of_ne other]
      rw [same]
      exact relayed.trail
    · rcases atAppend.mp waits with ⟨_, new⟩ | waits
      · cases new
        simp only [launched, asked, Function.update_self, createHeld created]
      · have below := (waitsElsewhere sound waits).1
        simp only [launched, asked, Function.update_of_ne (Nat.ne_of_lt below)]
        exact relayed.empty t r waits
  | swaps t swap r found outputs self drained =>
    have mine : Waits w t r := (atFound found).mpr rfl
    have other := (waitsElsewhere sound mine).2
    have relays := Processor.flushRelays env.host (w.heap w.processor)
    rw [drained] at relays
    obtain ⟨sent, within, handed⟩ :=
      @flushHands env w w.processor outputs w.traffic
    refine ⟨?_, fun u q waits => ?_⟩
    · rw [installHistory]
      refine IsTrans.trans _ _ _ (flushLine (by rw [installTraffic]; exact handed) within relays ?_
        (installWorker _ _ _) (installQueue _ _ _)) relayed.trail
      simp only [kept, installProcessor, installHeap, Function.update_of_ne other,
        relayed.empty t r mine, List.map_nil, List.nil_sublist]
    · rw [Waits, installTasks] at waits
      have before : Waits w u q := atSetKept found (fun _ none => by contradiction) waits
      have elsewhere := (waitsElsewhere sound before).2
      simp only [installHeap, Function.update_of_ne elsewhere, relayed.empty u q before]

structure Succession (w : World) : Prop where
  last : ∃ before, installs w = before ++ [w.processor]
  nodup : (installs w).Nodup
  known : ∀ i ∈ installs w, i < w.next
  waits : ∀ t r, Waits w t r → r ∉ installs w
  grouped : Grouped Handed.target (installs w) w.traffic.handed

theorem startedSuccession (start : started settings = .ok w) : Succession w := by
  obtain ⟨p, created, rfl⟩ := startedFresh start
  have alone : installs (fresh settings p) = [0] := rfl
  exact {
    last := ⟨[], alone⟩
    nodup := by simp [alone]
    known := fun i inside => by
      rw [alone, List.mem_singleton] at inside
      exact inside ▸ Nat.one_pos
    waits := fun t r waits => absurd waits nobodyAt
    grouped := ⟨[[]], .cons (by simp) .nil, rfl⟩ }

theorem installsSwap {v : World} (t : Nat) (swap : Swap) (r : Nat)
    (changes : v.history.changes =
      w.history.changes ++ (swap.assignments r).map (Change.mk t)) :
    installs v = installs w ++ [r] := by
  cases swap <;> simp [installs, changes, Swap.assignments]

theorem swapSuccession {v : World} {t r : Nat} (sound : Sound w) (succession : Succession w)
    (mine : Waits w t r) (added : installs v = installs w ++ [r]) (processor : v.processor = r)
    (next : v.next = w.next)
    (handed : ∃ more, v.traffic.handed = w.traffic.handed ++ more ∧ ∀ h ∈ more, h.target = w.processor)
    (waits : ∀ u q, Waits v u q → u ≠ t ∧ Waits w u q) : Succession v := by
  have absent := succession.waits t r mine
  obtain ⟨before, last⟩ := succession.last
  obtain ⟨more, handed, owned⟩ := handed
  refine ⟨⟨installs w, by rw [added, processor]⟩, ?_, ?_, ?_, ?_⟩
  · rw [added]
    exact succession.nodup.append (List.nodup_singleton r) (List.disjoint_singleton.mpr absent)
  · intro i inside
    rw [next]
    rcases List.mem_append.mp (added ▸ inside) with old | new
    · exact succession.known i old
    · rw [List.mem_singleton.mp new]
      exact (waitsElsewhere sound mine).1
  · intro u q later inside
    obtain ⟨other, earlier⟩ := waits u q later
    rcases List.mem_append.mp (added ▸ inside) with old | new
    · exact succession.waits u q earlier old
    · rw [List.mem_singleton.mp new] at earlier
      exact other (sound.linked.distinct u t r (atMap.mpr earlier) (atMap.mpr mine))
  · have grouped := succession.grouped
    rw [last] at grouped
    rw [added, handed]
    exact groupedNew r (last ▸ groupedMore grouped owned)

theorem stepSuccession (sound : Sound w) (succession : Succession w) (flow : Flow env w w') :
    Succession w' := by
  obtain ⟨before, last⟩ := succession.last
  have nodup := succession.nodup
  have known := succession.known
  have grouped := succession.grouped
  cases flow with
  | quiet quiet =>
    obtain ⟨more, handed, mine⟩ := quiet.handed
    rw [← quiet.installs] at last nodup known grouped
    refine ⟨⟨before, quiet.processor ▸ last⟩, nodup, quiet.next ▸ known, fun t r waits => ?_, ?_⟩
    · rw [quiet.installs]
      exact succession.waits t r (quiet.waits t r waits)
    · rw [handed, last]
      rw [last] at grouped
      exact groupedMore grouped mine
  | arrives data host port =>
    obtain ⟨queue, metrics, enqueued, received⟩ := datagramKeeps w data host port
    rw [received]
    exact ⟨succession.last, nodup, known, succession.waits, grouped⟩
  | launches request swap replacement created =>
    refine ⟨⟨before, last⟩, nodup, fun i inside => Nat.lt_succ_of_lt (known i inside),
      fun t r waits inside => ?_, grouped⟩
    rcases atAppend.mp waits with ⟨_, new⟩ | waits
    · cases new
      exact absurd (known _ inside) (Nat.lt_irrefl _)
    · exact succession.waits t r waits inside
  | swaps t swap r found outputs self drained =>
    have mine : Waits w t r := (atFound found).mpr rfl
    obtain ⟨sent, _, handed⟩ := @flushHands env w w.processor outputs w.traffic
    refine swapSuccession sound succession mine (installsSwap t swap r ?_) (installProcessor _ _ _)
      (installNext _ _ _) ⟨_, by rw [installTraffic]; exact handed, fun h inside => ?_⟩
      (fun u q waits => ?_)
    · rw [installHistory]
      rfl
    · obtain ⟨output, _, rfl⟩ := List.mem_map.mp inside
      rfl
    · rw [Waits, installTasks] at waits
      rcases (atSet found).mp waits with ⟨_, none⟩ | waits
      · contradiction
      · exact waits

end Relayed

section Outcome
variable {env : Environment} {settings : Settings} {w w' : World} {events : List Event}

def Handed.Answers (handed : Handed) (packet : MediaPacket) : Prop :=
  if handed.name = "passthrough" ∨ handed.name = "delay-passthrough" then
    handed.output.payload = packet.payload
  else handed.output.payload.take headerSize = packet.payload.take headerSize

theorem leftAnswers {handed : Handed} {packet : MediaPacket}
    (left : Left handed.trace (.whole packet)) : handed.Answers packet := by
  have key : keyOf handed.name handed.output.payload = keyOf handed.name packet.payload := by
    unfold Handed.trace at left
    generalize keyOf handed.name handed.output.payload = key at left ⊢
    cases left
    rfl
  unfold keyOf at key
  unfold Handed.Answers
  split <;> simp_all

theorem relayedAnswers (relayed : Relayed w) : ∃ sources : List MediaPacket,
    sources.Sublist w.history.enqueued ∧ Forall₂ Handed.Answers w.traffic.handed sources := by
  have line := drawsFirst relayed.trail
  rw [List.sublistForall₂_map_left_iff, List.sublistForall₂_map_right_iff] at line
  obtain ⟨sources, related, within⟩ := List.sublistForall₂_iff.mp line
  exact ⟨sources, within, related.imp fun _ _ left => leftAnswers left⟩

structure Orderly (w : World) : Prop where
  sound : Sound w
  relayed : Relayed w
  succession : Succession w

theorem stepOrderly {event : Event} (orderly : Orderly w) (stepped : step env w event = some w') :
    Orderly w' := by
  have flow := stepFlow orderly.sound (stepCases stepped)
  exact ⟨stepSound orderly.sound stepped, stepRelayed orderly.sound orderly.relayed flow,
    stepSuccession orderly.sound orderly.succession flow⟩

theorem runOrderly (start : started settings = .ok w) (ran : run (step env) w events = some w') :
    Orderly w' :=
  runInvariant Orderly ⟨startedSound start, startedRelayed start, startedSuccession start⟩
    (fun _ _ _ orderly stepped => stepOrderly orderly stepped) ran

theorem outputsInOrder (start : started settings = .ok w)
    (ran : run (step env) w events = some w') :
    (∃ sources : List MediaPacket, sources.Sublist w'.history.enqueued ∧
      Forall₂ Handed.Answers w'.traffic.handed sources) ∧
    (installs w').Nodup ∧ Grouped Handed.target (installs w') w'.traffic.handed := by
  have orderly := runOrderly start ran
  exact ⟨relayedAnswers orderly.relayed, orderly.succession.nodup, orderly.succession.grouped⟩

theorem outputsInOrderSelected : ∃ w w', started {} = .ok w ∧
    run (step trial) w selection = some w' ∧
    (∃ sources : List MediaPacket, sources.Sublist w'.history.enqueued ∧
      Forall₂ Handed.Answers w'.traffic.handed sources) ∧
    (installs w').Nodup ∧ Grouped Handed.target (installs w') w'.traffic.handed :=
  ⟨_, _, rfl, rfl, @outputsInOrder trial {} _ _ selection rfl rfl⟩

end Outcome

end KaraokeAnything.Service
