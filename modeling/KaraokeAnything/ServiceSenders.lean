import KaraokeAnything.ProcessorCustody
import KaraokeAnything.ServiceRelay

/-! Whose packet each output of the processing loop was produced from, and where it is
sent. A line of whole packets goes along with every processor; what the service does is
what it does without them. -/
namespace KaraokeAnything.Service
open ByteOrder Config Custody Kany Lifecycle Models Processors Python RuntimeSettings
open HotSwap (At)
open Line (pairSeen pairSources)
open Processor (Tallies Progress)
open Runs
open SegmentedInference (InferenceOutcome Stamp incoming stamp)

section Tracing

structure Handling where
  target : Nat
  packet : Option MediaPacket
  moves : List Move
  outputs : List ProcessedPacket

def handling (env : Environment) (w w' : World) : Event → Option Handling
  | .worker =>
    match w.worker with
    | .acquiring packet =>
      let self := w.heap w.processor
      if w.cancelRequested then none
      else some ⟨w.processor, some packet, self.processMoves env.host packet.payload,
        (self.process env.host packet.payload).outputs⟩
    | .processing packet target =>
      let self := w.heap target
      if w.cancelRequested then some ⟨target, some packet, self.interruptMoves packet.payload,
        (self.interrupt packet.payload).outputs⟩
      else some ⟨target, some packet, self.resumeMoves packet.payload,
        (self.resume packet.payload).outputs⟩
    | _ => none
  | .resume task =>
    match w.tasks[task]? with
    | some (.acquiring .reset) => none
    | some (.acquiring _) =>
      let self := w.heap w.processor
      some ⟨w.processor, none, self.harvestMoves, (self.flush env.host).1.toOption.getD []⟩
    | some (.finishing _ target) => some ⟨target, none, [.clear], []⟩
    | _ => none
  | .call _ => if w'.next = w.next then none else some ⟨w.next, none, [.clear], []⟩
  | _ => none

def addressed (w : World) (fallbackHost : String) (output : ProcessedPacket) : Datagram where
  payload := output.payload
  host := (orElse (orElse output.destinationHost w.settings.returnHost) (some fallbackHost)).getD ""
  port := match output.destinationPort with
    | some 0 | none => w.settings.outputPort
    | some port => port

structure Delivery where
  source : MediaPacket
  output : ProcessedPacket
  datagram : Datagram

def deliveries (w : World) (packet : MediaPacket) (outputs : List ProcessedPacket)
    (sources : List MediaPacket) : List Delivery :=
  if w.transport then (outputs.zip sources).map (fun pair =>
    ⟨pair.2, pair.1, addressed w packet.senderHost pair.1⟩)
  else []

structure Traced where
  world : World
  lines : Nat → Line MediaPacket := fun _ => {}
  sends : List Delivery := []
  wire : List Datagram := []

def Traced.handle (t : Traced) (w' : World) (h : Handling) : Traced :=
  let line := (t.lines h.target).after h.packet h.moves
  let lines := Function.update t.lines h.target (line.release h.outputs.length)
  match h.packet with
  | none => { t with world := w', lines }
  | some packet => {
      world := w', lines
      sends := t.sends ++ deliveries t.world packet h.outputs line.ready
      wire := t.wire ++ w'.traffic.forwarded.drop t.world.traffic.forwarded.length }

def tracedStep (env : Environment) (t : Traced) (event : Event) : Option Traced :=
  (step env t.world event).map (fun w' =>
    ((handling env t.world w' event).map (t.handle w')).getD { t with world := w' })

/- No packet enters while the output that its call yields is due to another host: the
one that is ready first behind the harvest, in a processor that buffers. -/
def Homeward (env : Environment) (t : Traced) (event : Event) : Prop :=
  let self := t.world.heap t.world.processor
  ∀ packet source, event = .worker → t.world.worker = .acquiring packet →
    t.world.cancelRequested = false → t.world.transport = true → self.buffers = true →
    self.Accepts env.host packet.payload →
    ((t.lines t.world.processor).after (some packet) self.harvestMoves).ready.head? = some source →
    source.senderHost = packet.senderHost

end Tracing

section Egress
variable {env : Environment} {w : World}

theorem sendForwards (target : Nat) (output : ProcessedPacket) (fallbackHost : String)
    (traffic : Traffic) : ∃ sent : List ProcessedPacket, sent.Sublist [output] ∧
      (w.transport = false → sent = []) ∧
      (sendOutput env w target output fallbackHost traffic).forwarded =
        traffic.forwarded ++ sent.map (addressed w fallbackHost) := by
  unfold sendOutput
  simp only
  split
  · exact ⟨[], List.nil_sublist _, fun _ => rfl, by simp⟩
  · rename_i up
    split
    · exact ⟨[], List.nil_sublist _, fun _ => rfl, by simp⟩
    · exact ⟨[output], List.Sublist.refl _, fun down => absurd down (by simpa using up), rfl⟩

theorem emitForwards (target : Nat) (fallbackHost : String) (outputs : List ProcessedPacket)
    (traffic : Traffic) : ∃ sent : List ProcessedPacket, sent.Sublist outputs ∧
      (w.transport = false → sent = []) ∧
      (emitOutputs env w target fallbackHost outputs traffic).forwarded =
        traffic.forwarded ++ sent.map (addressed w fallbackHost) := by
  induction outputs generalizing traffic with
  | nil => exact ⟨[], List.Sublist.refl _, fun _ => rfl, by simp [emitOutputs]⟩
  | cons output rest ih =>
    obtain ⟨first, inside, closed, forwarded⟩ :=
      @sendForwards env w target output fallbackHost (countEmitted traffic)
    obtain ⟨more, within, shut, later⟩ :=
      ih (sendOutput env w target output fallbackHost (countEmitted traffic))
    refine ⟨first ++ more, inside.append within, fun down => by rw [closed down, shut down]; rfl, ?_⟩
    rw [forwarded, List.append_assoc, ← List.map_append] at later
    exact later

theorem settleForwards (packet : MediaPacket) (target : Nat) (progress : Progress) :
    ∃ sent : List ProcessedPacket, sent.Sublist progress.outputs ∧
      (w.transport = false → sent = []) ∧
      (settle env w packet target progress).traffic.forwarded =
        w.traffic.forwarded ++ sent.map (addressed w packet.senderHost) := by
  cases progress with
  | suspended self => exact ⟨[], List.nil_sublist _, fun _ => rfl, by simp [settle]⟩
  | returned outputs self => exact emitForwards target packet.senderHost outputs w.traffic
  | raised error self =>
    refine ⟨[], List.nil_sublist _, fun _ => rfl, ?_⟩
    simp only [settle, List.map_nil, List.append_nil]
    split <;> rfl

end Egress

section Handled
variable {env : Environment} {w w' : World}

def Handled (w w' : World) : Option Handling → Prop
  | none => ∀ i, (w'.heap i).heldLine = (w.heap i).heldLine
  | some h => Tallies (h.packet.map (·.payload)) (w.heap h.target) h.moves h.outputs
      (w'.heap h.target) ∧ ∀ i, i ≠ h.target → (w'.heap i).heldLine = (w.heap i).heldLine

theorem handledNone {event : Event} (nothing : handling env w w' event = none)
    (same : ∀ i, (w'.heap i).heldLine = (w.heap i).heldLine) :
    Handled w w' (handling env w w' event) := by
  rw [nothing]
  exact same

theorem handledUpdate {target : Nat} {packet : Option MediaPacket} {moves : List Move}
    {outputs : List ProcessedPacket} {self : Processor}
    (heap : w'.heap = Function.update w.heap target self)
    (tallies : Tallies (packet.map (·.payload)) (w.heap target) moves outputs self) :
    Handled w w' (some ⟨target, packet, moves, outputs⟩) := by
  refine ⟨?_, fun i other => ?_⟩
  · simpa only [heap, Function.update_self] using tallies
  · simp only [heap, Function.update_of_ne other]

theorem settleHeap (packet : MediaPacket) (target : Nat) (progress : Progress) :
    (settle env w packet target progress).heap = Function.update w.heap target progress.self := by
  cases progress <;> rfl

theorem leaveHeap (t : Nat) (job : Job) (target : Nat) :
    (leave w t job target).heap = Function.update w.heap target (w.heap target).endReset := by
  rcases job with ⟨swap, _⟩ | _ | _
  · cases swap <;> rfl
  · rfl
  · rfl

theorem flushHandled {result : Except PyError (List ProcessedPacket)} {self : Processor}
    (flushed : (w.heap w.processor).flush env.host = (result, self)) {q : Processor}
    (same : q.heldLine = self.heldLine) (heap : w'.heap = Function.update w.heap w.processor q) :
    Handled w w' (some ⟨w.processor, none, (w.heap w.processor).harvestMoves,
      ((w.heap w.processor).flush env.host).1.toOption.getD []⟩) := by
  refine handledUpdate heap ?_
  have tallies := Processor.flushTallies env.host (w.heap w.processor)
  rw [flushed] at tallies ⊢
  rw [Option.map_none, Tallies, same]
  exact tallies

theorem stepHandled {event : Event} (step : Step env w event w') :
    Handled w w' (handling env w w' event) := by
  have still (i : Nat) : (w.heap i).heldLine = (w.heap i).heldLine := rfl
  cases step with
  | ingress data host port opened =>
    obtain ⟨queue, metrics, enqueued, received⟩ := datagramKeeps w data host port
    rw [received]
    exact still
  | workerCancelled requested outside =>
    cases phase : w.worker with
    | processing packet target => exact absurd phase (outside packet target)
    | acquiring packet => exact handledNone (by simp [handling, phase, requested]) still
    | getting => exact handledNone (by simp [handling, phase]) still
    | finished => exact handledNone (by simp [handling, phase]) still
  | workerTakes packet rest idle queue calm => exact handledNone (by simp [handling, idle]) still
  | workerEnters packet waiting free calm =>
    simp only [handling, waiting, calm, Bool.false_eq_true, if_false]
    exact handledUpdate (settleHeap _ _ _) (Processor.processTallies env.host packet.payload _)
  | workerInterrupted packet target inside requested =>
    simp only [handling, inside, requested, if_true]
    exact handledUpdate (settleHeap _ _ _) (Processor.interruptTallies packet.payload _)
  | workerResumes packet target inside calm =>
    simp only [handling, inside, calm, Bool.false_eq_true, if_false]
    exact handledUpdate (settleHeap _ _ _) (Processor.resumeTallies packet.payload _)
  | inference target outcome self ends =>
    exact viewUpdate Processor.heldLine (Processor.inferenceEndsLine ends)
  | refused request error swaps => exact handledNone (by simp [handling, ended, asked]) still
  | appliedLive request updates rule brought known valid found =>
    simp only [handling, applyLive, asked, if_true]
    exact viewUpdate Processor.heldLine (Processor.setAttributeLine _ _ _)
  | launches request swap replacement brought created =>
    simp only [handling, launched, asked, Nat.succ_ne_self, if_false]
    have tallies : Tallies none (w.heap w.next) [.clear] [] replacement := by
      rw [Tallies, Processor.heldNothing (createHeld created)]
      rfl
    exact handledUpdate rfl tallies
  | asksReset => exact handledNone (by simp [handling, ended, asked]) still
  | stopIdle down => exact handledNone (by simp [handling, ended, asked]) still
  | stopJoins up live => exact handledNone (by simp [handling, asked]) still
  | stopWaits up gone => exact handledNone (by simp [handling, ended, asked]) still
  | starts t swap r found => exact handledNone (by simp [handling, found]) still
  | fails t swap r error found => exact handledNone (by simp [handling]) still
  | joins t found complete => exact handledNone (by simp [handling, found]) still
  | entersReset t found free =>
    simp only [handling, found]
    exact viewUpdate Processor.heldLine (Processor.beginResetLine _)
  | flushRaises t job found free flushes error self raised =>
    cases job with
    | reset => contradiction
    | shutdown =>
      simp only [handling, found]
      exact flushHandled raised rfl rfl
    | swap swap r =>
      simp only [handling, found]
      exact flushHandled raised rfl rfl
  | entersShutdown t found free outputs self drained =>
    simp only [handling, found]
    exact flushHandled drained (Processor.beginResetLine self) rfl
  | entersSwap t swap r found free outputs self drained =>
    simp only [handling, found]
    exact flushHandled drained (Processor.beginResetLine self) (installHeap _ _ _)
  | leaves t job target found =>
    simp only [handling, found]
    exact handledUpdate (leaveHeap t job target) (Processor.clearTallies _ _)

end Handled

section Taken
variable {env : Environment} {w w' : World}

structure Takes (w w' : World) : Prop where
  known : w.history.taken ⊆ w'.history.taken
  worker : ∀ packet ∈ w'.worker.packets, packet ∈ w.worker.packets ∨ packet ∈ w'.history.taken

theorem takesNothing (taken : w'.history.taken = w.history.taken)
    (worker : w'.worker.packets ⊆ w.worker.packets) : Takes w w' :=
  ⟨by rw [taken]; exact List.Subset.refl _, fun _ inside => .inl (worker inside)⟩

theorem settleTakes {u : World} {packet : MediaPacket} {target : Nat} {progress : Progress}
    (taken : u.history.taken = w.history.taken) (busy : w.worker.packets = [packet]) :
    Takes w (settle env u packet target progress) := by
  refine takesNothing ?_ ?_
  · cases progress <;> exact taken
  · rw [busy]
    cases progress with
    | suspended self => exact List.Subset.refl _
    | returned outputs self => exact List.nil_subset _
    | raised error self =>
      simp only [settle]
      split <;> exact List.nil_subset _

theorem stepTakes {event : Event} (step : Step env w event w') : Takes w w' := by
  have same : w.worker.packets ⊆ w.worker.packets := List.Subset.refl _
  cases step with
  | ingress data host port opened =>
    obtain ⟨queue, metrics, enqueued, received⟩ := datagramKeeps w data host port
    rw [received]
    exact takesNothing rfl same
  | workerCancelled requested outside => exact takesNothing rfl (List.nil_subset _)
  | workerTakes packet rest idle queue calm =>
    exact ⟨List.subset_append_left _ _, fun other inside => .inr (List.mem_append_right _ inside)⟩
  | workerEnters packet waiting free calm => exact settleTakes rfl (by rw [waiting]; rfl)
  | workerInterrupted packet target inside requested => exact settleTakes rfl (by rw [inside]; rfl)
  | workerResumes packet target inside calm => exact settleTakes rfl (by rw [inside]; rfl)
  | entersSwap t swap r found free outputs self drained =>
    exact takesNothing (by rw [installHistory]; rfl) (by rw [installWorker]; exact same)
  | leaves t job target found =>
    rcases job with ⟨swap, _⟩ | _ | _
    · cases swap <;> exact takesNothing rfl same
    · exact takesNothing rfl same
    · exact takesNothing rfl same
  | inference target outcome self ends => exact takesNothing rfl same
  | refused request error swaps => exact takesNothing rfl same
  | appliedLive request updates rule brought known valid found => exact takesNothing rfl same
  | launches request swap replacement brought created => exact takesNothing rfl same
  | asksReset => exact takesNothing rfl same
  | stopIdle down => exact takesNothing rfl same
  | stopJoins up live => exact takesNothing rfl same
  | stopWaits up gone => exact takesNothing rfl same
  | starts t swap r found => exact takesNothing rfl same
  | fails t swap r error found => exact takesNothing rfl same
  | joins t found complete => exact takesNothing rfl same
  | entersReset t found free => exact takesNothing rfl same
  | flushRaises t job found free flushes error self raised => exact takesNothing rfl same
  | entersShutdown t found free outputs self drained => exact takesNothing rfl same

end Taken

section Returning
variable {env : Environment} {w w' : World} {returnHost : Option String}

structure Returning (returnHost : Option String) (w : World) : Prop where
  settings : w.settings.returnHost = returnHost
  pending : ∀ t snapshot updates r,
    At w.tasks Frame.swapping t (.update snapshot updates, r) → snapshot.returnHost = returnHost

theorem stepReturning {event : Event} (returning : Returning returnHost w)
    (step : Step env w event w') : Returning returnHost w' := by
  obtain ⟨settings, pending⟩ := stepKeeping (fun _ _ same => same)
    (⟨returning.settings, returning.pending⟩ : Keeping (fun s => s.returnHost = returnHost) w) step
  exact ⟨settings, pending⟩

theorem addressedHost (unset : orElse w.settings.returnHost none = none) {output : ProcessedPacket}
    (silent : output.destinationHost = none) (fallbackHost : String) :
    (addressed w fallbackHost output).host = fallbackHost := by
  have host : orElse (orElse none w.settings.returnHost) (some fallbackHost) = some fallbackHost := by
    cases known : w.settings.returnHost with
    | none => rfl
    | some text =>
      rw [known] at unset
      by_cases empty : text.isEmpty = true
      · simp [orElse, empty]
      · simp [orElse, empty] at unset
  rw [addressed, silent, host]
  rfl

end Returning

section Deliveries
variable {env : Environment} {w w' : World} {packet : MediaPacket} {outputs : List ProcessedPacket}
  {sources : List MediaPacket} {h : Handling}

def shown (packet : MediaPacket) : Stamp := incoming packet.payload

theorem deliveriesSound (seen : (sources.take outputs.length).map shown = outputs.map stamp) :
    ∀ d ∈ deliveries w packet outputs sources, d.source ∈ sources ∧ stamp d.output = shown d.source := by
  intro d inside
  unfold deliveries at inside
  split at inside
  · obtain ⟨pair, beside, rfl⟩ := List.mem_map.mp inside
    exact ⟨(List.of_mem_zip beside).2, pairSeen seen pair beside⟩
  · contradiction

theorem deliveriesHome (unset : orElse w.settings.returnHost none = none)
    (seen : (sources.take outputs.length).map shown = outputs.map stamp) :
    (∀ d ∈ deliveries w packet outputs sources, d.datagram.host = d.source.senderHost) ↔
      (w.transport = true → ∀ source ∈ sources.take outputs.length,
        source.senderHost = packet.senderHost) := by
  have hosts (pair : ProcessedPacket × MediaPacket) (beside : pair ∈ outputs.zip sources) :
      (addressed w packet.senderHost pair.1).host = packet.senderHost :=
    addressedHost unset (congrArg Prod.snd (pairSeen seen pair beside)) _
  unfold deliveries
  by_cases up : w.transport = true
  · simp only [up, if_true, forall_const, List.forall_mem_map, ← pairSources]
    exact forall₂_congr fun pair beside => by rw [hosts pair beside, eq_comm]
  · simp [up]

theorem deliveriesSent (enough : outputs.length ≤ sources.length) {sent : List ProcessedPacket}
    (inside : sent.Sublist outputs) (closed : w.transport = false → sent = []) :
    (sent.map (addressed w packet.senderHost)).Sublist
      ((deliveries w packet outputs sources).map (·.datagram)) := by
  unfold deliveries
  split
  · rw [List.map_map]
    have same : (outputs.zip sources).map (addressed w packet.senderHost ∘ Prod.fst) =
        outputs.map (addressed w packet.senderHost) := by
      rw [← List.map_map, List.map_fst_zip enough]
    change List.Sublist _ ((outputs.zip sources).map (addressed w packet.senderHost ∘ Prod.fst))
    rw [same]
    exact inside.map _
  · rename_i down
    rw [closed (by simpa using down)]
    exact List.nil_sublist _

theorem handlesWorker {event : Event} (handles : handling env w w' event = some h)
    (mine : h.packet = some packet) : event = .worker ∧ packet ∈ w.worker.packets := by
  cases event with
  | worker =>
    refine ⟨rfl, ?_⟩
    simp only [handling] at handles
    split at handles
    · rename_i other phase
      split at handles
      · contradiction
      · cases handles
        cases mine
        simp [phase, Worker.packets]
    · rename_i other target phase
      rw [phase]
      split at handles <;> cases handles <;> cases mine <;> simp [Worker.packets]
    · contradiction
  | resume task =>
    simp only [handling] at handles
    split at handles
    · contradiction
    · cases handles; contradiction
    · cases handles; contradiction
    · contradiction
  | call request =>
    simp only [handling] at handles
    split at handles
    · contradiction
    · cases handles; contradiction
  | datagram data host port => contradiction
  | inferenceEnds target outcome => contradiction
  | startFails task error => contradiction

theorem entersHandled (waiting : w.worker = .acquiring packet) (calm : w.cancelRequested = false) :
    ∃ h, handling env w w' .worker = some h ∧ h.packet = some packet := by
  simp only [handling, waiting, calm, Bool.false_eq_true, if_false]
  exact ⟨_, rfl, rfl⟩

inductive Brings (env : Environment) (w : World) (packet : MediaPacket) : Handling → World → Prop
  | enters (waiting : w.worker = .acquiring packet) (calm : w.cancelRequested = false) :
      Brings env w packet ⟨w.processor, some packet,
        (w.heap w.processor).processMoves env.host packet.payload,
        ((w.heap w.processor).process env.host packet.payload).outputs⟩
        (settle env { w with history := w.history.called [⟨w.processor, .process packet, .begins⟩] }
          packet w.processor ((w.heap w.processor).process env.host packet.payload))
  | interrupted (target : Nat) (inside : w.worker = .processing packet target) :
      Brings env w packet ⟨target, some packet, (w.heap target).interruptMoves packet.payload,
        ((w.heap target).interrupt packet.payload).outputs⟩
        (settle env { w with cancelRequested := false } packet target
          ((w.heap target).interrupt packet.payload))
  | resumes (target : Nat) (inside : w.worker = .processing packet target) :
      Brings env w packet ⟨target, some packet, (w.heap target).resumeMoves packet.payload,
        ((w.heap target).resume packet.payload).outputs⟩
        (settle env w packet target ((w.heap target).resume packet.payload))

theorem bringsCases (step : Step env w .worker w') (handles : handling env w w' .worker = some h)
    (mine : h.packet = some packet) : Brings env w packet h w' := by
  cases step with
  | workerCancelled requested outside =>
    simp only [handling] at handles
    split at handles
    · rw [if_pos requested] at handles
      contradiction
    · rename_i packet target inside
      exact absurd inside (outside packet target)
    · contradiction
  | workerTakes packet rest idle queue calm =>
    simp only [handling, idle] at handles
    contradiction
  | workerEnters packet waiting free calm =>
    simp only [handling, waiting, calm, Bool.false_eq_true, if_false, Option.some.injEq] at handles
    subst handles
    cases mine
    exact .enters waiting calm
  | workerInterrupted packet target inside requested =>
    simp only [handling, inside, requested, if_true, Option.some.injEq] at handles
    subst handles
    cases mine
    exact .interrupted target inside
  | workerResumes packet target inside calm =>
    simp only [handling, inside, calm, Bool.false_eq_true, if_false, Option.some.injEq] at handles
    subst handles
    cases mine
    exact .resumes target inside

theorem bringsForwards (brings : Brings env w packet h w') :
    ∃ sent : List ProcessedPacket, sent.Sublist h.outputs ∧ (w.transport = false → sent = []) ∧
      w'.traffic.forwarded = w.traffic.forwarded ++ sent.map (addressed w packet.senderHost) := by
  cases brings with
  | enters =>
    exact @settleForwards env
      { w with history := w.history.called [⟨w.processor, .process packet, .begins⟩] } packet _ _
  | interrupted => exact @settleForwards env { w with cancelRequested := false } packet _ _
  | resumes => exact settleForwards packet _ _

end Deliveries

section Faithful
variable {env : Environment} {t t' : Traced} {w' : World} {event : Event} {h : Handling}

structure Faithful (t : Traced) : Prop where
  lines : ∀ i, (t.lines i).map shown = (t.world.heap i).heldLine
  items : ∀ i, (t.lines i).All (· ∈ t.world.history.taken)
  worker : ∀ packet ∈ t.world.worker.packets, packet ∈ t.world.history.taken
  sends : ∀ d ∈ t.sends, d.source ∈ t.world.history.taken ∧ stamp d.output = shown d.source
  wire : t.wire.Sublist (t.sends.map (·.datagram))

theorem handledSeen (faithful : Faithful t) (handled : Handled t.world w' (some h)) :
    let line := (t.lines h.target).after h.packet h.moves
    (line.ready.take h.outputs.length).map shown = h.outputs.map stamp ∧
      (line.release h.outputs.length).map shown = (w'.heap h.target).heldLine ∧
      h.outputs.length ≤ line.ready.length := by
  have seen := Line.afterMap shown h.packet (t.lines h.target) h.moves
  have arrived : (h.packet.map (·.payload)).map incoming = h.packet.map shown :=
    Option.map_map _ _ _
  rw [faithful.lines, ← arrived, handled.1] at seen
  have leaving := Line.leaving seen
  have length := Line.leavingLength seen
  rw [List.length_map] at leaving length
  exact ⟨leaving.1, leaving.2, length⟩

theorem stepFaithful (faithful : Faithful t) (traced : tracedStep env t event = some t') :
    Faithful t' := by
  obtain ⟨w', stepped, rfl⟩ := Option.map_eq_some_iff.mp traced
  have step := stepCases stepped
  have handled := stepHandled step
  have takes := stepTakes step
  have worker (packet : MediaPacket) (inside : packet ∈ w'.worker.packets) :
      packet ∈ w'.history.taken := by
    rcases takes.worker packet inside with old | new
    · exact takes.known (faithful.worker packet old)
    · exact new
  have items (i : Nat) : (t.lines i).All (· ∈ w'.history.taken) :=
    Line.allMono (fun _ inside => takes.known inside) (faithful.items i)
  have sends (d : Delivery) (old : d ∈ t.sends) :
      d.source ∈ w'.history.taken ∧ stamp d.output = shown d.source :=
    ⟨takes.known (faithful.sends d old).1, (faithful.sends d old).2⟩
  cases handles : handling env t.world w' event with
  | none =>
    rw [handles] at handled
    exact ⟨fun i => (faithful.lines i).trans (handled i).symm, items, worker, sends, faithful.wire⟩
  | some h =>
    rw [handles] at handled
    obtain ⟨seen, left, enough⟩ := handledSeen faithful handled
    have mine (packet : MediaPacket) (here : h.packet = some packet) :
        packet ∈ w'.history.taken :=
      takes.known (faithful.worker packet (handlesWorker handles here).2)
    have line : ((t.lines h.target).after h.packet h.moves).All (· ∈ w'.history.taken) :=
      Line.afterAll (items h.target) mine h.moves
    have lines (i : Nat) : (Function.update t.lines h.target
        (((t.lines h.target).after h.packet h.moves).release h.outputs.length) i).map shown =
          (w'.heap i).heldLine := by
      by_cases here : i = h.target
      · rw [here, Function.update_self, left]
      · rw [Function.update_of_ne here, faithful.lines, handled.2 i here]
    have kept (i : Nat) : (Function.update t.lines h.target
        (((t.lines h.target).after h.packet h.moves).release h.outputs.length) i).All
          (· ∈ w'.history.taken) := by
      by_cases here : i = h.target
      · rw [here, Function.update_self]
        exact Line.releaseAll line _
      · rw [Function.update_of_ne here]
        exact items i
    cases brought : h.packet with
    | none =>
      simp only [Option.map_some, Option.getD_some, Traced.handle, brought]
      simp only [brought] at lines kept
      exact ⟨lines, kept, worker, sends, faithful.wire⟩
    | some packet =>
      obtain ⟨rfl, _⟩ := handlesWorker handles brought
      have brings := bringsCases step handles brought
      obtain ⟨sent, inside, closed, forwarded⟩ := bringsForwards brings
      have more := @deliveriesSent t.world packet _ _ enough _ inside closed
      have sound := @deliveriesSound t.world packet _ _ seen
      simp only [Option.map_some, Option.getD_some, Traced.handle, brought]
      simp only [brought] at lines kept line more sound
      refine ⟨lines, kept, worker, List.forall_mem_append.mpr ⟨sends, fun d new => ?_⟩, ?_⟩
      · exact ⟨line.1 _ (sound d new).1, (sound d new).2⟩
      · rw [forwarded, List.drop_left, List.map_append]
        exact faithful.wire.append more

theorem bringsSources (faithful : Faithful t) {packet : MediaPacket}
    (brings : Brings env t.world packet h w') : (t.world.transport = true → ∀ source ∈
      ((t.lines h.target).after (some packet) h.moves).ready.take h.outputs.length,
        source.senderHost = packet.senderHost) ↔ Homeward env t .worker := by
  cases brings with
  | enters waiting calm =>
    have aligned := faithful.lines t.world.processor
    cases keeps : (t.world.heap t.world.processor).buffers with
    | false =>
      have own := @Processor.passedSource env.host packet.payload _ _ shown _ packet keeps aligned
      refine iff_of_true (fun _ source inside => ?_) (fun _ _ _ _ _ _ => ?_)
      · rw [own source (List.mem_of_mem_take inside)]
      · simp [keeps]
    | true =>
      have sources := @Processor.bufferedSource env.host _ _ _ shown _ packet keeps aligned rfl
      simp only [sources]
      refine ⟨fun home other source _ same _ up _ accepts due => ?_,
        fun home up source due => home packet source rfl waiting calm up keeps due.1 due.2⟩
      rw [waiting] at same
      cases same
      exact home up source ⟨accepts, due⟩
  | interrupted target inside =>
    refine iff_of_true (fun _ source => ?_) (fun _ _ _ waiting => ?_)
    · simp [Processor.interruptSilent]
    · rw [inside] at waiting
      contradiction
  | resumes target inside =>
    refine iff_of_true (fun _ source leaves => ?_) (fun _ _ _ waiting => ?_)
    · rw [Processor.resumedSource packet.payload (faithful.lines target) source leaves]
    · rw [inside] at waiting
      contradiction

theorem stepHomeward (faithful : Faithful t)
    (unset : orElse t.world.settings.returnHost none = none)
    (traced : tracedStep env t event = some t') :
    ∃ new, t'.sends = t.sends ++ new ∧
      ((∀ d ∈ new, d.datagram.host = d.source.senderHost) ↔ Homeward env t event) := by
  obtain ⟨w', stepped, rfl⟩ := Option.map_eq_some_iff.mp traced
  have step := stepCases stepped
  have handled := stepHandled step
  have idle (quiet : ∀ h packet, handling env t.world w' event = some h → h.packet ≠ some packet) :
      (∀ d ∈ ([] : List Delivery), d.datagram.host = d.source.senderHost) ↔ Homeward env t event := by
    refine iff_of_true (by simp) (fun packet source worker waiting calm => ?_)
    subst worker
    obtain ⟨h, handles, mine⟩ := @entersHandled env t.world w' packet waiting calm
    exact absurd mine (quiet h packet handles)
  cases handles : handling env t.world w' event with
  | none =>
    refine ⟨[], (List.append_nil _).symm, idle ?_⟩
    simp [handles]
  | some h =>
    cases brought : h.packet with
    | none =>
      refine ⟨[], ?_, idle ?_⟩
      · simp [Traced.handle, brought]
      · rintro other packet same mine
        rw [handles] at same
        cases same
        rw [brought] at mine
        contradiction
    | some packet =>
      obtain ⟨rfl, _⟩ := handlesWorker handles brought
      rw [handles] at handled
      obtain ⟨seen, _, _⟩ := handledSeen faithful handled
      rw [brought] at seen
      have brings := bringsCases step handles brought
      refine ⟨_, ?_, (deliveriesHome unset seen).trans (bringsSources faithful brings)⟩
      simp only [Option.map_some, Option.getD_some, Traced.handle, brought]

end Faithful

section Runs
variable {env : Environment} {settings : Settings} {w w' : World} {events : List Event}

theorem tracedWorld {t t' : Traced} {event : Event} (traced : tracedStep env t event = some t') :
    step env t.world event = some t'.world := by
  obtain ⟨v, stepped, rfl⟩ := Option.map_eq_some_iff.mp traced
  rw [stepped]
  cases handling env t.world v event with
  | none => rfl
  | some h =>
    simp only [Option.map_some, Option.getD_some, Traced.handle]
    split <;> rfl

/- The packets beside the service never decide what it does. -/
theorem tracedRuns {t : Traced} (ran : run (step env) t.world events = some w') :
    ∃ t', run (tracedStep env) t events = some t' ∧ t'.world = w' := by
  induction events generalizing t with
  | nil => exact ⟨t, rfl, Option.some.inj ran⟩
  | cons event rest ih =>
    obtain ⟨v, stepped, later⟩ := Option.bind_eq_some_iff.mp ran
    obtain ⟨u, traced⟩ : ∃ u, tracedStep env t event = some u :=
      ⟨_, by rw [tracedStep, stepped, Option.map_some]⟩
    have same : u.world = v := Option.some.inj ((tracedWorld traced).symm.trans stepped)
    obtain ⟨t', reached, last⟩ := ih (t := u) (by rw [same, later])
    exact ⟨t', by rw [run, traced, Option.bind_some, reached], last⟩

theorem startedFaithful (start : started settings = .ok w) : Faithful { world := w } := by
  obtain ⟨p, created, rfl⟩ := startedFresh start
  refine ⟨fun i => ?_, fun _ => Line.allEmpty, by simp [fresh, Worker.packets], by simp, ?_⟩
  · by_cases here : i = 0
    · subst here
      simp only [fresh, Function.update_self, Processor.heldNothing (createHeld created)]
      rfl
    · simp only [fresh, Function.update_of_ne here]
      rfl
  · exact List.Sublist.refl _

theorem sendersOwn (start : started settings = .ok w)
    (unset : orElse settings.returnHost none = none) (ran : run (step env) w events = some w') :
    ∃ t, run (tracedStep env) { world := w } events = some t ∧ t.world = w' ∧
      (∀ d ∈ t.sends, d.source ∈ w'.history.taken ∧ d.output.destinationHost = none ∧
        d.output.payload.take headerSize = d.source.payload.take headerSize) ∧
      t.wire.Sublist (t.sends.map (·.datagram)) ∧
      ((∀ d ∈ t.sends, d.datagram.host = d.source.senderHost) ↔
        Along (tracedStep env) (Homeward env) { world := w } events) := by
  obtain ⟨t, traced, rfl⟩ := tracedRuns (t := { world := w }) ran
  have initial : Faithful { world := w } ∧ Returning settings.returnHost w := by
    refine ⟨startedFaithful start, ?_⟩
    obtain ⟨p, _, rfl⟩ := startedFresh start
    exact ⟨rfl, fun _ _ _ _ inside => absurd inside nobodyAt⟩
  have kept (r : Traced) (event : Event) (u : Traced)
      (holds : Faithful r ∧ Returning settings.returnHost r.world)
      (stepped : tracedStep env r event = some u) :
      Faithful u ∧ Returning settings.returnHost u.world :=
    ⟨stepFaithful holds.1 stepped, stepReturning holds.2 (stepCases (tracedWorld stepped))⟩
  have final := runInvariant (fun r => Faithful r ∧ Returning settings.returnHost r.world) initial
    kept traced
  refine ⟨t, traced, rfl, fun d sent => ?_, final.1.wire, ?_⟩
  · obtain ⟨source, stamped⟩ := final.1.sends d sent
    exact ⟨source, congrArg Prod.snd stamped, congrArg Prod.fst stamped⟩
  · refine logAlong (fun r => Faithful r ∧ Returning settings.returnHost r.world) Traced.sends _
      initial rfl kept (fun r event u holds stepped => ?_) traced
    refine stepHomeward holds.1 ?_ stepped
    rw [holds.2.settings, unset]

def frame (sequence : UInt8) : Bytes := SegmentedInference.stereoSilence.set 15 sequence

def crossing : List Event := [.datagram (frame 1) "a" 1, .worker, .worker,
  .inferenceEnds 0 (.returned [0, 0]), .datagram (frame 2) "b" 2, .worker, .worker]

theorem sendersOwnCrossing : ∃ w w', started quickModel = .ok w ∧
    run (step trial) w crossing = some w' ∧
    ∃ t, run (tracedStep trial) { world := w } crossing = some t ∧ t.world = w' ∧
      (∀ d ∈ t.sends, d.source ∈ w'.history.taken ∧ d.output.destinationHost = none ∧
        d.output.payload.take headerSize = d.source.payload.take headerSize) ∧
      t.wire.Sublist (t.sends.map (·.datagram)) ∧
      ((∀ d ∈ t.sends, d.datagram.host = d.source.senderHost) ↔
        Along (tracedStep trial) (Homeward trial) { world := w } crossing) :=
  ⟨_, _, rfl, rfl, @sendersOwn trial quickModel _ _ crossing rfl rfl rfl⟩

theorem sendersCross : quickModel.returnHost = none ∧ ∃ w t, started quickModel = .ok w ∧
    run (tracedStep trial) { world := w } crossing = some t ∧
    t.world.history.taken = [⟨frame 1, "a", 1⟩, ⟨frame 2, "b", 2⟩] ∧
    t.world.traffic.forwarded = [⟨frame 1, "b", 5006⟩] ∧
    ¬ ∀ d ∈ t.sends, d.datagram.host = d.source.senderHost := by
  have seen : ∃ w, started quickModel = .ok w ∧ (run (tracedStep trial) { world := w } crossing).map
      (fun t => (t.world.history.taken, t.world.traffic.forwarded,
        t.sends.map fun d => (d.source.senderHost, d.datagram.host))) =
      some ([⟨frame 1, "a", 1⟩, ⟨frame 2, "b", 2⟩], [⟨frame 1, "b", 5006⟩], [("a", "b")]) :=
    ⟨_, rfl, by decide +kernel⟩
  obtain ⟨w, start, seen⟩ := seen
  obtain ⟨t, ran, same⟩ := Option.map_eq_some_iff.mp seen
  simp only [Prod.mk.injEq] at same
  refine ⟨rfl, w, t, start, ran, same.1, same.2.1, fun home => ?_⟩
  obtain ⟨d, sent, hosts⟩ := List.mem_map.mp (same.2.2 ▸ List.mem_singleton_self ("a", "b"))
  obtain ⟨first, second⟩ := Prod.mk.inj hosts
  exact absurd (first.symm.trans ((home d sent).symm.trans second)) (by decide)

end Runs

end KaraokeAnything.Service
