import KaraokeAnything.Library.Runs
import KaraokeAnything.ServiceSteps

/-! The counters of the service: what they say of the datagrams, the packets and the
outputs, in every run, with its own processors or with any others in their place. -/
namespace KaraokeAnything.Service
open ByteOrder Config Kany Lifecycle Models Processors Python RuntimeSettings Runs
open SegmentedInference (InferenceOutcome)

section Beats

/- A step of the service, or one that a processor of any other kind makes it take: its
`process` call begins, yields an output, returns or raises, or a flush yields outputs. -/
inductive Beat where
  | service (event : Event)
  | enters
  | yields (output : ProcessedPacket)
  | returns
  | raises (error : PyError)
  | flushes (outputs : List ProcessedPacket)

def enters (env : Environment) (w : World) : Option World :=
  match w.worker with
  | .acquiring packet =>
    if w.cancelRequested ∨ w.processorLock then none
    else some (settle env w packet w.processor (.suspended (w.heap w.processor)))
  | _ => none

def yields (env : Environment) (w : World) (output : ProcessedPacket) : Option World :=
  match w.worker with
  | .processing packet target =>
    some { w with traffic := emitOutputs env w target packet.senderHost [output] w.traffic }
  | _ => none

def closes (env : Environment) (w : World) (error : Option PyError) : Option World :=
  match w.worker with
  | .processing packet target =>
    some (settle env w packet target (match error with
      | none => .returned [] (w.heap target)
      | some error => .raised error (w.heap target)))
  | _ => none

def beat (env : Environment) (w : World) : Beat → Option World
  | .service event => step env w event
  | .enters => enters env w
  | .yields output => yields env w output
  | .returns => closes env w none
  | .raises error => closes env w (some error)
  | .flushes outputs =>
    some { w with traffic := flushOutputs env w w.processor outputs w.traffic }

def Beat.datagram : Beat → Option Bytes
  | .service (.datagram data _ _) => some data
  | _ => none

def seen (beats : List Beat) : List Bytes := beats.filterMap Beat.datagram

def oversized (settings : Settings) (beats : List Beat) : Nat :=
  (seen beats).countP (settings.maxPacketSize < ·.length)

def Worker.holds : Worker → Nat
  | .acquiring _ | .processing _ _ => 1
  | _ => 0

end Beats

structure Conserved (w : World) (seen oversized : Nat) : Prop where
  seen : w.traffic.metrics.packetsReceived + oversized = seen
  dropped : oversized ≤ w.traffic.metrics.packetsDropped
  received : w.traffic.metrics.packetsReceived =
    w.traffic.metrics.packetsEnqueued + (w.traffic.metrics.packetsDropped - oversized)
  enqueued : w.traffic.metrics.packetsEnqueued = w.traffic.metrics.packetsProcessed +
    w.traffic.metrics.processorErrors + w.inputQueue.length + w.worker.holds
  emitted : w.traffic.metrics.packetsEmitted =
    w.traffic.metrics.packetsForwarded + w.traffic.metrics.forwardingErrors
  forwarded : w.traffic.metrics.packetsForwarded = w.traffic.forwarded.length
  bytes : w.traffic.metrics.bytesForwarded = (w.traffic.forwarded.map (·.payload.length)).sum
  queue : w.inputQueue.length ≤ w.traffic.metrics.queueHighWatermark
  watermark : (w.traffic.metrics.queueHighWatermark : Int) ≤ w.startupSettings.inputQueueSize

section Traffic

structure Sent (traffic : Traffic) : Prop where
  emitted : traffic.metrics.packetsEmitted =
    traffic.metrics.packetsForwarded + traffic.metrics.forwardingErrors
  forwarded : traffic.metrics.packetsForwarded = traffic.forwarded.length
  bytes : traffic.metrics.bytesForwarded = (traffic.forwarded.map (·.payload.length)).sum

structure Egress (before after : Traffic) : Prop where
  received : after.metrics.packetsReceived = before.metrics.packetsReceived
  enqueued : after.metrics.packetsEnqueued = before.metrics.packetsEnqueued
  dropped : after.metrics.packetsDropped = before.metrics.packetsDropped
  processed : after.metrics.packetsProcessed = before.metrics.packetsProcessed
  errors : after.metrics.processorErrors = before.metrics.processorErrors
  watermark : after.metrics.queueHighWatermark = before.metrics.queueHighWatermark
  sent : Sent before → Sent after

theorem egressSame (traffic : Traffic) : Egress traffic traffic :=
  ⟨rfl, rfl, rfl, rfl, rfl, rfl, id⟩

theorem egressTrans {first second third : Traffic} (front : Egress first second)
    (back : Egress second third) : Egress first third :=
  ⟨back.received.trans front.received, back.enqueued.trans front.enqueued,
    back.dropped.trans front.dropped, back.processed.trans front.processed,
    back.errors.trans front.errors, back.watermark.trans front.watermark,
    fun sent => back.sent (front.sent sent)⟩

variable (env : Environment) (w : World) (target : Nat)

theorem sendEgress (output : ProcessedPacket) (host : String) (traffic : Traffic) :
    Egress traffic (sendOutput env w target output host (countEmitted traffic)) := by
  unfold sendOutput
  simp only
  split
  · refine ⟨rfl, rfl, rfl, rfl, rfl, rfl, fun sent => ⟨?_, sent.forwarded, sent.bytes⟩⟩
    simp only [countEmitted, sent.emitted, Nat.add_assoc]
  · split
    · refine ⟨rfl, rfl, rfl, rfl, rfl, rfl, fun sent => ⟨?_, sent.forwarded, sent.bytes⟩⟩
      simp only [countEmitted, sent.emitted, Nat.add_assoc]
    · refine ⟨rfl, rfl, rfl, rfl, rfl, rfl, fun sent => ⟨?_, ?_, ?_⟩⟩
      · simp only [countEmitted, sent.emitted]
        omega
      · simp only [countEmitted, sent.forwarded, List.length_append, List.length_singleton]
      · simp only [countEmitted, sent.bytes, List.map_append, List.sum_append, List.map_singleton,
          List.sum_singleton]

theorem emitEgress (host : String) (outputs : List ProcessedPacket) (traffic : Traffic) :
    Egress traffic (emitOutputs env w target host outputs traffic) := by
  induction outputs generalizing traffic with
  | nil => exact egressSame traffic
  | cons output rest ih => exact egressTrans (sendEgress env w target output host traffic) (ih _)

/- A flushed output without a destination is discarded before it counts as emitted. -/
theorem flushEgress (outputs : List ProcessedPacket) (traffic : Traffic) :
    Egress traffic (flushOutputs env w target outputs traffic) := by
  induction outputs generalizing traffic with
  | nil => exact egressSame traffic
  | cons output rest ih =>
    rw [flushOutputs, List.foldl_cons]
    refine egressTrans ?_ (ih _)
    split
    · exact egressSame traffic
    · exact sendEgress env w target output _ traffic

end Traffic

section Accounts
variable {env : Environment} {settings : Settings} {beats : List Beat} {w w' : World}

structure Accounts (settings : Settings) (beats : List Beat) (w : World) : Prop where
  limits : w.startupSettings = settings
  sent : Sent w.traffic
  seen : w.traffic.metrics.packetsReceived + oversized settings beats = (seen beats).length
  dropped : oversized settings beats ≤ w.traffic.metrics.packetsDropped
  received : w.traffic.metrics.packetsReceived = w.traffic.metrics.packetsEnqueued +
    (w.traffic.metrics.packetsDropped - oversized settings beats)
  enqueued : w.worker ≠ .finished → w.traffic.metrics.packetsEnqueued =
    w.traffic.metrics.packetsProcessed + w.traffic.metrics.processorErrors +
      w.inputQueue.length + w.worker.holds
  queue : w.inputQueue.length ≤ w.traffic.metrics.queueHighWatermark
  watermark : (w.traffic.metrics.queueHighWatermark : Int) ≤ settings.inputQueueSize

theorem freshAccounts (processor : Processor) (positive : 0 < settings.inputQueueSize) :
    Accounts settings [] (fresh settings processor) where
  limits := rfl
  sent := ⟨rfl, rfl, rfl⟩
  seen := rfl
  dropped := Nat.le_refl 0
  received := rfl
  enqueued _ := rfl
  queue := Nat.le_refl 0
  watermark := Int.le_of_lt positive

theorem asideAccounts (h : Accounts settings beats w)
    (limits : w'.startupSettings = w.startupSettings) (queue : w'.inputQueue = w.inputQueue)
    (worker : w'.worker ≠ .finished → w'.worker = w.worker)
    (egress : Egress w.traffic w'.traffic) : Accounts settings beats w' where
  limits := limits.trans h.limits
  sent := egress.sent h.sent
  seen := by rw [egress.received, h.seen]
  dropped := by rw [egress.dropped]; exact h.dropped
  received := by rw [egress.received, egress.enqueued, egress.dropped, h.received]
  enqueued alive := by
    have same := worker alive
    rw [egress.enqueued, egress.processed, egress.errors, queue, same]
    exact h.enqueued (same ▸ alive)
  queue := by rw [queue, egress.watermark]; exact h.queue
  watermark := by rw [egress.watermark]; exact h.watermark

theorem seenMore (beats : List Beat) (data : Bytes) (host : String) (port : Nat) :
    seen (beats ++ [.service (.datagram data host port)]) = seen beats ++ [data] := by
  rw [seen, List.filterMap_append]
  rfl

theorem oversizedMore (settings : Settings) (beats : List Beat) (data : Bytes) (host : String)
    (port : Nat) : oversized settings (beats ++ [.service (.datagram data host port)]) =
      oversized settings beats + if settings.maxPacketSize < data.length then 1 else 0 := by
  rw [oversized, seenMore, List.countP_append, ← oversized, List.countP_singleton]
  simp only [decide_eq_true_eq]

theorem ingressAccounts (h : Accounts settings beats w) (positive : 0 < settings.inputQueueSize)
    (data : Bytes) (host : String) (port : Nat) :
    Accounts settings (beats ++ [.service (.datagram data host port)])
      (datagramReceived w data host port) := by
  obtain rfl := h.limits
  have count := seenMore beats data host port
  have more := oversizedMore w.startupSettings beats data host port
  have seen := h.seen
  have dropped := h.dropped
  have received := h.received
  have queue := h.queue
  have watermark := h.watermark
  by_cases large : w.startupSettings.maxPacketSize < data.length
  · rw [if_pos large] at more
    have refused : datagramReceived w data host port = { w with traffic := { w.traffic with
        metrics := { w.traffic.metrics with
          packetsDropped := w.traffic.metrics.packetsDropped + 1 } } } := by
      rw [datagramReceived, if_pos large]
    rw [refused]
    exact {
      limits := rfl
      sent := ⟨h.sent.emitted, h.sent.forwarded, h.sent.bytes⟩
      seen := by
        rw [more, count, List.length_append, List.length_singleton, ← seen]
        rfl
      dropped := by
        rw [more]
        exact Nat.succ_le_succ dropped
      received := by
        rw [more]
        simp only
        omega
      enqueued := h.enqueued
      queue := queue
      watermark := watermark }
  · rw [if_neg large, Nat.add_zero] at more
    rw [datagramReceived, if_neg large]
    simp only
    split
    · exact {
        limits := rfl
        sent := ⟨h.sent.emitted, h.sent.forwarded, h.sent.bytes⟩
        seen := by
          rw [more, count, List.length_append, List.length_singleton]
          simp only
          omega
        dropped := by
          rw [more]
          simp only
          omega
        received := by
          rw [more]
          simp only
          omega
        enqueued := h.enqueued
        queue := queue
        watermark := watermark }
    · rename_i room
      exact {
        limits := rfl
        sent := ⟨h.sent.emitted, h.sent.forwarded, h.sent.bytes⟩
        seen := by
          rw [more, count, List.length_append, List.length_singleton]
          simp only
          omega
        dropped := by
          rw [more]
          exact dropped
        received := by
          rw [more]
          simp only
          omega
        enqueued := fun alive => by
          have before := h.enqueued alive
          simp only [List.length_append, List.length_singleton]
          omega
        queue := by
          rw [List.length_append, List.length_singleton]
          exact Nat.le_max_right _ _
        watermark := by
          simp only
          omega }

theorem settleAccounts (h : Accounts settings beats w) (holding : w.worker.holds = 1)
    (packet : MediaPacket) (target : Nat) (progress : Processor.Progress) :
    Accounts settings beats (settle env w packet target progress) := by
  have alive : w.worker ≠ .finished := by
    intro complete
    rw [complete] at holding
    contradiction
  have before := h.enqueued alive
  rw [holding] at before
  cases progress with
  | suspended self => exact { h with enqueued := fun _ => before }
  | returned outputs self =>
    have egress := emitEgress env w target packet.senderHost outputs w.traffic
    have settled : Accounts settings beats { w with
        traffic := emitOutputs env w target packet.senderHost outputs w.traffic } :=
      asideAccounts h rfl rfl (fun _ => rfl) egress
    exact {
      limits := settled.limits
      sent := ⟨settled.sent.emitted, settled.sent.forwarded, settled.sent.bytes⟩
      seen := settled.seen
      dropped := settled.dropped
      received := settled.received
      enqueued := fun _ => by
        have now := settled.enqueued alive
        simp only [settle, countProcessed, Worker.holds]
        simp only [holding] at now
        omega
      queue := settled.queue
      watermark := settled.watermark }
  | raised error self =>
    by_cases cancelled : error = .cancelledError
    · exact {
        limits := h.limits
        sent := by simpa [settle, cancelled] using h.sent
        seen := by simpa [settle, cancelled] using h.seen
        dropped := by simpa [settle, cancelled] using h.dropped
        received := by simpa [settle, cancelled] using h.received
        enqueued := fun up => by simp [settle, cancelled] at up
        queue := by simpa [settle, cancelled] using h.queue
        watermark := by simpa [settle, cancelled] using h.watermark }
    · have counted : (settle env w packet target (.raised error self)).traffic =
          countError w.traffic := if_neg cancelled
      have goes : (settle env w packet target (.raised error self)).worker = .getting :=
        if_neg cancelled
      exact {
        limits := h.limits
        sent := by rw [counted]; exact ⟨h.sent.emitted, h.sent.forwarded, h.sent.bytes⟩
        seen := by rw [counted]; exact h.seen
        dropped := by rw [counted]; exact h.dropped
        received := by rw [counted]; exact h.received
        enqueued := fun _ => by
          rw [counted, goes]
          simp only [settle, countError, Worker.holds]
          omega
        queue := by rw [counted]; exact h.queue
        watermark := by rw [counted]; exact h.watermark }

theorem leaveAside (t : Nat) (job : Job) (target : Nat) :
    (leave w t job target).startupSettings = w.startupSettings ∧
      (leave w t job target).inputQueue = w.inputQueue ∧
      (leave w t job target).worker = w.worker ∧ (leave w t job target).traffic = w.traffic := by
  cases job with
  | reset => exact ⟨rfl, rfl, rfl, rfl⟩
  | shutdown => exact ⟨rfl, rfl, rfl, rfl⟩
  | swap swap replacement => cases swap <;> exact ⟨rfl, rfl, rfl, rfl⟩

theorem stepAccounts (h : Accounts settings beats w) {event : Event}
    (inner : (Beat.service event).datagram = none) (step : Step env w event w') :
    Accounts settings beats w' := by
  have same := egressSame w.traffic
  cases step with
  | ingress data host port opened => contradiction
  | workerCancelled requested outside => exact asideAccounts h rfl rfl (absurd rfl) same
  | workerTakes packet rest idle queue calm =>
    have count := congrArg List.length queue
    rw [List.length_cons] at count
    have before := h.enqueued (by simp [idle])
    have high := h.queue
    rw [idle] at before
    exact { h with
      enqueued := fun _ => by
        simp only [Worker.holds] at before ⊢
        omega
      queue := by
        simp only
        omega }
  | workerEnters packet waiting free calm =>
    have called : Accounts settings beats { w with
        history := w.history.called [⟨w.processor, .process packet, .begins⟩] } :=
      asideAccounts h rfl rfl (fun _ => rfl) same
    exact settleAccounts called (by rw [waiting]; rfl) packet _ _
  | workerInterrupted packet target inside requested =>
    have calmed : Accounts settings beats { w with cancelRequested := false } :=
      asideAccounts h rfl rfl (fun _ => rfl) same
    exact settleAccounts calmed (by rw [inside]; rfl) packet _ _
  | workerResumes packet target inside calm =>
    exact settleAccounts h (by rw [inside]; rfl) packet _ _
  | inference target outcome self ends => exact asideAccounts h rfl rfl (fun _ => rfl) same
  | refused request error swaps => exact asideAccounts h rfl rfl (fun _ => rfl) same
  | appliedLive request updates rule brought known valid found =>
    exact asideAccounts h rfl rfl (fun _ => rfl) same
  | launches request swap replacement brought created =>
    exact asideAccounts h rfl rfl (fun _ => rfl) same
  | asksReset => exact asideAccounts h rfl rfl (fun _ => rfl) same
  | stopIdle down => exact asideAccounts h rfl rfl (fun _ => rfl) same
  | stopJoins up live => exact asideAccounts h rfl rfl (fun _ => rfl) same
  | stopWaits up gone => exact asideAccounts h rfl rfl (fun _ => rfl) same
  | starts t swap r found => exact asideAccounts h rfl rfl (fun _ => rfl) same
  | fails t swap r error found => exact asideAccounts h rfl rfl (fun _ => rfl) same
  | joins t found complete => exact asideAccounts h rfl rfl (fun _ => rfl) same
  | entersReset t found free => exact asideAccounts h rfl rfl (fun _ => rfl) same
  | flushRaises t job found free flushes error self raised =>
    exact asideAccounts h rfl rfl (fun _ => rfl) same
  | entersShutdown t found free outputs self drained =>
    exact asideAccounts h rfl rfl (fun _ => rfl) (flushEgress env w w.processor outputs w.traffic)
  | entersSwap t swap r found free outputs self drained =>
    have egress := flushEgress env w w.processor outputs w.traffic
    cases swap with
    | select name => exact asideAccounts h rfl rfl (fun _ => rfl) egress
    | update snapshot updates => exact asideAccounts h rfl rfl (fun _ => rfl) egress
  | leaves t job target found =>
    obtain ⟨limits, queue, worker, traffic⟩ := leaveAside (w := w) t job target
    exact asideAccounts h limits queue (fun _ => worker) (traffic ▸ same)

theorem beatAccounts (h : Accounts settings beats w) (positive : 0 < settings.inputQueueSize)
    {m : Beat} (moved : beat env w m = some w') : Accounts settings (beats ++ [m]) w' := by
  have quiet (inner : m.datagram = none) (accounts : Accounts settings beats w') :
      Accounts settings (beats ++ [m]) w' := by
    have same : seen (beats ++ [m]) = seen beats := by
      rw [seen, List.filterMap_append, List.filterMap_cons_none inner]
      exact List.append_nil _
    have count : oversized settings (beats ++ [m]) = oversized settings beats := by
      rw [oversized, same, oversized]
    exact { accounts with
      seen := by rw [count, same]; exact accounts.seen
      dropped := by rw [count]; exact accounts.dropped
      received := by rw [count]; exact accounts.received }
  cases m with
  | service event =>
    have step := stepCases moved
    cases event with
    | datagram data host port =>
      cases step
      exact ingressAccounts h positive data host port
    | worker => exact quiet rfl (stepAccounts h rfl step)
    | inferenceEnds target outcome => exact quiet rfl (stepAccounts h rfl step)
    | call request => exact quiet rfl (stepAccounts h rfl step)
    | resume t => exact quiet rfl (stepAccounts h rfl step)
    | startFails t error => exact quiet rfl (stepAccounts h rfl step)
  | enters =>
    refine quiet rfl ?_
    simp only [beat, enters] at moved
    split at moved
    · rename_i packet waiting
      split at moved
      · contradiction
      · cases moved
        exact settleAccounts h (by rw [waiting]; rfl) packet _ _
    · contradiction
  | yields output =>
    refine quiet rfl ?_
    simp only [beat, yields] at moved
    split at moved
    · cases moved
      exact asideAccounts h rfl rfl (fun _ => rfl) (emitEgress env w _ _ _ _)
    · contradiction
  | returns =>
    refine quiet rfl ?_
    simp only [beat, closes] at moved
    split at moved
    · rename_i packet target inside
      cases moved
      exact settleAccounts h (by rw [inside]; rfl) packet _ _
    · contradiction
  | raises error =>
    refine quiet rfl ?_
    simp only [beat, closes] at moved
    split at moved
    · rename_i packet target inside
      cases moved
      exact settleAccounts h (by rw [inside]; rfl) packet _ _
    · contradiction
  | flushes outputs =>
    cases moved
    exact quiet rfl (asideAccounts h rfl rfl (fun _ => rfl) (flushEgress env w _ outputs _))

theorem runAccounts (processor : Processor) (positive : 0 < settings.inputQueueSize)
    (ran : run (beat env) (fresh settings processor) beats = some w) : Accounts settings beats w := by
  induction beats using List.reverseRecOn generalizing w with
  | nil =>
    cases ran
    exact freshAccounts processor positive
  | append_singleton beats m ih =>
    obtain ⟨before, ran, moved⟩ := runSnoc.mp ran
    exact beatAccounts (ih ran) positive moved

end Accounts

theorem metricsConserved (env : Environment) (settings : Settings) (processor : Processor)
    (positive : 0 < settings.inputQueueSize) (beats : List Beat) (w : World)
    (ran : run (beat env) (fresh settings processor) beats = some w)
    (alive : w.worker ≠ .finished) : Conserved w (seen beats).length (oversized settings beats) := by
  have accounts := runAccounts processor positive ran
  exact {
    seen := accounts.seen
    dropped := accounts.dropped
    received := accounts.received
    enqueued := accounts.enqueued alive
    emitted := accounts.sent.emitted
    forwarded := accounts.sent.forwarded
    bytes := accounts.sent.bytes
    queue := accounts.queue
    watermark := by rw [accounts.limits]; exact accounts.watermark }

def failingCall : List Beat :=
  [.service (.datagram [0] "a" 1), .service .worker, .enters, .yields { payload := [0] },
    .raises (.exception "")]

theorem metricsConservedFailing : ∃ w, run (beat ⟨.little, fun _ => true⟩) (fresh {} .null)
    failingCall = some w ∧ Conserved w 1 0 :=
  ⟨_, rfl, metricsConserved ⟨.little, fun _ => true⟩ {} .null (by decide) failingCall _ rfl nofun⟩

end KaraokeAnything.Service
