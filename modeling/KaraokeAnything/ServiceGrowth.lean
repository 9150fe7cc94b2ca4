import KaraokeAnything.ServiceSteps
import KaraokeAnything.Library.Runs

/-! What one step of the service adds to its counters and logs: nothing that was counted,
handed over or sent is taken back. -/
namespace KaraokeAnything.Service
open ByteOrder Config Kany Models Processors Runs

section Growing

structure Counted (before after : Metrics) : Prop where
  packetsReceived : before.packetsReceived ≤ after.packetsReceived
  packetsEnqueued : before.packetsEnqueued ≤ after.packetsEnqueued
  packetsDropped : before.packetsDropped ≤ after.packetsDropped
  packetsProcessed : before.packetsProcessed ≤ after.packetsProcessed
  packetsEmitted : before.packetsEmitted ≤ after.packetsEmitted
  packetsForwarded : before.packetsForwarded ≤ after.packetsForwarded
  bytesReceived : before.bytesReceived ≤ after.bytesReceived
  bytesForwarded : before.bytesForwarded ≤ after.bytesForwarded
  processorErrors : before.processorErrors ≤ after.processorErrors
  forwardingErrors : before.forwardingErrors ≤ after.forwardingErrors
  queueHighWatermark : before.queueHighWatermark ≤ after.queueHighWatermark

theorem countedSame (m : Metrics) : Counted m m := by constructor <;> exact Nat.le_refl _

theorem countedTrans {first second third : Metrics} (front : Counted first second)
    (back : Counted second third) : Counted first third where
  packetsReceived := front.packetsReceived.trans back.packetsReceived
  packetsEnqueued := front.packetsEnqueued.trans back.packetsEnqueued
  packetsDropped := front.packetsDropped.trans back.packetsDropped
  packetsProcessed := front.packetsProcessed.trans back.packetsProcessed
  packetsEmitted := front.packetsEmitted.trans back.packetsEmitted
  packetsForwarded := front.packetsForwarded.trans back.packetsForwarded
  bytesReceived := front.bytesReceived.trans back.bytesReceived
  bytesForwarded := front.bytesForwarded.trans back.bytesForwarded
  processorErrors := front.processorErrors.trans back.processorErrors
  forwardingErrors := front.forwardingErrors.trans back.forwardingErrors
  queueHighWatermark := front.queueHighWatermark.trans back.queueHighWatermark

structure Grows (before after : Traffic) : Prop where
  counted : Counted before.metrics after.metrics
  logs : ∃ handed forwarded, after.handed = before.handed ++ handed ∧
    after.forwarded = before.forwarded ++ forwarded ∧
    (forwarded.map (·.payload)).Sublist (handed.map (·.output.payload))

theorem growsCounted {before after : Traffic} (counted : Counted before.metrics after.metrics)
    (handed : after.handed = before.handed) (forwarded : after.forwarded = before.forwarded) :
    Grows before after :=
  ⟨counted, [], [], by rw [handed, List.append_nil], by rw [forwarded, List.append_nil],
    List.Sublist.refl _⟩

theorem growsSame (traffic : Traffic) : Grows traffic traffic :=
  growsCounted (countedSame _) rfl rfl

theorem growsTrans {first second third : Traffic} (front : Grows first second)
    (back : Grows second third) : Grows first third := by
  obtain ⟨handed, forwarded, hands, sends, within⟩ := front.logs
  obtain ⟨handed', forwarded', hands', sends', within'⟩ := back.logs
  refine ⟨countedTrans front.counted back.counted, handed ++ handed', forwarded ++ forwarded', ?_, ?_, ?_⟩
  · rw [hands', hands, List.append_assoc]
  · rw [sends', sends, List.append_assoc]
  · rw [List.map_append, List.map_append]
    exact within.append within'

variable (env : Environment) (w : World) (target : Nat)

theorem emittedGrows (traffic : Traffic) : Grows traffic (countEmitted traffic) :=
  growsCounted { countedSame traffic.metrics with packetsEmitted := Nat.le_succ _ } rfl rfl

theorem sendGrows (output : ProcessedPacket) (host : String) (traffic : Traffic) :
    Grows traffic (sendOutput env w target output host traffic) := by
  unfold sendOutput
  simp only
  split
  · exact ⟨{ countedSame traffic.metrics with forwardingErrors := Nat.le_succ _ }, [_], [], rfl,
      (List.append_nil _).symm, List.nil_sublist _⟩
  · split
    · exact ⟨{ countedSame traffic.metrics with forwardingErrors := Nat.le_succ _ }, [_], [], rfl,
        (List.append_nil _).symm, List.nil_sublist _⟩
    · exact ⟨{ countedSame traffic.metrics with
        packetsForwarded := Nat.le_succ _
        bytesForwarded := Nat.le_add_right _ _ }, [_], [_], rfl, rfl, List.Sublist.refl _⟩

theorem emitGrows (host : String) (outputs : List ProcessedPacket) (traffic : Traffic) :
    Grows traffic (emitOutputs env w target host outputs traffic) := by
  induction outputs generalizing traffic with
  | nil => exact growsSame traffic
  | cons output rest ih =>
    exact growsTrans (growsTrans (emittedGrows traffic) (sendGrows env w target output host _)) (ih _)

theorem flushGrows (outputs : List ProcessedPacket) (traffic : Traffic) :
    Grows traffic (flushOutputs env w target outputs traffic) := by
  induction outputs generalizing traffic with
  | nil => exact growsSame traffic
  | cons output rest ih =>
    rw [flushOutputs, List.foldl_cons]
    refine growsTrans ?_ (ih _)
    split
    · exact growsSame traffic
    · exact growsTrans (emittedGrows traffic) (sendGrows env w target output _ _)

end Growing

section Steps
variable {env : Environment} {w w' : World}

theorem settleGrows (packet : MediaPacket) (target : Nat) (progress : Processor.Progress) :
    Grows w.traffic (settle env w packet target progress).traffic := by
  cases progress with
  | suspended self => exact growsSame _
  | returned outputs self =>
    exact growsTrans (emitGrows env w target packet.senderHost outputs w.traffic)
      (growsCounted { countedSame _ with packetsProcessed := Nat.le_succ _ } rfl rfl)
  | raised error self =>
    simp only [settle]
    split
    · exact growsSame _
    · exact growsCounted { countedSame w.traffic.metrics with processorErrors := Nat.le_succ _ } rfl rfl

def Event.packet : Event → List MediaPacket
  | .datagram data host port => [⟨data, host, port⟩]
  | _ => []

structure Growth (w : World) (event : Event) (w' : World) : Prop where
  traffic : Grows w.traffic w'.traffic
  enqueued : ∃ more, more.Sublist event.packet ∧
    w'.history.enqueued = w.history.enqueued ++ more

theorem growthSame {event : Event} (traffic : Grows w.traffic w'.traffic)
    (enqueued : w'.history.enqueued = w.history.enqueued) : Growth w event w' :=
  ⟨traffic, [], List.nil_sublist _, by rw [enqueued, List.append_nil]⟩

theorem settleGrowth {u : World} {event : Event} (traffic : u.traffic = w.traffic)
    (enqueued : u.history.enqueued = w.history.enqueued) (packet : MediaPacket) (target : Nat)
    (progress : Processor.Progress) : Growth w event (settle env u packet target progress) := by
  refine growthSame (traffic ▸ settleGrows packet target progress) ?_
  rw [← enqueued]
  cases progress <;> rfl

theorem datagramGrowth (w : World) (data : Bytes) (host : String) (port : Nat) :
    Growth w (.datagram data host port) (datagramReceived w data host port) := by
  unfold datagramReceived
  simp only
  split
  · exact growthSame (growsCounted { countedSame w.traffic.metrics with
      packetsDropped := Nat.le_succ _ } rfl rfl) rfl
  · split
    · exact growthSame (growsCounted { countedSame w.traffic.metrics with
        packetsReceived := Nat.le_succ _
        bytesReceived := Nat.le_add_right _ _
        packetsDropped := Nat.le_succ _ } rfl rfl) rfl
    · exact ⟨growsCounted { countedSame w.traffic.metrics with
        packetsReceived := Nat.le_succ _
        bytesReceived := Nat.le_add_right _ _
        packetsEnqueued := Nat.le_succ _
        queueHighWatermark := Nat.le_max_left _ _ } rfl rfl, _, List.Sublist.refl _, rfl⟩

theorem leaveGrowth (t : Nat) (job : Job) (target : Nat) {event : Event} :
    Growth w event (leave w t job target) := by
  cases job with
  | reset | shutdown => exact growthSame (growsSame _) rfl
  | swap swap r => cases swap <;> exact growthSame (growsSame _) rfl

theorem stepGrowth {event : Event} (step : Step env w event w') : Growth w event w' := by
  cases step with
  | ingress data host port opened => exact datagramGrowth w data host port
  | workerEnters packet waiting free calm =>
    refine settleGrowth ?_ ?_ packet _ _ <;> rfl
  | workerInterrupted packet target inside requested =>
    refine settleGrowth ?_ ?_ packet _ _ <;> rfl
  | workerResumes packet target inside calm =>
    refine settleGrowth ?_ ?_ packet _ _ <;> rfl
  | entersShutdown t found free outputs self drained =>
    exact growthSame (flushGrows env w w.processor outputs w.traffic) rfl
  | entersSwap t swap r found free outputs self drained =>
    refine growthSame ?_ (by rw [installHistory]; rfl)
    rw [installTraffic]
    exact flushGrows env w w.processor outputs w.traffic
  | leaves t job target found => exact leaveGrowth t job target
  | workerCancelled | workerTakes | inference | refused | appliedLive | launches | asksReset
  | stopIdle | stopJoins | stopWaits | starts | fails | joins | entersReset | flushRaises =>
    exact growthSame (growsSame _) rfl

end Steps

section Run
variable {env : Environment} {w w' : World} {events : List Event}

def arrivals (events : List Event) : List MediaPacket := events.flatMap Event.packet

structure Grown (w : World) (events : List Event) (w' : World) : Prop where
  traffic : Grows w.traffic w'.traffic
  enqueued : ∃ more, more.Sublist (arrivals events) ∧
    w'.history.enqueued = w.history.enqueued ++ more

theorem runGrows (ran : run (step env) w events = some w') : Grown w events w' := by
  induction events generalizing w with
  | nil =>
    cases ran
    exact ⟨growsSame _, [], List.Sublist.refl _, (List.append_nil _).symm⟩
  | cons event rest ih =>
    obtain ⟨u, stepped, later⟩ := Option.bind_eq_some_iff.mp ran
    have first := stepGrowth (stepCases stepped)
    have others := ih later
    obtain ⟨more, within, enqueued⟩ := first.enqueued
    obtain ⟨more', within', enqueued'⟩ := others.enqueued
    refine ⟨growsTrans first.traffic others.traffic, more ++ more', ?_, ?_⟩
    · exact within.append within'
    · rw [enqueued', enqueued, List.append_assoc]

end Run

end KaraokeAnything.Service
