import KaraokeAnything.Capture
import KaraokeAnything.PlaybackQueue

/-! From the sound card of one client to that of another: what was captured, cut and
sent is played as it was, but for the packets that were lost whole. -/
namespace KaraokeAnything.Capturing
open ByteOrder Outcome Protocol WireFormat
open Playback (ReceiverConfig acceptStep accepts acceptedPatterns acceptedSamples clientRun
  ignoreStep ledgerHolds newestSplit runErases)

section Receiving
variable {target : Target} {config : ReceiverConfig} {prebufferSamples : Nat}

theorem nothingEvicted (target : Target) (prebufferSamples : Nat) {events : List Playback.Event}
    (ample : (Playback.run target config prebufferSamples events).accepted.length ≤
      config.maxSamples) : (Playback.run target config prebufferSamples events).evicted = [] := by
  induction events using List.reverseRecOn with
  | nil => rfl
  | append_singleton events event ih =>
    have ledger := ledgerHolds target config prebufferSamples events
    rw [Playback.run, List.foldl_append, ← Playback.run, List.foldl_cons, List.foldl_nil] at ample ⊢
    generalize Playback.run target config prebufferSamples events = w at ih ample ledger
    cases event with
    | callback length => exact ih ample
    | datagram data =>
      cases taken : accepts target config data with
      | none =>
        rw [ignoreStep taken] at ample ⊢
        exact ih ample
      | some packet =>
        obtain ⟨_, _, _, _, _, accepted, evicted⟩ := acceptStep prebufferSamples taken ledger.alive
        have queued := ledger.ordered.length_le
        rw [accepted, List.length_append] at ample
        rw [List.length_append] at queued
        rw [evicted, ih (by omega), List.nil_append]
        refine List.take_eq_nil_iff.mpr (.inl (Nat.sub_eq_zero_of_le ?_))
        rw [List.length_append]
        omega

theorem amplePlayback (target : Target) (config : ReceiverConfig) (prebufferSamples : Nat)
    (events : List Playback.Event)
    (ample : (acceptedSamples target config events).length ≤ config.maxSamples) :
    let client := clientRun target config prebufferSamples events
    client.written.flatten.filterMap id ++ client.receiver.queue.samples =
      acceptedSamples target config events := by
  have ledger := ledgerHolds target config prebufferSamples events
  have patterns := acceptedPatterns target config prebufferSamples events
  rw [← patterns, List.length_map] at ample
  have kept := ledger.placed.length_eq
  rw [nothingEvicted target prebufferSamples ample, List.append_nil] at kept
  have all := ledger.ordered.eq_of_length kept
  simp only
  rw [← runErases, ← patterns, ← all, List.map_append]
  simp only [Playback.Client.map, Playback.Receiver.map, Playback.Queue.map, Playback.World.played,
    Playback.World.queue, ← List.map_flatten, List.filterMap_map, List.map_filterMap]
  rfl

end Receiving

section Sending
variable {target : Target} {config : SenderConfig} {passes : List Pass}

theorem sentAccepted {sender : Sender} (sends : Sends config passes sender) {entry : Sent}
    (inside : entry ∈ sender.sent) (target : Target) (maxSamples : Nat) :
    accepts target ⟨config.format, maxSamples⟩ entry.datagram = some entry.packet := by
  obtain ⟨encodable, same, channels, rate⟩ := sends.encoded entry inside
  have decoded := (decodeValue target).mpr
    ⟨datagramWellFormed encodable, (packetAtDatagram encodable).symm⟩
  rw [accepts, same, decoded]
  exact if_pos ⟨channels, rate⟩

def arriving : Playback.Event → Option Bytes
  | .datagram data => some data
  | .callback _ => none

theorem acceptedArrivals {sender : Sender} (sends : Sends config passes sender) (target : Target)
    (maxSamples : Nat) {delivered : List Sent} (inside : delivered ⊆ sender.sent)
    {events : List Playback.Event} (arrive : events.filterMap arriving = delivered.map (·.datagram)) :
    acceptedSamples target ⟨config.format, maxSamples⟩ events =
      delivered.flatMap (·.packet.samples) := by
  induction events generalizing delivered with
  | nil =>
    rw [List.map_eq_nil_iff.mp arrive.symm]
    rfl
  | cons event rest ih =>
    cases event with
    | callback length => exact ih inside arrive
    | datagram data =>
      simp only [List.filterMap_cons, arriving] at arrive
      obtain ⟨entry, later, rfl, rfl, others⟩ := List.map_eq_cons_iff.mp arrive.symm
      have more := ih (fun _ within => inside (List.mem_cons_of_mem _ within)) others.symm
      have accepted := sentAccepted sends (inside List.mem_cons_self) target maxSamples
      rw [acceptedSamples] at more ⊢
      rw [List.flatMap_cons, List.flatMap_cons, more]
      simp only [accepted, Option.map_some, Option.getD_some]

end Sending

section Pipeline

theorem captureToPlayback (target : Target) (trySend : Nat → Bool) (config : SenderConfig)
    (audible : 1 ≤ config.format.channels.toNat) (narrow : config.format.channels.toNat ≤ 255)
    (whole : 1 ≤ config.framesPerPacket.toNat) (buffers : List (List UInt32)) :
    let samplesPerPacket := config.framesPerPacket.toNat * config.format.channels.toNat
    let captured := capture trySend samplesPerPacket buffers
    captured.packets.flatten ++ captured.pending = buffers.flatten ∧
    (∀ packet ∈ captured.packets, packet.length = samplesPerPacket) ∧
    captured.pending.length < samplesPerPacket ∧
    (∀ samples ∈ captured.packets, ∀ sequence timestampUs, ∃ bytes,
      encodePacket target (config.packet samples sequence timestampUs) = value bytes) ∧
    ∀ passes : List Pass, passes.flatMap Pass.received <+: captured.channel →
      let sender := senderLoop target config passes
      (sender.sent.map (·.packet.samples)).Sublist captured.packets ∧
      ∀ delivered : List Sent, delivered.Sublist sender.sent →
      ∀ (maxSamples prebufferSamples : Nat) (events : List Playback.Event),
        events.filterMap arriving = delivered.map (·.datagram) →
        (delivered.flatMap (·.packet.samples)).length ≤ maxSamples →
        let client := clientRun target ⟨config.format, maxSamples⟩ prebufferSamples events
        client.written.flatten.filterMap id ++ client.receiver.queue.samples =
          delivered.flatMap (·.packet.samples) := by
  have positive := Nat.mul_pos whole audible
  obtain ⟨cuts, short⟩ := captureCuts trySend positive buffers
  refine ⟨cuts.order, cuts.sizes, short, fun samples inside sequence timestampUs => ?_,
    fun passes received => ?_⟩
  · have size := cuts.sizes samples inside
    exact ⟨_, (encodeValue target).mpr ⟨⟨audible, narrow, whole, size⟩, rfl⟩⟩
  · have sends := senderSends target config passes
    refine ⟨?_, fun delivered within maxSamples prebufferSamples events arrive ample => ?_⟩
    · exact ((sends.received.trans received).sublist).trans cuts.channel
    · have all := acceptedArrivals sends target maxSamples within.subset arrive
      rw [← all] at ample ⊢
      exact amplePlayback target ⟨config.format, maxSamples⟩ prebufferSamples events ample

def stereo : SenderConfig := ⟨"127.0.0.1:5004", ⟨2, 48000⟩, 2⟩

def stereoPasses : List Pass := [.timeout, .packet [5, 6, 7, 8] 9 true]

theorem captureToPlaybackStereo :
    let captured := capture (· == 1) 4 [[1, 2, 3], [4, 5, 6, 7, 8, 9]]
    let sent := (senderLoop .bits64 stereo stereoPasses).sent
    let client := clientRun .bits64 ⟨stereo.format, 4⟩ 4
      (sent.map (fun entry => .datagram entry.datagram) ++ [.callback 3])
    captured.packets = [[1, 2, 3, 4], [5, 6, 7, 8]] ∧ captured.pending = [9] ∧
    sent.map (·.packet.samples) = [[5, 6, 7, 8]] ∧
    client.written.flatten.filterMap id ++ client.receiver.queue.samples = [5, 6, 7, 8] := by
  have path := captureToPlayback .bits64 (· == 1) stereo (by decide) (by decide) (by decide)
    [[1, 2, 3], [4, 5, 6, 7, 8, 9]]
  refine ⟨rfl, rfl, rfl, ?_⟩
  exact (path.2.2.2.2 stereoPasses (by decide)).2 _ (List.Sublist.refl _) 4 4 _ rfl (by decide)

end Pipeline

end KaraokeAnything.Capturing
