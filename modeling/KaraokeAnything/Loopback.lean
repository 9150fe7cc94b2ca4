import KaraokeAnything.CaptureDelivery
import KaraokeAnything.ServiceGrowth
import KaraokeAnything.ServiceRelay

/-! The whole way of the sound: a client captures and sends, the server processes and sends
back, and the client plays. Both networks may lose datagrams, and the server runs any
processors under any control calls. -/
namespace KaraokeAnything.Loopback
open ByteOrder Capturing Outcome Service WireFormat
open Config (Settings)
open Kany (headerSize)
open List (Forall₂)
open Models (MediaPacket)
open Playback (ReceiverConfig accepts acceptedSamples clientRun)
open Protocol (Target datagramWellFormed decodePacket decodeValue packetAt packetAtDatagram)
open Relay Runs

section Fields
variable {d e : Bytes}

theorem sameByte (same : d.take headerSize = e.take headerSize) {i : Nat} (inside : i < 28) :
    byteAt d i = byteAt e i := by
  have bytes := congrArg (·[i]?) same
  simp only [headerSize, List.getElem?_take, inside, if_true] at bytes
  simp only [byteAt, List.getD_eq_getElem?_getD, bytes]

theorem sameWord (same : d.take headerSize = e.take headerSize) {first width : Nat}
    (inside : first + width ≤ 28) : wordAt d first width = wordAt e first width := by
  have words := congrArg (fun bytes => (bytes.drop first).take width) same
  simp only [headerSize, List.drop_take, List.take_take, Nat.min_eq_left (show width ≤ 28 - first by omega)]
    at words
  rw [wordAt, wordAt, words]

end Fields

section Replies
variable {target : Target} {config : SenderConfig} {passes : List Pass} {maxSamples : Nat}

/- What comes back for a packet, which may have been answered by any processor: where the
client takes it, it stands for the same frames. -/
structure Replies (target : Target) (config : ReceiverConfig) (back : Bytes) (entry : Sent) : Prop where
  header : back.take headerSize = entry.datagram.take headerSize
  fields : ∀ packet, accepts target config back = some packet →
    packet.sequence = entry.packet.sequence ∧ packet.timestampUs = entry.packet.timestampUs ∧
    packet.frames = entry.packet.frames ∧ packet.samples.length = entry.packet.samples.length

theorem headerReplies {sender : Sender} (sends : Sends config passes sender)
    {entry : Sent} (inside : entry ∈ sender.sent) {back : Bytes}
    (header : back.take headerSize = entry.datagram.take headerSize) :
    Replies target ⟨config.format, maxSamples⟩ back entry := by
  refine ⟨header, fun packet taken => ?_⟩
  obtain ⟨encodable, same, _, _⟩ := sends.encoded entry inside
  have sent := packetAtDatagram encodable
  rw [← same] at sent
  obtain ⟨formed, rfl⟩ : WellFormed back ∧ packet = packetAt back := by
    unfold accepts at taken
    cases decoded : decodePacket target back with
    | aborted => simp [decoded] at taken
    | error message => simp [decoded] at taken
    | value other =>
      simp only [decoded] at taken
      split at taken
      · cases Option.some.inj taken
        exact (decodeValue target).mp decoded
      · contradiction
  have count : frames back = frames entry.datagram := sameWord header (by omega)
  have width : channels back = channels entry.datagram := congrArg UInt8.toNat (sameByte header (by omega))
  have order : sequence back = sequence entry.datagram := sameWord header (by omega)
  have time : timestampUs back = timestampUs entry.datagram := sameWord header (by omega)
  rw [← sent]
  refine ⟨congrArg UInt32.ofNat order, congrArg UInt64.ofNat time, congrArg UInt16.ofNat count, ?_⟩
  have whole : WellFormed entry.datagram := by
    rw [same]
    exact datagramWellFormed encodable
  simp only [packetAt, List.length_map]
  rw [samplesCount formed, samplesCount whole, count, width]

theorem repliesBounded {playback : List Playback.Event} {answered : List Sent}
    (replies : Forall₂ (Replies target ⟨config.format, maxSamples⟩)
      (playback.filterMap arriving) answered) :
    (acceptedSamples target ⟨config.format, maxSamples⟩ playback).length ≤
      (answered.flatMap (·.packet.samples)).length := by
  induction playback generalizing answered with
  | nil => exact Nat.zero_le _
  | cons event rest ih =>
    cases event with
    | callback length => exact ih replies
    | datagram data =>
      simp only [List.filterMap_cons, arriving] at replies
      obtain ⟨entry, others, reply, more, rfl⟩ := List.forall₂_cons_left_iff.mp replies
      have later := ih more
      rw [acceptedSamples] at later ⊢
      rw [List.flatMap_cons, List.flatMap_cons, List.length_append, List.length_append]
      refine Nat.add_le_add ?_ later
      cases taken : accepts target ⟨config.format, maxSamples⟩ data with
      | none => simp [taken]
      | some packet => simpa [taken] using Nat.le_of_eq (reply.fields packet taken).2.2.2

theorem answersHeader {handed : Handed} {source : MediaPacket} (answers : handed.Answers source) :
    handed.output.payload.take headerSize = source.payload.take headerSize := by
  unfold Handed.Answers at answers
  split at answers
  · rw [answers]
  · exact answers

theorem answersReplies {sender : Sender} (sends : Sends config passes sender)
    {handed : List Handed} {sources : List MediaPacket} (answers : Forall₂ Handed.Answers handed sources)
    {answered : List Sent} (inside : answered ⊆ sender.sent)
    (payloads : sources.map (·.payload) = answered.map (·.datagram)) :
    Forall₂ (Replies target ⟨config.format, maxSamples⟩) (handed.map (·.output.payload)) answered := by
  have headers : Forall₂ (fun (h : Handed) (datagram : Bytes) =>
      h.output.payload.take headerSize = datagram.take headerSize)
      handed (sources.map (·.payload)) := by
    rw [List.forall₂_map_right_iff]
    exact answers.imp fun _ _ => answersHeader
  rw [payloads, List.forall₂_map_right_iff] at headers
  rw [List.forall₂_map_left_iff]
  obtain ⟨lengths, pairs⟩ := List.forall₂_iff_zip.mp headers
  refine List.forall₂_iff_zip.mpr ⟨lengths, fun pair => ?_⟩
  exact headerReplies sends (inside (List.of_mem_zip pair).2) (pairs pair)

end Replies

section Way
variable {env : Environment} {settings : Settings} {w w' : World} {events : List Service.Event}

theorem forwardedAnswers (start : started settings = .ok w) (ran : run (step env) w events = some w')
    {returned : List Bytes} (downstream : returned.Sublist (w'.traffic.forwarded.map (·.payload))) :
    ∃ handed sources, handed.Sublist w'.traffic.handed ∧ returned = handed.map (·.output.payload) ∧
      sources.Sublist (arrivals events) ∧ Forall₂ Handed.Answers handed sources := by
  obtain ⟨sources, within, related⟩ := relayedAnswers (runOrderly start ran).relayed
  have grown := runGrows ran
  obtain ⟨p, _, rfl⟩ := startedFresh start
  obtain ⟨logged, forwarded, hands, sends, fewer⟩ := grown.traffic.logs
  obtain ⟨more, arrived, enqueued⟩ := grown.enqueued
  have handed : w'.traffic.handed = logged := hands
  have sent : w'.traffic.forwarded = forwarded := sends
  have queued : w'.history.enqueued = more := enqueued
  rw [sent] at downstream
  obtain ⟨left, kept, rfl⟩ := List.sublist_map_iff.mp (downstream.trans fewer)
  rw [← handed] at kept
  obtain ⟨answered, answers, drawn⟩ := List.sublistForall₂_iff.mp (drawsFewer kept related)
  exact ⟨left, answered, kept, rfl, drawn.trans (within.trans (queued ▸ arrived)), answers⟩

theorem loopback (target : Target) (config : SenderConfig) (passes : List Pass)
    (start : started settings = .ok w) (ran : run (step env) w events = some w')
    (upstream : ((arrivals events).map (·.payload)).Sublist
      ((senderLoop target config passes).sent.map (·.datagram)))
    {returned : List Bytes} (downstream : returned.Sublist (w'.traffic.forwarded.map (·.payload)))
    (maxSamples prebufferSamples : Nat) {playback : List Playback.Event}
    (arrive : playback.filterMap arriving = returned) :
    let accepted := acceptedSamples target ⟨config.format, maxSamples⟩ playback
    let client := clientRun target ⟨config.format, maxSamples⟩ prebufferSamples playback
    let heard := client.written.flatten.filterMap id ++ client.receiver.queue.samples
    ∃ answered : List Sent, answered.Sublist (senderLoop target config passes).sent ∧
      Forall₂ (Replies target ⟨config.format, maxSamples⟩) returned answered ∧
      accepted.length ≤ (answered.flatMap (·.packet.samples)).length ∧
      ((∀ handed ∈ w'.traffic.handed,
          handed.name = "passthrough" ∨ handed.name = "delay-passthrough") →
        returned = answered.map (·.datagram) ∧
        ((answered.flatMap (·.packet.samples)).length ≤ maxSamples →
          heard = answered.flatMap (·.packet.samples))) := by
  have sends := senderSends target config passes
  obtain ⟨handed, sources, within, rfl, arrived, answers⟩ := forwardedAnswers start ran downstream
  obtain ⟨answered, inside, payloads⟩ := List.sublist_map_iff.mp ((arrived.map _).trans upstream)
  have replies := @answersReplies target config passes maxSamples _ sends _ _ answers _
    inside.subset payloads
  refine ⟨answered, inside, replies, repliesBounded (arrive ▸ replies), fun unchanged => ?_⟩
  have same : handed.map (·.output.payload) = answered.map (·.datagram) := by
    rw [← payloads]
    refine List.forall₂_eq_eq_eq ▸ ?_
    rw [List.forall₂_map_left_iff, List.forall₂_map_right_iff]
    obtain ⟨lengths, pairs⟩ := List.forall₂_iff_zip.mp answers
    refine List.forall₂_iff_zip.mpr ⟨lengths, fun pair => ?_⟩
    have answer := pairs pair
    rwa [Handed.Answers, if_pos (unchanged _ (within.subset (List.of_mem_zip pair).1))] at answer
  refine ⟨same, fun ample => ?_⟩
  have all := acceptedArrivals sends target maxSamples inside.subset (arrive.trans same)
  rw [← all] at ample ⊢
  exact amplePlayback target ⟨config.format, maxSamples⟩ prebufferSamples playback ample

def echoes : List Pass := [.packet [1, 2, 3, 4] 9 true, .packet [5, 6, 7, 8] 10 true]

def echoed : List Sent := (senderLoop .bits64 stereo echoes).sent

def echoing : List Service.Event :=
  echoed.map (fun entry => .datagram entry.datagram "10.0.0.2" 40000) ++ List.replicate 4 .worker

def echoPlayback : List Playback.Event :=
  (echoed.drop 1).map (fun entry => .datagram entry.datagram) ++ [.callback 3]

theorem loopbackLossy :
    let client := clientRun .bits64 ⟨stereo.format, 4⟩ 4 echoPlayback
    client.written.flatten.filterMap id ++ client.receiver.queue.samples = [5, 6, 7, 8] := by
  have second : ∀ entry ∈ echoed, [entry.datagram] = (echoed.drop 1).map (·.datagram) →
      entry.packet.samples = [5, 6, 7, 8] := by decide
  obtain ⟨answered, inside, _, _, unchanged⟩ := @loopback trial {} _ _ echoing .bits64 stereo echoes
    rfl rfl (List.Sublist.refl _) ((echoed.drop 1).map (·.datagram)) (List.sublist_cons_self _ _) 4 4
    echoPlayback rfl
  obtain ⟨same, heard⟩ := unchanged (by decide)
  obtain ⟨entry, _, rfl, last, nothing⟩ := List.map_eq_cons_iff.mp same.symm
  rw [List.map_eq_nil_iff.mp nothing] at inside heard
  rw [List.flatMap_singleton, second entry (inside.subset List.mem_cons_self) (congrArg ([·]) last)] at heard
  exact heard (by decide)

end Way

end KaraokeAnything.Loopback
