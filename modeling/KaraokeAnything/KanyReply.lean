import KaraokeAnything.PlaybackQueue
import KaraokeAnything.SegmentedSteps

/-! The server's answer to a packet, from its samples to the client's queue. -/
namespace KaraokeAnything.Kany
open ByteOrder WireFormat
open Playback (Receiver ReceiverConfig accepts handleAccepts handleDatagram newest)
open Protocol (Target decodePacket decodeValue packetAt)
open SegmentedInference (encodeSamplesOk itemBytes samplesRead)

theorem encodeSamplesIff {host : HostOrder} {packet : KanyPacket} {samples : List UInt32}
    {reply : Bytes} : encodeSamples host packet samples = .ok reply ↔
      samples.length = packet.channels * packet.frames ∧
        reply = packet.rawHeader ++ itemBytes samples := by
  by_cases count : samples.length = packet.channels * packet.frames
  · rw [encodeSamplesOk count, Except.ok.injEq]
    exact ⟨fun same => ⟨count, same.symm⟩, fun same => same.2.symm⟩
  · rw [encodeSamples, if_pos count]
    exact ⟨fun refused => by contradiction, fun fits => absurd fits.1 count⟩

theorem itemBytesLength (items : List UInt32) : (itemBytes items).length = items.length * 4 := by
  simp [itemBytes, List.length_flatMap]

theorem payloadItems {d : Bytes} (good : WellFormed d) :
    itemBytes ((samples d).map UInt32.ofNat) = d.drop 28 := by
  rw [itemBytes, List.flatMap_map, ← samplesEncoded good]
  refine List.flatMap_congr (fun sample inside => ?_)
  rw [UInt32.toNat_ofNat_of_lt' (samplesBound sample inside)]

theorem replyDecoded {host : HostOrder} {d reply : Bytes} {p : KanyPacket} {s : List UInt32}
    (target : Target) (decoded : decode host d = .ok p)
    (encoded : encodeSamples host p s = .ok reply) : ∃ q, decodePacket target reply = .value q ∧
      q.channels.toNat = channels d ∧ q.sampleRate.toNat = sampleRate d ∧
      q.sequence.toNat = sequence d ∧ q.timestampUs.toNat = timestampUs d ∧
      q.frames.toNat = frames d ∧ q.samples = s := by
  obtain ⟨good, width, _, _, _, count, header, _⟩ := decodeFields decoded
  obtain ⟨total, same⟩ := encodeSamplesIff.mp encoded
  rw [header] at same
  have long := wellFormedLong good
  have size : (itemBytes s).length = frames d * channels d * 4 := by
    rw [itemBytesLength, total, width, count, Nat.mul_comm (channels d)]
  obtain ⟨fits, c, r, q, t, n⟩ := payloadFields long good size
  rw [withPayload, ← same] at fits c r q t n
  refine ⟨packetAt reply, (decodeValue target).mpr ⟨fits, rfl⟩, ?_, ?_, ?_, ?_, ?_, ?_⟩
  · rw [Protocol.packetChannels, c]
  · rw [Protocol.packetSampleRate, r]
  · rw [Protocol.packetSequence, q]
  · rw [Protocol.packetTimestampUs, t]
  · rw [Protocol.packetFrames, n]
  · have items := samplesRead host (d.take 28) s (by rw [List.length_take]; exact Nat.min_eq_left long)
    rw [← same, readSamplesPattern] at items
    exact items

theorem replyKept {host : HostOrder} {d reply : Bytes} {p : KanyPacket} {s : List UInt32}
    (decoded : decode host d = .ok p) (encoded : encodeSamples host p s = .ok reply) :
    reply.take headerSize = d.take headerSize ∧ ∃ q, decode host reply = .ok q ∧
      q.channels = p.channels ∧ q.frames = p.frames ∧ q.samples = s := by
  obtain ⟨_, width, pace, _, _, count, header, _⟩ := decodeFields decoded
  obtain ⟨_, same⟩ := encodeSamplesIff.mp encoded
  obtain ⟨q, read, c, r, _, _, n, samples⟩ := replyDecoded .bits64 decoded encoded
  obtain ⟨good, known⟩ := (decodeValue .bits64).mp read
  have rate : WireFormat.sampleRate reply ≠ 0 := by
    have positive := p.sampleRateRange.1
    rw [known, Protocol.packetSampleRate] at r
    omega
  obtain ⟨k, server⟩ := (decodeOk host reply).mpr ⟨good, rate⟩
  obtain ⟨channels, _, _, _, frames, items⟩ := (decodersAgree host .bits64 reply).2 k q server read
  refine ⟨?_, k, server, channels.trans (c.trans width.symm), frames.trans (n.trans count.symm),
    items.trans samples⟩
  rw [same, List.take_left' p.headerLength, header]
  rfl

theorem repliesAccepted (host : HostOrder) (target : Target) (d : Bytes) (p : KanyPacket)
    (decoded : decode host d = .ok p) :
    encodeSamples host p p.samples = .ok d ∧
    ∀ s : List UInt32,
      ((∃ reply, encodeSamples host p s = .ok reply) ↔ s.length = p.channels * p.frames) ∧
      ∀ reply, encodeSamples host p s = .ok reply →
        ∃ q, decodePacket target reply = .value q ∧
          q.channels.toNat = channels d ∧ q.sampleRate.toNat = sampleRate d ∧
          q.sequence.toNat = sequence d ∧ q.timestampUs.toNat = timestampUs d ∧
          q.frames.toNat = frames d ∧ q.samples = s ∧
          ∀ (config : ReceiverConfig) (receiver : Receiver UInt32),
            config.format.channels.toNat = channels d →
            config.format.sampleRate.toNat = sampleRate d → receiver.queue.poisoned = false →
            receiver.queue.samples.length + s.length ≤ config.maxSamples →
            handleDatagram target (·.samples) config reply receiver = (.value (), {
              expectedSequence := some (q.sequence + 1)
              queue := { receiver.queue with samples := receiver.queue.samples ++ s } }) := by
  obtain ⟨good, _, _, _, _, _, header, items⟩ := decodeFields decoded
  refine ⟨encodeSamplesIff.mpr ⟨p.sampleCount, ?_⟩, fun s => ⟨?_, fun reply encoded => ?_⟩⟩
  · rw [header, items, payloadItems good, List.take_append_drop]
  · simp only [encodeSamplesIff, exists_and_left, exists_eq, and_true]
  · obtain ⟨q, read, c, r, n, t, f, samples⟩ := replyDecoded target decoded encoded
    refine ⟨q, read, c, r, n, t, f, samples, fun config receiver width rate alive room => ?_⟩
    have taken : accepts target config reply = some q := by
      have format : q.channels = config.format.channels ∧ q.sampleRate = config.format.sampleRate :=
        ⟨UInt16.toNat_inj.mp (c.trans width.symm), UInt32.toNat_inj.mp (r.trans rate.symm)⟩
      simp only [accepts, read, if_pos format]
    rw [handleAccepts taken (·.samples) alive, samples, newest,
      Nat.sub_eq_zero_of_le (by rw [List.length_append]; exact room), List.drop_zero]

def reservedFrame : Bytes :=
  magic ++ [1, 9, 2, 1, 0, 0, 0xbb, 0x80] ++ List.replicate 12 7 ++ [0, 1, 9, 9] ++
    [1, 2, 3, 4, 5, 6, 7, 8]

theorem repliesAcceptedReserved : ∃ p, decode .big reservedFrame = .ok p ∧
    encodeSamples .big p p.samples = .ok reservedFrame ∧
    ∃ reply q, encodeSamples .big p [5, 6] = .ok reply ∧
      decodePacket .bits32 reply = .value q ∧
      (handleDatagram .bits32 (·.samples) ⟨⟨2, 48000⟩, 3⟩ reply { queue := { samples := [4] } }).2.queue =
        { samples := [4, 5, 6] } := by
  have accepted := repliesAccepted .big .bits32 reservedFrame _ rfl
  obtain ⟨same, replies⟩ := accepted
  obtain ⟨q, read, _, _, _, _, _, _, appended⟩ := (replies [5, 6]).2 _ rfl
  refine ⟨_, rfl, same, _, q, rfl, read, ?_⟩
  rw [appended ⟨⟨2, 48000⟩, 3⟩ { queue := { samples := [4] } } rfl rfl rfl (by decide)]
  rfl

end KaraokeAnything.Kany
