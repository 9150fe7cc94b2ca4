import KaraokeAnything.Protocol
import KaraokeAnything.WireFormat

/-! The client codec against the layout: what each direction accepts, what it
returns there, and that neither aborts on any pointer width. -/
namespace KaraokeAnything.Protocol
open ByteOrder Outcome WireFormat

variable (target : Target)

theorem usizeHolds {n : Nat} (small : n < 2 ^ 32) : n < target.usizeLimit := by
  cases target <;> simp only [Target.usizeLimit] <;> omega

theorem productBound {a b : Nat} (left : a < 65536) (right : b < 256) : a * b ≤ 65535 * 255 :=
  Nat.mul_le_mul (by omega) (by omega)

def packetAt (d : Bytes) : AudioPacket where
  channels := (byteAt d 6).toUInt16
  sampleRate := UInt32.ofNat (sampleRate d)
  sequence := UInt32.ofNat (sequence d)
  timestampUs := UInt64.ofNat (timestampUs d)
  frames := UInt16.ofNat (frames d)
  samples := (samples d).map UInt32.ofNat

theorem packetChannels (d : Bytes) : (packetAt d).channels.toNat = channels d := by
  simp [packetAt, channels]

theorem packetFrames (d : Bytes) : (packetAt d).frames.toNat = frames d := by
  have bound := framesBound d
  simp [packetAt, Nat.mod_eq_of_lt bound]

theorem packetSampleRate (d : Bytes) : (packetAt d).sampleRate.toNat = sampleRate d :=
  UInt32.toNat_ofNat_of_lt' (wordAtBound d 8 4)

theorem packetSequence (d : Bytes) : (packetAt d).sequence.toNat = sequence d :=
  UInt32.toNat_ofNat_of_lt' (wordAtBound d 12 4)

theorem packetTimestampUs (d : Bytes) : (packetAt d).timestampUs.toNat = timestampUs d :=
  UInt64.toNat_ofNat_of_lt' (wordAtBound d 16 8)

theorem packetSamples (d : Bytes) : (packetAt d).samples.map UInt32.toNat = samples d := by
  rw [packetAt, List.map_map]
  refine (List.map_congr_left (fun sample member => ?_)).trans (List.map_id _)
  exact UInt32.toNat_ofNat_of_lt' (samplesBound sample member)

theorem packetChannelsZero (d : Bytes) : (packetAt d).channels = 0 ↔ channels d = 0 := by
  rw [← UInt16.toNat_inj, packetChannels]; rfl

theorem packetFramesZero (d : Bytes) : (packetAt d).frames = 0 ↔ frames d = 0 := by
  rw [← UInt16.toNat_inj, packetFrames]; rfl

def checks (d : Bytes) : Outcome AudioPacket := do
  bailIf (d.take 4 ≠ magic) "incorrect packet magic"
  bailIf (byteAt d 4 ≠ version) s!"unsupported protocol version {byteAt d 4}"
  bailIf (byteAt d 7 ≠ sampleFormatF32Le) s!"unsupported sample format {byteAt d 7}"
  bailIf ((packetAt d).channels = 0 ∨ (packetAt d).frames = 0)
    "channels and frames must be non-zero"
  let expectedPayload := frames d * channels d * 4
  let received := d.length - 28
  bailIf (d.length ≠ 28 + frames d * channels d * 4)
    s!"payload length mismatch: expected {expectedPayload}, received {received}"
  pure (packetAt d)

theorem decodeShort {d : Bytes} (short : d.length < 28) :
    ∃ message, decodePacket target d = error message := by
  have header : d.length < headerSize := short
  rw [decodePacket, bailIfHolds _ header, errorBind]
  exact ⟨_, rfl⟩

theorem decodeLong {d : Bytes} (long : 28 ≤ d.length) : decodePacket target d = checks d := by
  have enough : ¬ d.length < headerSize := by simp only [headerSize]; omega
  have cut (first last : Nat) (order : first ≤ last) (inside : last ≤ 28) :
      slice d first last = value ((d.drop first).take (last - first)) :=
    sliceInside order (by omega)
  have width (first last : Nat) (order : first ≤ last) (inside : last ≤ 28) :
      exactly (last - first) ((d.drop first).take (last - first)) =
        value ((d.drop first).take (last - first)) :=
    if_pos (by simp; omega)
  have read (i : Nat) (inside : i < 28) : index d i = value (byteAt d i) := by
    rw [indexInside (by omega), byteAtInside (by omega)]
  have framesSmall := framesBound d
  have channelsSmall := channelsBound d
  have product := productBound framesSmall channelsSmall
  have payload : slice d 28 d.length = value (d.drop 28) := by
    rw [sliceInside long (le_refl _), List.take_of_length_le (by simp)]
  have frameWord : (UInt16.ofNat (readBE ((d.drop 24).take 2))).toNat = frames d := packetFrames d
  have channelWord : (byteAt d 6).toUInt16.toNat = channels d := packetChannels d
  have frameSamples : mulBelow target.usizeLimit (frames d) (channels d) =
      value (frames d * channels d) := mulBelowFits (usizeHolds target (by omega))
  have expectedPayload : mulBelow target.usizeLimit (frames d * channels d) 4 =
      value (frames d * channels d * 4) := mulBelowFits (usizeHolds target (by omega))
  have expectedSize : addBelow target.usizeLimit 28 (frames d * channels d * 4) =
      value (28 + frames d * channels d * 4) := addBelowFits (usizeHolds target (by omega))
  have patterns : (chunksExact 4 (d.drop 28)).map (fun chunk => UInt32.ofNat (readLE chunk)) =
      (samples d).map UInt32.ofNat := by simp [samples]
  rw [decodePacket, checks, bailIfPasses _ enough, valueBind]
  simp only [valueBind, headerSize,
    cut 0 4 (by omega) (by omega), read 4 (by omega), read 7 (by omega), read 6 (by omega),
    cut 8 12 (by omega) (by omega), cut 12 16 (by omega) (by omega),
    cut 16 24 (by omega) (by omega), cut 24 26 (by omega) (by omega),
    width 8 12 (by omega) (by omega), width 12 16 (by omega) (by omega),
    width 16 24 (by omega) (by omega), width 24 26 (by omega) (by omega), List.drop_zero,
    frameWord, channelWord, payload, frameSamples, expectedPayload, expectedSize, patterns]
  rfl

theorem checksValue {d : Bytes} {packet : AudioPacket} :
    checks d = value packet ↔ WellFormed d ∧ packet = packetAt d := by
  simp only [checks, bindValue, bailIfValue, pureValue, value.injEq]
  simp only [exists_const, not_or, ne_eq, not_not, packetChannelsZero, packetFramesZero,
    wellFormedIff, magic, version, sampleFormatF32Le]
  constructor
  · rintro ⟨m, v, f, nonzero, size, rfl⟩
    exact ⟨⟨size, m, v, f, nonzero⟩, rfl⟩
  · rintro ⟨⟨size, m, v, f, nonzero⟩, rfl⟩
    exact ⟨m, v, f, nonzero, size, rfl⟩

theorem checksReturn (d : Bytes) : checks d ≠ aborted := by
  unfold checks
  repeat'
    refine bindReturns (bailIfReturns _ _) (fun _ _ => ?_)
  simp

theorem decodeValue {d : Bytes} {packet : AudioPacket} :
    decodePacket target d = value packet ↔ WellFormed d ∧ packet = packetAt d := by
  by_cases long : 28 ≤ d.length
  · rw [decodeLong target long, checksValue]
  · obtain ⟨message, rejected⟩ := decodeShort target (Nat.lt_of_not_le long)
    rw [rejected]
    exact ⟨by simp, fun h => absurd (wellFormedLong h.1) long⟩

theorem decodeReturns (d : Bytes) : decodePacket target d ≠ aborted := by
  by_cases long : 28 ≤ d.length
  · rw [decodeLong target long]
    exact checksReturn d
  · obtain ⟨message, rejected⟩ := decodeShort target (Nat.lt_of_not_le long)
    simp [rejected]

structure Encodable (packet : AudioPacket) : Prop where
  channelsLow : 1 ≤ packet.channels.toNat
  channelsHigh : packet.channels.toNat ≤ 255
  frames : 1 ≤ packet.frames.toNat
  samples : packet.samples.length = packet.frames.toNat * packet.channels.toNat

def silentFrame (channels : UInt16) (sampleRate : UInt32) : AudioPacket where
  channels := channels
  sampleRate := sampleRate
  sequence := 0
  timestampUs := 0
  frames := 1
  samples := List.replicate channels.toNat 0

theorem silentFrameEncodable (channels : UInt16) (sampleRate : UInt32)
    (low : 1 ≤ channels.toNat) (high : channels.toNat ≤ 255) :
    Encodable (silentFrame channels sampleRate) :=
  ⟨low, high, Nat.le_refl 1, by simp [silentFrame]⟩

def datagram (packet : AudioPacket) : Bytes :=
  magic ++ [version, reservedByte, packet.channels.toUInt8, sampleFormatF32Le] ++
    be 4 packet.sampleRate.toNat ++ be 4 packet.sequence.toNat ++
    be 8 packet.timestampUs.toNat ++ be 2 packet.frames.toNat ++
    be 2 reservedTrailer.toNat ++
    packet.samples.flatMap (fun sample => le 4 sample.toNat)

theorem encodeValue {packet : AudioPacket} {d : Bytes} :
    encodePacket target packet = value d ↔ Encodable packet ∧ d = datagram packet := by
  have low : ¬ packet.channels = 0 ↔ 1 ≤ packet.channels.toNat := by
    rw [← UInt16.toNat_inj]; exact Nat.one_le_iff_ne_zero.symm
  have high : ¬ packet.channels > 255 ↔ packet.channels.toNat ≤ 255 := by
    rw [gt_iff_lt, UInt16.lt_iff_toNat_lt]; exact Nat.not_lt
  have some : ¬ packet.frames = 0 ↔ 1 ≤ packet.frames.toNat := by
    rw [← UInt16.toNat_inj]; exact Nat.one_le_iff_ne_zero.symm
  simp only [encodePacket, bindValue, bailIfValue, pureValue, value.injEq]
  simp only [exists_const, not_or, low, high, some, ne_eq, not_not]
  constructor
  · rintro ⟨⟨one, most⟩, nonempty, count, multiplied, total, _, _, _, _, rfl⟩
    refine ⟨⟨one, most, nonempty, ?_⟩, rfl⟩
    unfold mulBelow at multiplied
    split at multiplied <;> simp_all
  · rintro ⟨⟨one, most, nonempty, total⟩, rfl⟩
    have product := productBound packet.frames.toNat_lt (Nat.lt_succ_of_le most)
    refine ⟨⟨one, most⟩, nonempty, _, mulBelowFits (usizeHolds target (by omega)), total,
      _, mulBelowFits (usizeHolds target (by omega)),
      _, addBelowFits (usizeHolds target (by simp only [headerSize]; omega)), rfl⟩

theorem datagramFields (packet : AudioPacket) :
    (datagram packet).take 4 = magic ∧ byteAt (datagram packet) 4 = version ∧
    byteAt (datagram packet) 5 = 0 ∧ byteAt (datagram packet) 6 = packet.channels.toUInt8 ∧
    byteAt (datagram packet) 7 = sampleFormatF32Le ∧
    sampleRate (datagram packet) = packet.sampleRate.toNat ∧
    sequence (datagram packet) = packet.sequence.toNat ∧
    timestampUs (datagram packet) = packet.timestampUs.toNat ∧
    frames (datagram packet) = packet.frames.toNat ∧
    (datagram packet).drop 28 = packet.samples.flatMap (fun sample => le 4 sample.toNat) := by
  refine ⟨?_, ?_, ?_, ?_, ?_, ?_, ?_, ?_, ?_, ?_⟩
  · simp [datagram, magic]
  · simp [datagram, magic, byteAt]
  · simp [datagram, magic, byteAt, reservedByte]
  · simp [datagram, magic, byteAt]
  · simp [datagram, magic, byteAt]
  · have word : ((datagram packet).drop 8).take 4 = be 4 packet.sampleRate.toNat := by
      simp [datagram, magic]
    rw [sampleRate, wordAt, word, readBeEncoded _ _ packet.sampleRate.toNat_lt]
  · have word : ((datagram packet).drop 12).take 4 = be 4 packet.sequence.toNat := by
      simp [datagram, magic]
    rw [WireFormat.sequence, wordAt, word, readBeEncoded _ _ packet.sequence.toNat_lt]
  · have word : ((datagram packet).drop 16).take 8 = be 8 packet.timestampUs.toNat := by
      simp [datagram, magic, List.drop_append]
    rw [timestampUs, wordAt, word, readBeEncoded _ _ packet.timestampUs.toNat_lt]
  · have word : ((datagram packet).drop 24).take 2 = be 2 packet.frames.toNat := by
      simp [datagram, magic, List.drop_append]
    rw [frames, wordAt, word, readBeEncoded _ _ packet.frames.toNat_lt]
  · simp [datagram, magic, List.drop_append]

theorem datagramLength {packet : AudioPacket} (h : Encodable packet) :
    (datagram packet).length = 28 + packet.frames.toNat * packet.channels.toNat * 4 := by
  simp [datagram, magic, List.length_flatMap, h.samples]
  omega

theorem datagramChannels {packet : AudioPacket} (h : Encodable packet) :
    channels (datagram packet) = packet.channels.toNat := by
  have byte := h.channelsHigh
  rw [channels, (datagramFields packet).2.2.2.1, UInt16.toNat_toUInt8, Nat.mod_eq_of_lt]
  omega

theorem datagramSamples (packet : AudioPacket) :
    samples (datagram packet) = packet.samples.map UInt32.toNat := by
  have payload := (datagramFields packet).2.2.2.2.2.2.2.2.2
  have blocks : chunksExact 4 (packet.samples.flatMap (fun sample => le 4 sample.toNat)) =
      packet.samples.map (fun sample => le 4 sample.toNat) := by
    rw [List.flatMap_def]
    refine chunksExactFlatten (by omega) _ (fun block member => ?_)
    obtain ⟨sample, _, rfl⟩ := List.mem_map.mp member
    exact leLength 4 _
  have read (sample : UInt32) : readLE (le 4 sample.toNat) = sample.toNat :=
    readLeEncoded 4 _ sample.toNat_lt
  rw [samples, payload, blocks, List.map_map]
  exact List.map_congr_left (fun sample _ => read sample)

theorem datagramWellFormed {packet : AudioPacket} (h : Encodable packet) :
    WellFormed (datagram packet) := by
  obtain ⟨m, v, _, _, f, _, _, _, count, _⟩ := datagramFields packet
  have width := datagramChannels h
  refine ⟨?_, m, v, f, ?_, ?_⟩
  · rw [datagramLength h, count, width]
  · have := h.channelsLow; omega
  · have := h.frames; omega

theorem packetAtDatagram {packet : AudioPacket} (h : Encodable packet) :
    packetAt (datagram packet) = packet := by
  obtain ⟨_, _, _, _, _, rate, order, time, count, _⟩ := datagramFields packet
  apply AudioPacket.ext
  · rw [← UInt16.toNat_inj, packetChannels, datagramChannels h]
  · rw [← UInt32.toNat_inj, packetSampleRate, rate]
  · rw [← UInt32.toNat_inj, packetSequence, order]
  · rw [← UInt64.toNat_inj, packetTimestampUs, time]
  · rw [← UInt16.toNat_inj, packetFrames, count]
  · rw [packetAt, datagramSamples, List.map_map]
    exact (List.map_congr_left (fun _ _ => UInt32.ofNat_toNat)).trans (List.map_id _)

theorem packetAtEncodable {d : Bytes} (h : WellFormed d) : Encodable (packetAt d) := by
  have width := channelsBound d
  refine ⟨?_, ?_, ?_, ?_⟩
  · rw [packetChannels]; exact Nat.one_le_iff_ne_zero.mpr h.channels
  · rw [packetChannels]; omega
  · rw [packetFrames]; exact Nat.one_le_iff_ne_zero.mpr h.frames
  · rw [packetChannels, packetFrames, packetAt, List.length_map, samplesCount h]

theorem datagramPacketAt {d : Bytes} (h : WellFormed d) : datagram (packetAt d) = clearReserved d := by
  have long := wellFormedLong h
  have rate : be 4 (packetAt d).sampleRate.toNat = (d.drop 8).take 4 := by
    rw [packetSampleRate]; exact wordAtEncoded (by omega)
  have order : be 4 (packetAt d).sequence.toNat = (d.drop 12).take 4 := by
    rw [packetSequence]; exact wordAtEncoded (by omega)
  have time : be 8 (packetAt d).timestampUs.toNat = (d.drop 16).take 8 := by
    rw [packetTimestampUs]; exact wordAtEncoded (by omega)
  have count : be 2 (packetAt d).frames.toNat = (d.drop 24).take 2 := by
    rw [packetFrames]; exact wordAtEncoded (by omega)
  have byte : (packetAt d).channels.toUInt8 = byteAt d 6 := by simp [packetAt]
  have payload : (packetAt d).samples.flatMap (fun sample => le 4 sample.toNat) = d.drop 28 := by
    rw [← samplesEncoded h, ← packetSamples, List.flatMap_map]
  rw [datagram, rate, order, time, count, byte, payload, clearReservedFields long, h.magic,
    h.version, h.format]
  simp [magic, version, reservedByte, sampleFormatF32Le, reservedTrailer, be, le]

theorem clientCodecExact :
    (∀ p : AudioPacket,
      ((∃ d, encodePacket target p = .value d) ↔
        1 ≤ p.channels.toNat ∧ p.channels.toNat ≤ 255 ∧ 1 ≤ p.frames.toNat ∧
        p.samples.length = p.frames.toNat * p.channels.toNat) ∧
      (∀ d, encodePacket target p = .value d → decodePacket target d = .value p)) ∧
    (∀ d : Bytes,
      decodePacket target d ≠ .aborted ∧
      ((∃ p, decodePacket target d = .value p) ↔ WellFormed d) ∧
      (∀ p, decodePacket target d = .value p →
        encodePacket target p = .value (clearReserved d))) := by
  refine ⟨fun p => ⟨?_, ?_⟩, fun d => ⟨decodeReturns target d, ?_, ?_⟩⟩
  · simp only [encodeValue]
    constructor
    · rintro ⟨d, ⟨low, high, some, total⟩, _⟩
      exact ⟨low, high, some, total⟩
    · rintro ⟨low, high, some, total⟩
      exact ⟨_, ⟨low, high, some, total⟩, rfl⟩
  · intro d encoded
    obtain ⟨good, rfl⟩ := (encodeValue target).mp encoded
    exact (decodeValue target).mpr
      ⟨datagramWellFormed good, (packetAtDatagram good).symm⟩
  · simp only [decodeValue]
    exact ⟨fun ⟨_, good, _⟩ => good, fun good => ⟨_, good, rfl⟩⟩
  · intro p decoded
    obtain ⟨good, rfl⟩ := (decodeValue target).mp decoded
    exact (encodeValue target).mpr
      ⟨packetAtEncodable good, (datagramPacketAt good).symm⟩

end KaraokeAnything.Protocol
