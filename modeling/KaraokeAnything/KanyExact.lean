import KaraokeAnything.Kany
import KaraokeAnything.ProtocolExact
import KaraokeAnything.Python

/-! The server codec against the layout, on hosts of either byte order, and its
agreement with the client codec. -/
namespace KaraokeAnything.Kany
open ByteOrder Python WireFormat

theorem preambleOk {d : Bytes} {long} :
    validatePreamble d = .ok long ↔ 28 ≤ d.length ∧ d.take 4 = magic := by
  by_cases short : d.length < headerSize
  · have refused : validatePreamble d = .error _ := dif_pos short
    rw [refused]
    exact ⟨fun accepted => by contradiction, fun both => absurd both.1 (Nat.not_le.mpr short)⟩
  · have checked : validatePreamble d = if d.take 4 ≠ magic then .error _ else .ok long := dif_neg short
    rw [checked]
    by_cases same : d.take 4 = magic
    · rw [if_neg (not_not_intro same)]
      exact ⟨fun _ => ⟨Nat.not_lt.mp short, same⟩, fun _ => rfl⟩
    · rw [if_pos same]
      exact ⟨fun accepted => by contradiction, fun both => absurd both.2 same⟩

theorem versionAndFormatOk {d : Bytes} {u : Unit} :
    validateVersionAndFormat d = .ok u ↔ byteAt d 4 = 1 ∧ byteAt d 7 = 1 := by
  unfold validateVersionAndFormat
  split
  · simp_all [octet, byteAt, version]
  · split <;> simp_all [octet, byteAt, version, sampleFormatF32Le]

theorem headerOk {d : Bytes} {long} : validateHeader d = .ok long ↔
    28 ≤ d.length ∧ d.take 4 = magic ∧ byteAt d 4 = 1 ∧ byteAt d 7 = 1 := by
  simp only [validateHeader, okBind, preambleOk, versionAndFormatOk]
  constructor
  · rintro ⟨_, ⟨size, m⟩, _, ⟨v, f⟩, _⟩
    exact ⟨size, m, v, f⟩
  · rintro ⟨size, m, v, f⟩
    exact ⟨long, ⟨size, m⟩, (), ⟨v, f⟩, rfl⟩

theorem parsedFields {d : Bytes} {fields : HeaderFields} (h : parseHeaderFields d = .ok fields) :
    fields.channels = channels d ∧ fields.sampleRate = sampleRate d ∧
    fields.sequence = sequence d ∧ fields.timestampUs = timestampUs d ∧
    fields.frames = frames d := by
  simp only [parseHeaderFields] at h
  split at h
  · contradiction
  · cases Except.ok.inj h
    exact ⟨rfl, rfl, rfl, rfl, rfl⟩

theorem parseOk (d : Bytes) : (∃ fields, parseHeaderFields d = .ok fields) ↔
    channels d ≠ 0 ∧ sampleRate d ≠ 0 ∧ frames d ≠ 0 := by
  have same : (octet d 6).toNat = channels d ∧ bigEndian d 8 12 = sampleRate d ∧
      bigEndian d 24 26 = frames d := ⟨rfl, rfl, rfl⟩
  simp only [parseHeaderFields]
  split
  · rename_i zero
    rw [same.1, same.2.1, same.2.2] at zero
    simp only [reduceCtorEq, exists_false, false_iff]
    omega
  · rename_i nonzero
    rw [same.1, same.2.1, same.2.2] at nonzero
    simp only [Except.ok.injEq, exists_eq', true_iff]
    omega

theorem bodyLengthOk {d : Bytes} {channels frames : Nat} {size} :
    validateBodyLength d channels frames = .ok size ↔ d.length = 28 + channels * frames * 4 := by
  by_cases same : d.length = headerSize + channels * frames * 4
  · have valid : validateBodyLength d channels frames = .ok size := dif_pos same
    exact ⟨fun _ => same, fun _ => valid⟩
  · have refused : validateBodyLength d channels frames = .error _ := dif_neg same
    rw [refused]
    exact ⟨fun accepted => by contradiction, fun whole => absurd whole same⟩

/- Both byte orders read the same pattern: the swap undoes the native order. -/
theorem readSamplesPattern (host : HostOrder) (d : Bytes) :
    readSamples host d = (samples d).map UInt32.ofNat := by
  rw [samples, List.map_map]
  cases host with
  | little => simp [readSamples, headerSize, nativeWord, Function.comp_def]
  | big =>
    simp only [readSamples, headerSize, ne_eq, reduceCtorEq, not_false_eq_true, if_true,
      List.map_map]
    refine List.map_congr_left (fun block member => ?_)
    have size := chunksExactSize (by omega) _ block member
    have bound : readBE block < 2 ^ 32 := by simpa [size] using readBeBound block
    have swapped : le 4 (readBE block) = block.reverse := by
      rw [← size, ← List.length_reverse, readBE, leDecoded]
    change UInt32.ofNat (readBE (le 4 (UInt32.ofNat (readBE block)).toNat)) = _
    rw [UInt32.toNat_ofNat_of_lt' bound, swapped, readBE, List.reverse_reverse]
    rfl

theorem decodeFields {host : HostOrder} {d : Bytes} {packet : KanyPacket}
    (h : decode host d = .ok packet) :
    WellFormed d ∧ packet.channels = channels d ∧ packet.sampleRate = sampleRate d ∧
    packet.sequence = sequence d ∧ packet.timestampUs = timestampUs d ∧
    packet.frames = frames d ∧ packet.rawHeader = d.take 28 ∧
    packet.samples = (samples d).map UInt32.ofNat := by
  simp only [decode, okBind] at h
  obtain ⟨long, header, fields, parsed, size, body, last⟩ := h
  cases Except.ok.inj last
  obtain ⟨_, m, v, f⟩ := headerOk.mp header
  obtain ⟨wide, _, full⟩ := (parseOk d).mp ⟨fields, parsed⟩
  obtain ⟨c, r, s, t, n⟩ := parsedFields parsed
  have total := bodyLengthOk.mp body
  rw [c, n, Nat.mul_comm (channels d)] at total
  exact ⟨⟨total, m, v, f, wide, full⟩, c, r, s, t, n, rfl, readSamplesPattern host d⟩

theorem decodeOk (host : HostOrder) (d : Bytes) :
    (∃ packet, decode host d = .ok packet) ↔ WellFormed d ∧ sampleRate d ≠ 0 := by
  constructor
  · rintro ⟨packet, h⟩
    obtain ⟨good, _, rate, _⟩ := decodeFields h
    have positive := packet.sampleRateRange.1
    exact ⟨good, by omega⟩
  · rintro ⟨good, rate⟩
    obtain ⟨fields, parsed⟩ := (parseOk d).mpr ⟨good.channels, rate, good.frames⟩
    obtain ⟨c, _, _, _, n⟩ := parsedFields parsed
    have size : d.length = headerSize + fields.channels * fields.frames * 4 := by
      rw [c, n, Nat.mul_comm (channels d), good.size]; rfl
    have header : validateHeader d = .ok ⟨wellFormedLong good⟩ :=
      headerOk.mpr ⟨wellFormedLong good, good.magic, good.version, good.format⟩
    have body : validateBodyLength d fields.channels fields.frames = .ok ⟨size⟩ :=
      bodyLengthOk.mpr size
    simp only [decode, okBind]
    exact ⟨_, _, header, _, parsed, _, body, rfl⟩

theorem decodersAgree (host : HostOrder) (target : Protocol.Target) (d : Bytes) :
    ((∃ k, decode host d = .ok k) ↔
      (∃ p, Protocol.decodePacket target d = .value p) ∧ readBE ((d.drop 8).take 4) ≠ 0) ∧
    ∀ k p, decode host d = .ok k → Protocol.decodePacket target d = .value p →
      k.channels = p.channels.toNat ∧ k.sampleRate = p.sampleRate.toNat ∧
      k.sequence = p.sequence.toNat ∧ k.timestampUs = p.timestampUs.toNat ∧
      k.frames = p.frames.toNat ∧ k.samples = p.samples := by
  constructor
  · rw [decodeOk]
    simp only [Protocol.decodeValue]
    exact ⟨fun ⟨good, rate⟩ => ⟨⟨_, good, rfl⟩, rate⟩, fun ⟨⟨_, good, _⟩, rate⟩ => ⟨good, rate⟩⟩
  · intro k p server client
    obtain ⟨_, rfl⟩ := (Protocol.decodeValue target).mp client
    obtain ⟨_, c, r, s, t, n, _, pcm⟩ := decodeFields server
    exact ⟨c.trans (Protocol.packetChannels d).symm, r.trans (Protocol.packetSampleRate d).symm,
      s.trans (Protocol.packetSequence d).symm, t.trans (Protocol.packetTimestampUs d).symm,
      n.trans (Protocol.packetFrames d).symm, pcm⟩

end KaraokeAnything.Kany
