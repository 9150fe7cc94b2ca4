import KaraokeAnything.Library.ByteOrder

/-! The version-one datagram layout of docs/protocol.md, read by position. Both
codecs are compared with it; it is a description, not an implementation. -/
namespace KaraokeAnything.WireFormat
open ByteOrder

def byteAt (d : Bytes) (i : Nat) : UInt8 := d.getD i 0
def wordAt (d : Bytes) (first width : Nat) : Nat := readBE ((d.drop first).take width)

def channels (d : Bytes) : Nat := (byteAt d 6).toNat
def sampleRate (d : Bytes) : Nat := wordAt d 8 4
def sequence (d : Bytes) : Nat := wordAt d 12 4
def timestampUs (d : Bytes) : Nat := wordAt d 16 8
def frames (d : Bytes) : Nat := wordAt d 24 2

def samples (d : Bytes) : List Nat := (chunksExact 4 (d.drop 28)).map readLE

structure WellFormed (d : Bytes) : Prop where
  size : d.length = 28 + frames d * channels d * 4
  magic : d.take 4 = [75, 65, 78, 89]
  version : byteAt d 4 = 1
  format : byteAt d 7 = 1
  channels : channels d ≠ 0
  frames : frames d ≠ 0

theorem wellFormedIff (d : Bytes) : WellFormed d ↔
    d.length = 28 + frames d * channels d * 4 ∧ d.take 4 = [75, 65, 78, 89] ∧
    byteAt d 4 = 1 ∧ byteAt d 7 = 1 ∧ channels d ≠ 0 ∧ frames d ≠ 0 :=
  ⟨fun h => ⟨h.size, h.magic, h.version, h.format, h.channels, h.frames⟩,
    fun ⟨a, b, c, e, f, g⟩ => ⟨a, b, c, e, f, g⟩⟩

instance (d : Bytes) : Decidable (WellFormed d) := decidable_of_iff _ (wellFormedIff d).symm

/- The reserved places set to zero: the flags byte and the header's last two bytes. -/
def clearReserved (d : Bytes) : Bytes := ((d.set 5 0).set 26 0).set 27 0

theorem wordAtBound (d : Bytes) (first width : Nat) : wordAt d first width < 256 ^ width := by
  have word := readBeBound ((d.drop first).take width)
  have short : ((d.drop first).take width).length ≤ width := by simp
  exact lt_of_lt_of_le word (Nat.pow_le_pow_right (by omega) short)

theorem channelsBound (d : Bytes) : channels d < 256 := (byteAt d 6).toNat_lt

theorem framesBound (d : Bytes) : frames d < 65536 := wordAtBound d 24 2

theorem wordAtEncoded {d : Bytes} {first width : Nat} (inside : first + width ≤ d.length) :
    be width (wordAt d first width) = (d.drop first).take width := by
  have size : ((d.drop first).take width).length = width := by simp; omega
  have word := beDecoded ((d.drop first).take width)
  rwa [size] at word

theorem byteAtInside {d : Bytes} {i : Nat} (inside : i < d.length) : byteAt d i = d[i] := by
  simp [byteAt, inside]

theorem wellFormedLong {d : Bytes} (h : WellFormed d) : 28 ≤ d.length := by
  rw [h.size]; omega

theorem samplesCount {d : Bytes} (h : WellFormed d) :
    (samples d).length = frames d * channels d := by
  have payload : (d.drop 28).length = frames d * channels d * 4 := by
    rw [List.length_drop, h.size]; omega
  rw [samples, List.length_map, chunksExactLength, payload, Nat.mul_div_cancel _ (by omega)]

theorem samplesBound {d : Bytes} : ∀ sample ∈ samples d, sample < 2 ^ 32 := by
  intro sample member
  obtain ⟨block, inside, rfl⟩ := List.mem_map.mp member
  have size := chunksExactSize (by omega) _ block inside
  have bound := readLeBound block
  rw [size] at bound
  exact bound

theorem samplesEncoded {d : Bytes} (h : WellFormed d) :
    (samples d).flatMap (le 4) = d.drop 28 := by
  have whole : 4 ∣ (d.drop 28).length := by
    rw [List.length_drop, h.size]
    exact ⟨frames d * channels d, by omega⟩
  have blocks : (chunksExact 4 (d.drop 28)).map (fun block => le 4 (readLE block)) =
      chunksExact 4 (d.drop 28) := by
    refine List.map_congr_left (fun block member => ?_) |>.trans (List.map_id _)
    have size := chunksExactSize (by omega) _ block member
    simpa [size] using leDecoded block
  rw [samples, List.flatMap_def, List.map_map, Function.comp_def, blocks,
    chunksExactJoin (by omega) _ whole]

theorem headerFields {d : Bytes} (long : 28 ≤ d.length) :
    d = d.take 4 ++ [byteAt d 4, byteAt d 5, byteAt d 6, byteAt d 7] ++
      (d.drop 8).take 4 ++ (d.drop 12).take 4 ++ (d.drop 16).take 8 ++ (d.drop 24).take 2 ++
      [byteAt d 26, byteAt d 27] ++ d.drop 28 := by
  have cut (first width : Nat) : d.drop first = (d.drop first).take width ++ d.drop (first + width) := by
    rw [← List.drop_drop, List.take_append_drop]
  have byte (i : Nat) (inside : i < 28) : byteAt d i :: d.drop (i + 1) = d.drop i := by
    rw [byteAtInside (by omega)]
    exact (List.drop_eq_getElem_cons (by omega)).symm
  simp only [List.append_assoc, List.cons_append, List.nil_append]
  rw [byte 27 (by omega), byte 26 (by omega), ← cut 24 2, ← cut 16 8, ← cut 12 4, ← cut 8 4,
    byte 7 (by omega), byte 6 (by omega), byte 5 (by omega), byte 4 (by omega),
    List.take_append_drop]

theorem clearReservedFields {d : Bytes} (long : 28 ≤ d.length) :
    clearReserved d = d.take 4 ++ [byteAt d 4, 0, byteAt d 6, byteAt d 7] ++
      (d.drop 8).take 4 ++ (d.drop 12).take 4 ++ (d.drop 16).take 8 ++ (d.drop 24).take 2 ++
      [0, 0] ++ d.drop 28 := by
  have start : (d.take 4).length = 4 := by simp; omega
  have word (first width : Nat) (inside : first + width ≤ 28) :
      ((d.drop first).take width).length = width := by simp; omega
  have rate := word 8 4 (by omega)
  have order := word 12 4 (by omega)
  have time := word 16 8 (by omega)
  have count := word 24 2 (by omega)
  have parts := headerFields long
  generalize d.take 4 = a at *
  generalize (d.drop 8).take 4 = b at *
  generalize (d.drop 12).take 4 = c at *
  generalize (d.drop 16).take 8 = e at *
  generalize (d.drop 24).take 2 = f at *
  rw [clearReserved]
  conv_lhs => rw [parts]
  simp [start, rate, order, time, count]

def withPayload (d payload : Bytes) : Bytes := d.take 28 ++ payload

section Payload
variable {d payload : Bytes} (long : 28 ≤ d.length)
include long

theorem payloadByte {i : Nat} (inside : i < 28) : byteAt (withPayload d payload) i = byteAt d i := by
  have header : i < (d.take 28).length := by rw [List.length_take]; omega
  simp only [byteAt, withPayload, List.getD_eq_getElem?_getD, List.getElem?_append_left header,
    List.getElem?_take_of_lt inside]

theorem payloadWord {first width : Nat} (inside : first + width ≤ 28) :
    wordAt (withPayload d payload) first width = wordAt d first width := by
  have header : (d.take 28).length = 28 := by rw [List.length_take]; omega
  rw [wordAt, wordAt, withPayload, List.drop_append_of_le_length (by omega),
    List.take_append_of_le_length (by rw [List.length_drop]; omega), List.drop_take,
    List.take_take, Nat.min_eq_left (by omega)]

theorem payloadFields (good : WellFormed d) (size : payload.length = frames d * channels d * 4) :
    WellFormed (withPayload d payload) ∧ channels (withPayload d payload) = channels d ∧
    sampleRate (withPayload d payload) = sampleRate d ∧
    sequence (withPayload d payload) = sequence d ∧
    timestampUs (withPayload d payload) = timestampUs d ∧
    frames (withPayload d payload) = frames d := by
  have byte (i : Nat) (inside : i < 28) : byteAt (withPayload d payload) i = byteAt d i :=
    payloadByte long inside
  have count : frames (withPayload d payload) = frames d := payloadWord long (by omega)
  have width : channels (withPayload d payload) = channels d := by
    rw [channels, channels, byte 6 (by omega)]
  refine ⟨⟨?_, ?_, ?_, ?_, ?_, ?_⟩, width, payloadWord long (by omega), payloadWord long (by omega),
    payloadWord long (by omega), count⟩
  · rw [count, width, withPayload, List.length_append, List.length_take, size]
    omega
  · rw [← good.magic, withPayload, List.take_append_of_le_length (by rw [List.length_take]; omega),
      List.take_take]
    rfl
  · rw [byte 4 (by omega), good.version]
  · rw [byte 7 (by omega), good.format]
  · rw [width]
    exact good.channels
  · rw [count]
    exact good.frames

end Payload

end KaraokeAnything.WireFormat
