import KaraokeAnything.Library.ByteOrder

/-! The server's KANY v1 packets, app/audio_trombone/kany.py. An `array("f")` is
the list of its 32-bit patterns; `sys.byteorder` is a parameter of the host. -/
namespace KaraokeAnything.Kany
open ByteOrder

inductive HostOrder where
  | little
  | big
  deriving DecidableEq, Repr

def magic : Bytes := [75, 65, 78, 89]
def version : UInt8 := 1
def headerSize : Nat := 28
def sampleFormatF32Le : UInt8 := 1

structure KanyProtocolError where
  message : String
  deriving DecidableEq, Repr

/- `payload[i]`. Every use stands behind the length check of the preamble, so the default is
never read. -/
def octet (payload : Bytes) (i : Nat) : UInt8 := payload.getD i 0

def bigEndian (payload : Bytes) (first last : Nat) : Nat :=
  readBE ((payload.drop first).take (last - first))

def validatePreamble (payload : Bytes) :
    Except KanyProtocolError (PLift (headerSize ≤ payload.length)) :=
  if short : payload.length < headerSize then
    .error ⟨s!"packet is shorter than the {headerSize}-byte header"⟩
  else if payload.take 4 ≠ magic then .error ⟨"incorrect packet magic"⟩
  else .ok ⟨Nat.not_lt.mp short⟩

def validateVersionAndFormat (payload : Bytes) : Except KanyProtocolError Unit :=
  if octet payload 4 ≠ version then
    .error ⟨s!"unsupported protocol version {octet payload 4}"⟩
  else if octet payload 7 ≠ sampleFormatF32Le then
    .error ⟨s!"unsupported sample format {octet payload 7}"⟩
  else .ok ()

def validateHeader (payload : Bytes) :
    Except KanyProtocolError (PLift (headerSize ≤ payload.length)) := do
  let long ← validatePreamble payload
  validateVersionAndFormat payload
  pure long

structure HeaderFields where
  channels : Nat
  sampleRate : Nat
  sequence : Nat
  timestampUs : Nat
  frames : Nat
  channelsRange : 0 < channels ∧ channels < 256
  sampleRateRange : 0 < sampleRate ∧ sampleRate < 2 ^ 32
  framesRange : 0 < frames ∧ frames < 2 ^ 16
  deriving DecidableEq

theorem bigEndianBound (payload : Bytes) (first last : Nat) :
    bigEndian payload first last < 256 ^ (last - first) :=
  (readBeBound _).trans_le (Nat.pow_le_pow_right (by omega) (by simp))

def parseHeaderFields (payload : Bytes) : Except KanyProtocolError HeaderFields :=
  let channels := (octet payload 6).toNat
  let sampleRate := bigEndian payload 8 12
  let sequence := bigEndian payload 12 16
  let timestampUs := bigEndian payload 16 24
  let frames := bigEndian payload 24 26
  if zero : channels = 0 ∨ sampleRate = 0 ∨ frames = 0 then
    .error ⟨"channels, sample rate and frames must be non-zero"⟩
  else .ok {
    channels, sampleRate, sequence, timestampUs, frames
    channelsRange := ⟨by omega, (octet payload 6).toNat_lt⟩
    sampleRateRange := ⟨by omega, bigEndianBound payload 8 12⟩
    framesRange := ⟨by omega, bigEndianBound payload 24 26⟩ }

def validateBodyLength (payload : Bytes) (channels frames : Nat) :
    Except KanyProtocolError (PLift (payload.length = headerSize + channels * frames * 4)) :=
  let expectedSize := headerSize + channels * frames * 4
  if size : payload.length = expectedSize then .ok ⟨size⟩
  else .error ⟨s!"payload length mismatch: expected {expectedSize}, received {payload.length}"⟩

def nativeWord : HostOrder → Bytes → UInt32
  | .little, raw => UInt32.ofNat (readLE raw)
  | .big, raw => UInt32.ofNat (readBE raw)

def nativeBytes : HostOrder → UInt32 → Bytes
  | .little, item => le 4 item.toNat
  | .big, item => be 4 item.toNat

def byteswap (item : UInt32) : UInt32 := UInt32.ofNat (readBE (le 4 item.toNat))

def readSamples (host : HostOrder) (payload : Bytes) : List UInt32 :=
  let samples := (chunksExact 4 (payload.drop headerSize)).map (nativeWord host)
  if host ≠ .little then samples.map byteswap else samples

/- A packet is built by `decode` alone, so it carries what `decode` checked. -/
structure KanyPacket extends HeaderFields where
  rawHeader : Bytes
  samples : List UInt32
  headerLength : rawHeader.length = headerSize
  sampleCount : samples.length = channels * frames
  deriving DecidableEq

theorem readSamplesCount {host : HostOrder} {payload : Bytes} {count : Nat}
    (size : payload.length = headerSize + count * 4) :
    (readSamples host payload).length = count := by
  have body : (payload.drop headerSize).length = count * 4 := by
    rw [List.length_drop, size]; omega
  cases host <;> simp only [readSamples, reduceCtorEq, ne_eq, not_true_eq_false, not_false_eq_true,
    if_true, if_false, List.length_map, chunksExactLength, body] <;> omega

def decode (host : HostOrder) (payload : Bytes) : Except KanyProtocolError KanyPacket := do
  let long ← validateHeader payload
  let fields ← parseHeaderFields payload
  let size ← validateBodyLength payload fields.channels fields.frames
  pure { fields with
    rawHeader := payload.take headerSize
    samples := readSamples host payload
    headerLength := by simp [long.down]
    sampleCount := readSamplesCount size.down }

/- The source checks the type of `samples`; here it is the type of the argument. -/
def encodeSamples (host : HostOrder) (packet : KanyPacket) (samples : List UInt32) :
    Except KanyProtocolError Bytes :=
  let expectedSamples := packet.channels * packet.frames
  if samples.length ≠ expectedSamples then
    .error ⟨s!"sample count mismatch: expected {expectedSamples}, received {samples.length}"⟩
  else
    let encoded := if host ≠ .little then samples.map byteswap else samples
    .ok (packet.rawHeader ++ encoded.flatMap (nativeBytes host))

end KaraokeAnything.Kany
