import KaraokeAnything.ProtocolExact
import KaraokeAnything.SegmentedLedger

/-! How much a segment processor holds while an inference takes its time. -/
namespace KaraokeAnything.SegmentedInference
open ByteOrder Kany Models Python Stateful

def held (s : State) : Nat :=
  s.inputPackets.length + s.activePackets.length + s.readyOutput.length

/- A stream as the ingress lets it through: no payload above the limit, and all valid
packets of one rate. -/
def OneFormat (host : HostOrder) (model : SegmentModel) (rate : Nat) (maxPacketSize : Int)
    (events : List Event) : Prop :=
  ∀ payload, .process payload ∈ events → (payload.length : Int) ≤ maxPacketSize ∧
    ∀ packet, model.decodeAndValidate host payload = .ok packet → packet.sampleRate = rate

section Backlog
variable {host : HostOrder} {model : SegmentModel}

theorem stereoLength {payload : Bytes} {packet : KanyPacket} (stereo : StereoOnly model)
    (decoded : model.decodeAndValidate host payload = .ok packet) : 36 ≤ payload.length := by
  obtain ⟨known, two⟩ := (stereo host payload packet).mp decoded
  obtain ⟨good, width, _⟩ := decodeFields known
  have frames := Nat.one_le_iff_ne_zero.mpr good.frames
  rw [good.size, ← width, two]
  omega

def stereoFrame (rate : Nat) : Bytes :=
  Protocol.datagram (Protocol.silentFrame 2 (UInt32.ofNat rate))

variable (host) in
theorem stereoFrameDecoded (stereo : StereoOnly model) {rate : Nat} (low : 0 < rate)
    (high : rate < 2 ^ 32) : (stereoFrame rate).length = 36 ∧
      ∃ packet, model.decodeAndValidate host (stereoFrame rate) = .ok packet ∧
        packet.sampleRate = rate := by
  have encodable := Protocol.silentFrameEncodable 2 (UInt32.ofNat rate)
    (by decide) (by decide)
  have sameRate : WireFormat.sampleRate (stereoFrame rate) = rate := by
    rw [stereoFrame, (Protocol.datagramFields _).2.2.2.2.2.1]
    exact UInt32.toNat_ofNat_of_lt' high
  obtain ⟨packet, decoded⟩ := (decodeOk host (stereoFrame rate)).mpr
    ⟨Protocol.datagramWellFormed encodable, by omega⟩
  obtain ⟨_, width, known, _⟩ := decodeFields decoded
  refine ⟨Protocol.datagramLength encodable, packet, (stereo _ _ _).mpr ⟨decoded, ?_⟩,
    known.trans sameRate⟩
  rw [width]
  exact Protocol.datagramChannels encodable

structure Waiting (rate count : Nat) (s : State) : Prop where
  held : held s = count
  ready : s.readyOutput = []
  running : s.inferenceTask.bind (·.outcome) = none
  active : s.inferenceTask = none → s.activePackets = []
  format : ∀ known, s.streamSampleRate = some known → known = rate ∧ s.streamChannels = some 2

theorem launchedHeld {s : State} (free : s.activePackets = []) (target : Int) :
    held (launched s target) = held s := by
  have split := congrArg List.length (takenSegment (·.frames) target s.inputPackets 0).1
  rw [List.length_append] at split
  simp only [held, launched, free, List.length_nil]
  omega

theorem waitingLaunch {rate count : Nat} {s : State} (waiting : Waiting rate count s)
    (free : s.inferenceTask = none) (target : Int) : Waiting rate count (launched s target) where
  held := (launchedHeld (waiting.active free) target).trans waiting.held
  ready := waiting.ready
  running := rfl
  active := nofun
  format := waiting.format

theorem waitingPop {rate count : Nat} {s : State} (waiting : Waiting rate count s) :
    Waiting rate count (popped s) := by
  have same : popped s = s := by
    rw [popped, waiting.ready, List.drop_nil, ← waiting.ready]
  rwa [same]

theorem waitingQueue {rate count : Nat} {s : State} {packet : KanyPacket}
    (waiting : Waiting rate count s) (known : packet.sampleRate = rate)
    (channels : packet.channels = 2) : Waiting rate (count + 1) (queued s packet) where
  held := by
    rw [← waiting.held]
    simp only [held, queued, withFormat, List.length_append, List.length_singleton]
    omega
  ready := waiting.ready
  running := waiting.running
  active := waiting.active
  format _ fixed := ⟨(Option.some.inj fixed).symm.trans known, congrArg some channels⟩

theorem waitingGrows {rate count : Nat} {w : World} {payload : Bytes} {packet : KanyPacket}
    (waiting : Waiting rate count w.self) (stereo : StereoOnly model)
    (decoded : model.decodeAndValidate host payload = .ok packet)
    (known : packet.sampleRate = rate) :
    Waiting rate (count + 1) (step host model w (.process payload)).self := by
  have channels := ((stereo host payload packet).mp decoded).2
  have idle := harvestIdle host model waiting.running
  have same : (afterHarvest host model w).self = w.self := by rw [afterHarvest, idle]
  have admitted := waitingQueue waiting known channels
  have processed := processCases host model w payload
  generalize step host model w (.process payload) = next at processed ⊢
  cases processed with
  | harvestRaised e raised =>
    rw [idle] at raised
    contradiction
  | invalid e refused =>
    rw [decoded] at refused
    contradiction
  | formatChanged other again differs =>
    cases Except.ok.inj (again.symm.trans decoded)
    rw [same] at differs
    refine absurd (fun rate fixed => ?_) differs
    obtain ⟨sameRate, two⟩ := waiting.format rate fixed
    exact ⟨known.trans sameRate.symm, by rw [channels, two]⟩
  | buffered other again fits finite =>
    cases Except.ok.inj (again.symm.trans decoded)
    rw [← same] at admitted
    exact waitingPop admitted
  | launched other again fits target free finite =>
    cases Except.ok.inj (again.symm.trans decoded)
    rw [← same] at admitted
    exact waitingPop (waitingLaunch admitted free target)
  | targetRaised other again fits infinite =>
    cases Except.ok.inj (again.symm.trans decoded)
    rw [← same] at admitted
    exact admitted

theorem shortIgnored (stereo : StereoOnly model) {segmentSeconds : Float} {events : List Event}
    (short : ∀ payload, .process payload ∈ events → payload.length < 36) :
    (run host model segmentSeconds events).self = { segmentSeconds } := by
  induction events using List.reverseRecOn with
  | nil => rfl
  | append_singleton events event ih =>
    have before := ih (fun payload inside => short payload (List.mem_append_left _ inside))
    rw [run, List.foldl_append, ← run, List.foldl_cons, List.foldl_nil]
    generalize run host model segmentSeconds events = w at before
    have idle : exec (harvestInference host model) w.self = (.ok (), w.self) :=
      harvestIdle host model (by rw [before]; rfl)
    cases event with
    | process payload =>
      have size := short payload (List.mem_append_right _ (List.mem_singleton.mpr rfl))
      cases decoded : model.decodeAndValidate host payload with
      | ok packet => exact absurd (stereoLength stereo decoded) (Nat.not_le.mpr size)
      | error e =>
        simp only [step, processInvalid idle decoded]
        exact before
    | flush =>
      simp only [step, flushDrains idle]
      rw [before]
    | inferenceEnds outcome =>
      simp only [step, inferenceEnds, before, Option.getD_none]

theorem waitingRun (stereo : StereoOnly model) {rate : Nat} (low : 0 < rate)
    (high : rate < 2 ^ 32) (segmentSeconds : Float) (count : Nat) :
    held (run host model segmentSeconds
      (List.replicate count (.process (stereoFrame rate)))).self = count := by
  obtain ⟨_, packet, decoded, known⟩ :=
    stereoFrameDecoded host stereo low high
  suffices waiting : Waiting rate count (run host model segmentSeconds
      (List.replicate count (.process (stereoFrame rate)))).self from waiting.held
  induction count with
  | zero => exact ⟨rfl, rfl, rfl, fun _ => rfl, nofun⟩
  | succ count ih =>
    rw [List.replicate_succ', run, List.foldl_append]
    exact waitingGrows ih stereo decoded known

/- The stream may send packets for as long as one inference lasts, and each is kept. -/
theorem heldGrows (stereo : StereoOnly model) (segmentSeconds : Float) {rate : Nat}
    (low : 0 < rate) (high : rate < 2 ^ 32) {maxPacketSize : Int} (large : 36 ≤ maxPacketSize) :
    ¬ ∃ bound, ∀ events, OneFormat host model rate maxPacketSize events →
      held (run host model segmentSeconds events).self ≤ bound := by
  rintro ⟨bound, bounded⟩
  obtain ⟨size, packet, decoded, known⟩ := stereoFrameDecoded host stereo low high
  have stream : OneFormat host model rate maxPacketSize
      (List.replicate (bound + 1) (.process (stereoFrame rate))) := by
    intro payload inside
    cases List.eq_of_mem_replicate inside
    refine ⟨by omega, fun other again => ?_⟩
    cases Except.ok.inj (again.symm.trans decoded)
    exact known
  have most := bounded _ stream
  rw [waitingRun stereo low high] at most
  omega

theorem heldBounded (model : SegmentModel) (registered : model = htdemucs ∨ model = convTasNet)
    (host : HostOrder) (segmentSeconds : Float) (rate : Nat) (low : 0 < rate)
    (high : rate < 2 ^ 32) (maxPacketSize : Int) :
    (∃ bound, ∀ events, OneFormat host model rate maxPacketSize events →
      held (run host model segmentSeconds events).self ≤ bound) ↔ maxPacketSize < 36 := by
  have stereo := registeredStereo registered
  constructor
  · intro bounded
    by_contra large
    exact heldGrows stereo segmentSeconds low high (Int.not_lt.mp large) bounded
  · intro small
    refine ⟨0, fun events format => ?_⟩
    rw [shortIgnored stereo (fun payload inside => ?_)]
    · exact Nat.le_refl 0
    · have size := (format payload inside).1
      omega

theorem heldBoundedEmpty : ∃ bound, ∀ events, OneFormat .little htdemucs 48000 35 events →
    held (run .little htdemucs 6.0 events).self ≤ bound :=
  (heldBounded htdemucs (.inl rfl) .little 6.0 48000 (by decide) (by decide) 35).mpr (by decide)

theorem heldUnbounded : ¬ ∀ (segmentSeconds : Float) (rate : Nat) (maxPacketSize : Int),
    ∃ bound, ∀ events, OneFormat .little htdemucs rate maxPacketSize events →
      held (run .little htdemucs segmentSeconds events).self ≤ bound :=
  fun bounded => heldGrows (registeredStereo (.inl rfl)) 6.0 (by decide) (by decide) (by decide)
    (bounded 6.0 48000 65535)

end Backlog

end KaraokeAnything.SegmentedInference
