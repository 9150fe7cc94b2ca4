import KaraokeAnything.Capture
import KaraokeAnything.PlaybackChannels

/-! Whether the packets that client/src/main.rs cuts fit the datagrams they are sent in. -/
namespace KaraokeAnything.Capturing
open ByteOrder Outcome Protocol
open Playback (Build Cli PacketSizing StreamConfig computePacketSizing mulExact roundAsUsize)

def checkPacketMs (cli : Cli) : Outcome Unit :=
  bailIf (cli.packetMs ≤ 0.0) "--packet-ms must be greater than zero"

def senderConfig (server : String) (sizing : PacketSizing) : SenderConfig where
  server := server
  format := ⟨sizing.channels, sizing.sampleRate⟩
  framesPerPacket := UInt16.ofNat sizing.framesPerPacket

def largestPayload : Nat := 65507

section Sendable
variable (target : Target) (config : SenderConfig) (samplesPerPacket : Nat)

def PacketsFit : Prop :=
  ∀ (trySend : Nat → Bool) (buffers : List (List UInt32)),
    ∀ samples ∈ (capture trySend samplesPerPacket buffers).packets, ∀ sequence timestampUs, ∃ bytes,
      encodePacket target (config.packet samples sequence timestampUs) = value bytes ∧
        bytes.length ≤ largestPayload

structure Carried (passes : List Pass) : Prop where
  captured : ∃ trySend buffers,
    passes.flatMap Pass.received <+: (capture trySend samplesPerPacket buffers).channel
  sized : ∀ samples timestampUs sends, .packet samples timestampUs sends ∈ passes →
    ∀ sequence bytes, encodePacket target (config.packet samples sequence timestampUs) = value bytes →
      sends = decide (bytes.length ≤ largestPayload)

def Healthy (sender : Sender) : Prop := sender.result = none ∨ sender.result = some (value ())

def SenderSurvives : Prop :=
  ∀ passes, Carried target config samplesPerPacket passes → Healthy (senderLoop target config passes)

end Sendable

section Survival
variable {target : Target} {config : SenderConfig} {samplesPerPacket : Nat}

theorem stepHealthy {self : Sender} {pass : Pass} (healthy : Healthy self)
    (fits : ∀ samples timestampUs sends, pass = .packet samples timestampUs sends → ∃ bytes,
      encodePacket target (config.packet samples self.sequence timestampUs) = value bytes ∧
        sends = true) : Healthy (self.step target config pass) := by
  unfold Sender.step
  split
  · exact healthy
  · exact .inr rfl
  · exact .inr rfl
  · exact healthy
  · rename_i samples timestampUs sends running
    obtain ⟨bytes, encoded, rfl⟩ := fits samples timestampUs sends rfl
    simp only [encoded, if_true]
    exact .inl running

theorem fittingSurvives (positive : 0 < samplesPerPacket)
    (fit : PacketsFit target config samplesPerPacket) :
    SenderSurvives target config samplesPerPacket := by
  intro passes carried
  induction passes using List.reverseRecOn with
  | nil => exact .inl rfl
  | append_singleton passes pass ih =>
    obtain ⟨⟨trySend, buffers, channel⟩, sized⟩ := carried
    rw [List.flatMap_append] at channel
    have healthy := ih ⟨⟨trySend, buffers, (List.prefix_append _ _).trans channel⟩,
      fun samples timestampUs sends inside => sized samples timestampUs sends
        (List.mem_append_left _ inside)⟩
    rw [senderLoop, List.foldl_append]
    refine stepHealthy healthy (fun samples timestampUs sends taken => ?_)
    subst taken
    have inside : samples ∈ (capture trySend samplesPerPacket buffers).channel :=
      channel.subset (List.mem_append_right _ (List.mem_singleton_self samples))
    have cut := (captureCuts trySend positive buffers).1.channel.subset inside
    obtain ⟨bytes, encoded, small⟩ := fit trySend buffers samples cut
      (senderLoop target config passes).sequence timestampUs
    refine ⟨bytes, encoded, ?_⟩
    rw [sized samples timestampUs sends (List.mem_append_right _ (List.mem_singleton_self _)) _ _
      encoded]
    exact decide_eq_true small

theorem onePacketCut {samples : List UInt32} (positive : 0 < samplesPerPacket)
    (whole : samples.length = samplesPerPacket) :
    capture (fun _ => true) samplesPerPacket [samples] = ⟨[], [samples], [samples]⟩ := by
  have done (passes : Nat) : Capture.cut (fun _ => true) samplesPerPacket passes
      ⟨[], [samples], [samples]⟩ = ⟨[], [samples], [samples]⟩ := by
    cases passes with
    | zero => rfl
    | succ passes => exact if_neg (Nat.not_le.mpr positive)
  obtain ⟨passes, rfl⟩ := Nat.exists_eq_add_one.mpr positive
  simp only [capture, List.foldl_cons, List.foldl_nil, Capture.callback, List.nil_append, whole]
  rw [Capture.cut, if_pos whole.ge]
  simp only [List.take_of_length_le whole.le, List.drop_of_length_le whole.le, List.nil_append,
    if_true]
  exact done passes

theorem fitExact (audible : 1 ≤ config.format.channels.toNat)
    (narrow : config.format.channels.toNat ≤ 255) (whole : 1 ≤ config.framesPerPacket.toNat)
    (size : samplesPerPacket = config.framesPerPacket.toNat * config.format.channels.toNat) :
    PacketsFit target config samplesPerPacket ↔ 28 + samplesPerPacket * 4 ≤ largestPayload := by
  have positive : 0 < samplesPerPacket := size ▸ Nat.mul_pos whole audible
  have encodable {samples : List UInt32} (long : samples.length = samplesPerPacket) sequence
      timestampUs : Encodable (config.packet samples sequence timestampUs) :=
    ⟨audible, narrow, whole, long.trans size⟩
  have length {samples : List UInt32} (long : samples.length = samplesPerPacket) sequence
      timestampUs : (datagram (config.packet samples sequence timestampUs)).length =
        28 + samplesPerPacket * 4 := by
    rw [datagramLength (encodable long sequence timestampUs), size]
    rfl
  constructor
  · intro fit
    have long : (List.replicate samplesPerPacket (0 : UInt32)).length = samplesPerPacket :=
      List.length_replicate
    obtain ⟨bytes, encoded, small⟩ := fit (fun _ => true) [List.replicate samplesPerPacket 0] _
      (by rw [onePacketCut positive long]; exact List.mem_singleton_self _) 0 0
    rw [((encodeValue target).mp encoded).2, length long] at small
    exact small
  · intro small trySend buffers samples cut sequence timestampUs
    have long := (captureCuts trySend positive buffers).1.sizes samples cut
    refine ⟨_, (encodeValue target).mpr ⟨encodable long sequence timestampUs, rfl⟩, ?_⟩
    rw [length long]
    exact small

theorem oversizedEnds (audible : 1 ≤ config.format.channels.toNat)
    (narrow : config.format.channels.toNat ≤ 255) (whole : 1 ≤ config.framesPerPacket.toNat)
    (size : samplesPerPacket = config.framesPerPacket.toNat * config.format.channels.toNat)
    (large : largestPayload < 28 + samplesPerPacket * 4) :
    ∃ passes, Carried target config samplesPerPacket passes ∧
      (senderLoop target config passes).result =
        some (error s!"failed to send audio to {config.server}") := by
  have positive : 0 < samplesPerPacket := size ▸ Nat.mul_pos whole audible
  obtain ⟨samples, long⟩ : ∃ samples : List UInt32, samples.length = samplesPerPacket :=
    ⟨List.replicate samplesPerPacket 0, List.length_replicate⟩
  have encodable sequence timestampUs : Encodable (config.packet samples sequence timestampUs) :=
    ⟨audible, narrow, whole, long.trans size⟩
  refine ⟨[.packet samples 0 false], ⟨⟨fun _ => true, [samples], ?_⟩, ?_⟩, ?_⟩
  · rw [onePacketCut positive long]
    exact List.prefix_refl _
  · intro other timestampUs sends inside sequence bytes encoded
    cases List.mem_singleton.mp inside
    obtain ⟨_, rfl⟩ := (encodeValue target).mp encoded
    rw [datagramLength (encodable sequence 0)]
    refine (decide_eq_false (Nat.not_le.mpr ?_)).symm
    rw [size] at large
    exact large
  · simp only [senderLoop, List.foldl_cons, List.foldl_nil, Sender.step,
      (encodeValue target).mpr ⟨encodable 0 0, rfl⟩, Bool.false_eq_true, if_false]

end Survival

section Sizes
variable {build : Build} {config : StreamConfig} {cli : Cli} {sizing : PacketSizing}

def durationFrames (build : Build) (config : StreamConfig) (cli : Cli) : Nat :=
  roundAsUsize build.target (Float.ofNat config.sampleRate.toNat * cli.packetMs / 1000.0)

theorem packetSizes (computed : computePacketSizing build config cli = value sizing) :
    sizing.channels = config.channels ∧
    sizing.framesPerPacket = max 1 (min (durationFrames build config cli) 65535) ∧
    sizing.samplesPerPacket = sizing.framesPerPacket * config.channels.toNat := by
  simp only [computePacketSizing, bindValue, pureValue, value.injEq] at computed
  obtain ⟨samples, multiplied, _, _, _, _, _, _, _, _, rfl⟩ := computed
  refine ⟨rfl, rfl, ?_⟩
  have width := config.channels.toNat_lt
  have room : 2 ^ 32 ≤ build.target.usizeLimit := by cases build.target <;> decide
  rw [← durationFrames] at multiplied ⊢
  have small := Nat.mul_le_mul (show max 1 (min (durationFrames build config cli) 65535) ≤ 65535 by
    omega) (Nat.le_of_lt_succ width)
  exact (mulExact multiplied).trans (Nat.mod_eq_of_lt (by omega))

theorem packetRate (computed : computePacketSizing build config cli = value sizing) :
    sizing.sampleRate = config.sampleRate := by
  simp only [computePacketSizing, bindValue, pureValue, value.injEq] at computed
  obtain ⟨samples, _, _, _, _, _, _, _, _, _, rfl⟩ := computed
  rfl

theorem sizeBound {channels duration : Nat} (audible : 1 ≤ channels) (narrow : channels ≤ 255) :
    28 + max 1 (min duration 65535) * channels * 4 ≤ largestPayload ↔ duration * channels ≤ 16369 := by
  unfold largestPayload
  rcases Nat.lt_or_ge 65535 duration with long | short
  · have most : max 1 (min duration 65535) = 65535 := by omega
    have many := Nat.mul_le_mul long.le audible
    rw [most]
    omega
  · rcases Nat.eq_zero_or_pos duration with rfl | some
    · simp only [Nat.zero_mul, Nat.zero_min, Nat.zero_le, Nat.max_eq_left, Nat.one_mul, iff_true]
      omega
    · have same : max 1 (min duration 65535) = duration := by omega
      rw [same]
      omega

theorem packetsSendable (build : Build) (config : StreamConfig) (cli : Cli) (sizing : PacketSizing)
    (server : String) (computed : computePacketSizing build config cli = value sizing)
    (audible : 1 ≤ config.channels.toNat) (narrow : config.channels.toNat ≤ 255) :
    PacketsFit build.target (senderConfig server sizing) sizing.samplesPerPacket ∧
      SenderSurvives build.target (senderConfig server sizing) sizing.samplesPerPacket ↔
      durationFrames build config cli * config.channels.toNat ≤ 16369 := by
  obtain ⟨width, frames, samples⟩ := packetSizes computed
  have count : (senderConfig server sizing).framesPerPacket.toNat = sizing.framesPerPacket :=
    UInt16.toNat_ofNat_of_lt' (by rw [frames]; change _ < 65536; omega)
  have channels : (senderConfig server sizing).format.channels = config.channels := width
  have whole : 1 ≤ (senderConfig server sizing).framesPerPacket.toNat := by
    rw [count, frames]
    exact Nat.le_max_left _ _
  have size : sizing.samplesPerPacket = (senderConfig server sizing).framesPerPacket.toNat *
      (senderConfig server sizing).format.channels.toNat := by rw [count, channels, samples]
  have positive : 0 < sizing.samplesPerPacket := by
    rw [size, channels]
    exact Nat.mul_pos whole audible
  rw [← sizeBound audible narrow, ← frames, ← samples]
  have fits : PacketsFit build.target (senderConfig server sizing) sizing.samplesPerPacket ↔ _ :=
    fitExact (channels ▸ audible) (channels ▸ narrow) whole size
  rw [← fits]
  exact ⟨And.left, fun fit => ⟨fit, fittingSurvives positive fit⟩⟩

theorem packetsSendableStereo : ∃ sizing,
    computePacketSizing ⟨.bits64, false⟩ ⟨48000, 2⟩ ⟨2.5, 250, 30⟩ = value sizing ∧
    PacketsFit .bits64 (senderConfig "127.0.0.1:5004" sizing) sizing.samplesPerPacket ∧
    SenderSurvives .bits64 (senderConfig "127.0.0.1:5004" sizing) sizing.samplesPerPacket :=
  ⟨_, rfl, (packetsSendable ⟨.bits64, false⟩ ⟨48000, 2⟩ ⟨2.5, 250, 30⟩ _ "127.0.0.1:5004" rfl
    (by decide) (by decide)).mpr (by decide)⟩

theorem packetsTooLarge : ¬ ∀ (build : Build) (config : StreamConfig) (cli : Cli)
    (sizing : PacketSizing) (server : String), checkPacketMs cli = value () →
    computePacketSizing build config cli = value sizing → 1 ≤ config.channels.toNat →
    config.channels.toNat ≤ 255 →
    PacketsFit build.target (senderConfig server sizing) sizing.samplesPerPacket ∧
      SenderSurvives build.target (senderConfig server sizing) sizing.samplesPerPacket := by
  intro sendable
  have both := sendable ⟨.bits64, false⟩ ⟨48000, 2⟩ ⟨200.0, 250, 30⟩ _ "127.0.0.1:5004" rfl rfl
    (by decide) (by decide)
  obtain ⟨passes, carried, ended⟩ := @oversizedEnds .bits64
    ⟨"127.0.0.1:5004", ⟨2, 48000⟩, 9600⟩ 19200 (by decide) (by decide) (by decide) rfl (by decide)
  rcases both.2 passes carried with running | stopped
  · have other := ended.symm.trans running
    contradiction
  · have other := ended.symm.trans stopped
    contradiction

end Sizes

end KaraokeAnything.Capturing
