import KaraokeAnything.Library.Runs
import KaraokeAnything.Playback
import KaraokeAnything.ProtocolExact

/-! The client from the sound card to the socket: the capture callback of
client/src/main.rs, the bounded channel it fills, and the sender of
client/src/network.rs that empties it. -/
namespace KaraokeAnything.Capturing
open ByteOrder Outcome Protocol WireFormat
open Playback (AudioFormat)

section Callback
variable {α : Type}

structure Capture (α : Type) where
  pending : List α := []
  packets : List (List α) := []
  channel : List (List α) := []

/- The loop of the callback. `trySend` says which calls of `packet_tx.try_send` succeed, the
first one being that of the first packet. Every pass shortens `pending`. -/
def Capture.cut (trySend : Nat → Bool) (samplesPerPacket : Nat) : Nat → Capture α → Capture α
  | 0, self => self
  | passes + 1, self =>
    if samplesPerPacket ≤ self.pending.length then
      let tail := self.pending.drop samplesPerPacket
      let packet := self.pending.take samplesPerPacket
      Capture.cut trySend samplesPerPacket passes {
        pending := tail
        packets := self.packets ++ [packet]
        channel := if trySend self.packets.length then self.channel ++ [packet] else self.channel }
    else self

def Capture.callback (trySend : Nat → Bool) (samplesPerPacket : Nat) (self : Capture α)
    (data : List α) : Capture α :=
  let pending := self.pending ++ data
  Capture.cut trySend samplesPerPacket pending.length { self with pending }

def capture (trySend : Nat → Bool) (samplesPerPacket : Nat) (buffers : List (List α)) : Capture α :=
  buffers.foldl (Capture.callback trySend samplesPerPacket) {}

end Callback

section Sender

structure SenderConfig where
  server : String
  format : AudioFormat
  framesPerPacket : UInt16

def SenderConfig.packet (config : SenderConfig) (samples : List UInt32) (sequence : UInt32)
    (timestampUs : UInt64) : AudioPacket where
  channels := config.format.channels
  sampleRate := config.format.sampleRate
  sequence := sequence
  timestampUs := timestampUs
  frames := config.framesPerPacket
  samples := samples

inductive Pass where
  | stopped
  | packet (samples : List UInt32) (timestampUs : UInt64) (sends : Bool)
  | timeout
  | disconnected

structure Sent where
  packet : AudioPacket
  datagram : Bytes
  deriving DecidableEq

structure Sender where
  sequence : UInt32 := 0
  sent : List Sent := []
  result : Option (Outcome Unit) := none

def Sender.step (target : Target) (config : SenderConfig) (self : Sender) (pass : Pass) : Sender :=
  match self.result, pass with
  | some _, _ => self
  | none, .stopped | none, .disconnected => { self with result := some (value ()) }
  | none, .timeout => self
  | none, .packet samples timestampUs sends =>
    let packet := config.packet samples self.sequence timestampUs
    match encodePacket target packet with
    | error message => { self with result := some (error message) }
    | aborted => { self with result := some aborted }
    | value datagram =>
      if sends then { self with sequence := self.sequence + 1, sent := self.sent ++ [⟨packet, datagram⟩] }
      else { self with result := some (error s!"failed to send audio to {config.server}") }

def senderLoop (target : Target) (config : SenderConfig) (passes : List Pass) : Sender :=
  passes.foldl (Sender.step target config) {}

end Sender

section Captured
variable {α : Type} {trySend : Nat → Bool} {samplesPerPacket : Nat}

structure Cuts (samplesPerPacket : Nat) (samples : List α) (cut : Capture α) : Prop where
  order : cut.packets.flatten ++ cut.pending = samples
  sizes : ∀ packet ∈ cut.packets, packet.length = samplesPerPacket
  channel : cut.channel.Sublist cut.packets

theorem cutCuts {samples : List α} (positive : 0 < samplesPerPacket) (passes : Nat)
    {self : Capture α} (enough : self.pending.length ≤ passes)
    (cuts : Cuts samplesPerPacket samples self) :
    Cuts samplesPerPacket samples (self.cut trySend samplesPerPacket passes) ∧
      (self.cut trySend samplesPerPacket passes).pending.length < samplesPerPacket := by
  induction passes generalizing self with
  | zero => exact ⟨cuts, by rw [Capture.cut]; omega⟩
  | succ passes ih =>
    rw [Capture.cut]
    split
    · rename_i full
      refine ih (by simp only [List.length_drop]; omega) ⟨?_, ?_, ?_⟩
      · rw [List.flatten_append, List.flatten_singleton, List.append_assoc, List.take_append_drop]
        exact cuts.order
      · intro packet inside
        rcases List.mem_append.mp inside with old | new
        · exact cuts.sizes packet old
        · rw [List.mem_singleton.mp new, List.length_take, Nat.min_eq_left full]
      · split
        · exact cuts.channel.append_right _
        · exact cuts.channel.trans (List.sublist_append_left _ _)
    · rename_i short
      exact ⟨cuts, Nat.not_le.mp short⟩

theorem captureCuts (trySend : Nat → Bool) (positive : 0 < samplesPerPacket)
    (buffers : List (List α)) :
    Cuts samplesPerPacket buffers.flatten (capture trySend samplesPerPacket buffers) ∧
      (capture trySend samplesPerPacket buffers).pending.length < samplesPerPacket := by
  induction buffers using List.reverseRecOn with
  | nil => exact ⟨⟨rfl, nofun, List.Sublist.refl _⟩, positive⟩
  | append_singleton buffers data ih =>
    obtain ⟨cuts, _⟩ := ih
    rw [capture, List.foldl_append, ← capture, List.flatten_append, List.flatten_singleton]
    refine cutCuts positive _ (Nat.le_refl _) ⟨?_, cuts.sizes, cuts.channel⟩
    rw [← cuts.order, List.append_assoc]

end Captured

section Datagrams
variable {target : Target} {config : SenderConfig} {passes : List Pass}

def Pass.received : Pass → List (List UInt32)
  | .packet samples _ _ => [samples]
  | _ => []

structure Sends (config : SenderConfig) (passes : List Pass) (sender : Sender) : Prop where
  sequence : sender.result = none → sender.sequence = UInt32.ofNat sender.sent.length
  numbered : ∀ i entry, sender.sent[i]? = some entry → entry.packet.sequence = UInt32.ofNat i
  encoded : ∀ entry ∈ sender.sent, Encodable entry.packet ∧ entry.datagram = datagram entry.packet ∧
    entry.packet.channels = config.format.channels ∧
    entry.packet.sampleRate = config.format.sampleRate
  received : sender.sent.map (·.packet.samples) <+: passes.flatMap Pass.received
  alive : sender.result = none → sender.sent.map (·.packet.samples) = passes.flatMap Pass.received

theorem quietSends {self next : Sender} {pass : Pass} (sends : Sends config passes self)
    (sent : next.sent = self.sent)
    (ceased : next.result ≠ none ∨ self.result = none ∧ next.sequence = self.sequence ∧ pass.received = []) :
    Sends config (passes ++ [pass]) next := by
  refine ⟨?_, ?_, ?_, ?_, ?_⟩
  · intro none
    rcases ceased with ended | ⟨running, same, _⟩
    · exact absurd none ended
    · rw [same, sent, sends.sequence running]
  · rw [sent]
    exact sends.numbered
  · rw [sent]
    exact sends.encoded
  · rw [sent, List.flatMap_append]
    exact sends.received.trans (List.prefix_append _ _)
  · intro none
    rcases ceased with ended | ⟨running, _, silent⟩
    · exact absurd none ended
    · rw [sent, sends.alive running, List.flatMap_append, List.flatMap_singleton, silent,
        List.append_nil]

theorem stepSends {self : Sender} (sends : Sends config passes self) (pass : Pass) :
    Sends config (passes ++ [pass]) (self.step target config pass) := by
  unfold Sender.step
  split
  · rename_i result ended
    exact quietSends sends rfl (.inl (by simp [ended]))
  · exact quietSends sends rfl (.inl (by simp))
  · exact quietSends sends rfl (.inl (by simp))
  · rename_i running
    exact quietSends sends rfl (.inr ⟨running, rfl, rfl⟩)
  · rename_i samples timestampUs succeeds running
    simp only
    split
    · exact quietSends sends rfl (.inl (by simp))
    · exact quietSends sends rfl (.inl (by simp))
    · rename_i bytes encoded
      obtain ⟨encodable, rfl⟩ := (encodeValue target).mp encoded
      split
      · have number := sends.sequence running
        refine ⟨fun _ => ?_, fun i entry found => ?_, fun entry inside => ?_, ?_, fun _ => ?_⟩
        · simp only [number, List.length_append, List.length_singleton, UInt32.ofNat_add]
          rfl
        · rcases Runs.foundSnoc found with old | ⟨rfl, rfl⟩
          · exact sends.numbered i entry old
          · exact number
        · rcases List.mem_append.mp inside with old | new
          · exact sends.encoded entry old
          · rw [List.mem_singleton.mp new]
            exact ⟨encodable, rfl, rfl, rfl⟩
        · rw [List.map_append, List.flatMap_append, sends.alive running]
          exact List.prefix_refl _
        · rw [List.map_append, List.flatMap_append, sends.alive running]
          rfl
      · exact quietSends sends rfl (.inl (by simp))

theorem senderSends (target : Target) (config : SenderConfig) (passes : List Pass) :
    Sends config passes (senderLoop target config passes) := by
  induction passes using List.reverseRecOn with
  | nil => exact ⟨fun _ => rfl, nofun, nofun, List.prefix_refl _, fun _ => rfl⟩
  | append_singleton passes pass ih =>
    rw [senderLoop, List.foldl_append]
    exact stepSends ih pass

end Datagrams

end KaraokeAnything.Capturing
