import Mathlib.Data.List.Chain
import KaraokeAnything.CaptureDelivery

/-! The sequence numbers of a sender at a receiver: which datagrams the receiver calls a
discontinuity, whatever was lost before them and whatever strays in between. -/
namespace KaraokeAnything.Capturing
open ByteOrder Outcome Protocol
open Playback (Receiver ReceiverConfig accepts handleAccepts handleDatagram handleIgnores)

section Reports

inductive Report where
  | invalidPacket (message : String)
  | incompatiblePacket (sampleRate : UInt32) (channels : UInt16)
  | sequenceDiscontinuity (expected received : UInt32)
  deriving DecidableEq, Repr

def Report.text : Report → String
  | invalidPacket message => s!"ignored invalid packet: {message}"
  | incompatiblePacket sampleRate channels =>
    s!"ignored incompatible packet: {sampleRate}Hz/{channels}ch"
  | sequenceDiscontinuity expected received =>
    s!"sequence discontinuity: expected {expected}, received {received}"

def reports (target : Target) (config : ReceiverConfig) (data : Bytes)
    (expectedSequence : Option UInt32) : List Report :=
  match decodePacket target data with
  | aborted => []
  | error message => [.invalidPacket message]
  | value packet =>
    if packet.channels ≠ config.format.channels ∨ packet.sampleRate ≠ config.format.sampleRate then
      [.incompatiblePacket packet.sampleRate packet.channels]
    else match expectedSequence with
      | none => []
      | some expected =>
        if packet.sequence ≠ expected then [.sequenceDiscontinuity expected packet.sequence] else []

def Discontinuous (printed : List Report) : Prop :=
  ∃ expected received, .sequenceDiscontinuity expected received ∈ printed

theorem ignoredContinuous {target : Target} {config : ReceiverConfig} {data : Bytes}
    (ignored : accepts target config data = none) (expected : Option UInt32) :
    ¬ Discontinuous (reports target config data expected) := by
  rintro ⟨wanted, received, printed⟩
  unfold reports at printed
  unfold accepts at ignored
  split at printed
  · contradiction
  · cases List.mem_singleton.mp printed
  · rename_i packet decoded
    simp only [decoded] at ignored
    split at printed
    · cases List.mem_singleton.mp printed
    · rename_i same
      rw [if_pos (by tauto)] at ignored
      contradiction

theorem acceptedReports {target : Target} {config : ReceiverConfig} {data : Bytes}
    {packet : AudioPacket} (accepted : accepts target config data = some packet)
    (expected : Option UInt32) : Discontinuous (reports target config data expected) ↔
      ∃ wanted, expected = some wanted ∧ packet.sequence ≠ wanted := by
  unfold accepts at accepted
  cases decoded : decodePacket target data with
  | aborted => simp [decoded] at accepted
  | error message => simp [decoded] at accepted
  | value other =>
    simp only [decoded] at accepted
    split at accepted
    · rename_i format
      cases Option.some.inj accepted
      simp only [reports, decoded, format.1, format.2, ne_eq, not_true_eq_false, or_self, if_false]
      cases expected with
      | none => simp [Discontinuous]
      | some wanted => by_cases same : packet.sequence = wanted <;> simp [Discontinuous, same]
    · contradiction

end Reports

section Arrivals

inductive Arrival where
  | sent (i : Nat) (entry : Sent)
  | stray (data : Bytes)

def Arrival.data : Arrival → Bytes
  | sent _ entry => entry.datagram
  | stray data => data

def Arrival.index : Arrival → Option Nat
  | sent i _ => some i
  | stray _ => none

def indices (arrivals : List Arrival) : List Nat := arrivals.filterMap Arrival.index

/- A part of what was sent, in its order and with fewer losses in a row than there are
sequence numbers, among datagrams that the receiver ignores. -/
structure Delivered (target : Target) (config : ReceiverConfig) (sent : List Sent)
    (arrivals : List Arrival) : Prop where
  sent : ∀ i entry, .sent i entry ∈ arrivals → sent[i]? = some entry
  losses : (indices arrivals).IsChain (fun earlier i => earlier < i ∧ i - (earlier + 1) < 2 ^ 32)
  strays : ∀ data, .stray data ∈ arrivals → accepts target config data = none

def received (target : Target) (config : ReceiverConfig) (arrivals : List Arrival) :
    Receiver UInt32 :=
  arrivals.foldl (fun receiver arrival =>
    (handleDatagram target (·.samples) config arrival.data receiver).2) {}

theorem deliveredPrefix {target : Target} {config : ReceiverConfig} {sent : List Sent}
    {before arrivals : List Arrival} (cut : before <+: arrivals)
    (delivered : Delivered target config sent arrivals) : Delivered target config sent before where
  sent i entry inside := delivered.sent i entry (cut.subset inside)
  losses := delivered.losses.prefix (cut.filterMap _)
  strays data inside := delivered.strays data (cut.subset inside)

end Arrivals

section Tracking
variable {target : Target} {config : SenderConfig} {passes : List Pass} {maxSamples : Nat}
  {arrivals : List Arrival}

theorem receivedTracks (delivered : Delivered target ⟨config.format, maxSamples⟩
      (senderLoop target config passes).sent arrivals) :
    let receiver := received target ⟨config.format, maxSamples⟩ arrivals
    receiver.queue.poisoned = false ∧ receiver.expectedSequence =
      (indices arrivals).getLast?.map (fun last => UInt32.ofNat (last + 1)) := by
  have sends := senderSends target config passes
  induction arrivals using List.reverseRecOn with
  | nil => exact ⟨rfl, rfl⟩
  | append_singleton arrivals arrival ih =>
    obtain ⟨alive, expected⟩ := ih (deliveredPrefix (List.prefix_append _ _) delivered)
    have last : arrival ∈ arrivals ++ [arrival] := List.mem_append_right _ (List.mem_singleton.mpr rfl)
    rw [received, List.foldl_append, ← received, indices, List.filterMap_append, ← indices]
    simp only [List.foldl_cons, List.foldl_nil]
    cases arrival with
    | stray data =>
      simp only [Arrival.data, handleIgnores (delivered.strays data last), List.filterMap_cons,
        Arrival.index, List.filterMap_nil, List.append_nil]
      exact ⟨alive, expected⟩
    | sent i entry =>
      have found := delivered.sent i entry last
      have accepted := sentAccepted sends (List.mem_of_getElem? found) target maxSamples
      simp only [Arrival.data, handleAccepts accepted _ alive, List.filterMap_cons, Arrival.index,
        List.filterMap_nil, List.getLast?_append, List.getLast?_singleton, Option.some_or,
        Option.map_some, sends.numbered i entry found]
      exact ⟨alive, congrArg some (UInt32.ofNat_add i 1).symm⟩

theorem numbersDiffer {earlier i : Nat} (order : earlier < i) (near : i - (earlier + 1) < 2 ^ 32) :
    UInt32.ofNat i ≠ UInt32.ofNat (earlier + 1) ↔ earlier + 1 < i := by
  rw [ne_eq, ← UInt32.toNat_inj, UInt32.toNat_ofNat', UInt32.toNat_ofNat']
  omega

theorem sequenceTracked (target : Target) (config : SenderConfig) (passes : List Pass)
    (maxSamples : Nat) :
    let sent := (senderLoop target config passes).sent
    sent.map (·.packet.samples) <+: passes.flatMap Pass.received ∧
    (∀ i entry, sent[i]? = some entry → WireFormat.sequence entry.datagram = i % 2 ^ 32) ∧
    ∀ arrivals, Delivered target ⟨config.format, maxSamples⟩ sent arrivals →
      ∀ before arrival, before ++ [arrival] <+: arrivals →
        let expected := (received target ⟨config.format, maxSamples⟩ before).expectedSequence
        Discontinuous (reports target ⟨config.format, maxSamples⟩ arrival.data expected) ↔
          ∃ i entry earlier, arrival = .sent i entry ∧
            (indices before).getLast? = some earlier ∧ earlier + 1 < i := by
  have sends := senderSends target config passes
  refine ⟨sends.received, fun i entry found => ?_, fun arrivals delivered before arrival cut => ?_⟩
  · obtain ⟨_, same, _⟩ := sends.encoded entry (List.mem_of_getElem? found)
    rw [same, (datagramFields _).2.2.2.2.2.2.1, sends.numbered i entry found, UInt32.toNat_ofNat']
  · have whole := deliveredPrefix cut delivered
    have last : arrival ∈ before ++ [arrival] := List.mem_append_right _ (List.mem_singleton.mpr rfl)
    obtain ⟨_, expected⟩ := receivedTracks (deliveredPrefix (List.prefix_append _ _) whole)
    simp only [expected]
    cases arrival with
    | stray data => simp [Arrival.data, ignoredContinuous (whole.strays data last)]
    | sent i entry =>
      have found := whole.sent i entry last
      have accepted := sentAccepted sends (List.mem_of_getElem? found) target maxSamples
      have losses := whole.losses
      simp only [indices, List.filterMap_append, List.filterMap_cons, Arrival.index,
        List.filterMap_nil] at losses
      simp only [Arrival.data, acceptedReports accepted, sends.numbered i entry found]
      cases front : (indices before).getLast? with
      | none => simp
      | some earlier =>
        obtain ⟨order, near⟩ := (List.isChain_append.mp losses).2.2 earlier front i rfl
        simp only [Option.map_some, Option.some.injEq, exists_eq_left', numbersDiffer order near,
          Arrival.sent.injEq]
        constructor
        · exact fun lost => ⟨i, entry, earlier, ⟨rfl, rfl⟩, rfl, lost⟩
        · rintro ⟨_, _, _, ⟨rfl, rfl⟩, rfl, lost⟩
          exact lost

def three : List Pass := List.replicate 3 (.packet [1, 2, 3, 4] 0 true)

theorem sequenceTrackedLoss : ∃ first last,
    (senderLoop .bits64 stereo three).sent[0]? = some first ∧
    (senderLoop .bits64 stereo three).sent[2]? = some last ∧
    Discontinuous (reports .bits64 ⟨stereo.format, 8⟩ last.datagram
      (received .bits64 ⟨stereo.format, 8⟩ [.sent 0 first, .stray [75]]).expectedSequence) := by
  refine ⟨_, _, rfl, rfl, ?_⟩
  refine ((sequenceTracked .bits64 stereo three 8).2.2 [.sent 0 _, .stray [75], .sent 2 _] ?_
    [.sent 0 _, .stray [75]] (.sent 2 _) (List.prefix_refl _)).mpr ⟨2, _, 0, rfl, rfl, by decide⟩
  refine ⟨fun i entry inside => ?_, by decide, fun data inside => ?_⟩
  · simp only [List.mem_cons, Arrival.sent.injEq, reduceCtorEq, List.not_mem_nil, or_false,
      false_or] at inside
    rcases inside with ⟨rfl, rfl⟩ | ⟨rfl, rfl⟩ <;> rfl
  · simp only [List.mem_cons, Arrival.stray.injEq, reduceCtorEq, List.not_mem_nil, or_false,
      false_or] at inside
    rw [inside]
    rfl

end Tracking

end KaraokeAnything.Capturing
