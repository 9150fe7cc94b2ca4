import KaraokeAnything.Mdx23cRelay
import KaraokeAnything.Processors

/-! What the service relies on about every processor: a call answers packets it was
given, in order and once each, and changes neither its name nor its parameters. -/
namespace KaraokeAnything.Processors
open ByteOrder Config Kany Models Python Stateful
open SegmentedInference (InferenceOutcome headerOf)

/- The part of a packet its output repeats: all of it where the payload passes
through, the header where it is decoded. -/
def keyOf (name : String) (payload : Bytes) : Bytes :=
  if name = "passthrough" ∨ name = "delay-passthrough" then payload else payload.take headerSize

namespace Processor

def held : Processor → List Bytes
  | htdemucs self => SegmentedInference.heldHeaders self.base
  | convTasNet self => SegmentedInference.heldHeaders self.base
  | mdx23c self => Mdx23cVocals.heldHeaders self.base
  | _ => []

def unharvestable : Processor → Bool
  | htdemucs self => SegmentedInference.unharvestable self.base
  | convTasNet self => SegmentedInference.unharvestable self.base
  | mdx23c self => Mdx23cVocals.unharvestable self.base
  | _ => false

def Progress.self : Progress → Processor
  | .suspended self => self
  | .returned _ self => self
  | .raised _ self => self

def Progress.outputs : Progress → List ProcessedPacket
  | .returned outputs _ => outputs
  | _ => []

def Progress.consumed (key : Bytes) : Progress → List Bytes
  | .suspended _ => []
  | _ => [key]

structure Relays (given : List Bytes) (p : Processor) (outputs : List ProcessedPacket)
    (q : Processor) : Prop where
  order : (outputs.map (fun o => keyOf p.name o.payload) ++ q.held).Sublist (p.held ++ given)
  name : q.name = p.name
  parameters : q.parameters = p.parameters

theorem relaysNothing (given : List Bytes) (p : Processor) : Relays given p [] p :=
  ⟨List.sublist_append_left _ _, rfl, rfl⟩

theorem centreHeader {host : HostOrder} {reduction : Float} {payload : Bytes}
    {outputs : List ProcessedPacket}
    (ok : CentreReduction.process host reduction payload = .ok outputs) :
    outputs.map headerOf = [payload.take headerSize] := by
  obtain ⟨packet, decoded, ok⟩ := okBind.mp ok
  obtain ⟨decoded, _⟩ := SegmentedInference.decodeStereoOk.mp decoded
  obtain ⟨_, _, _, _, _, _, header, _⟩ := decodeFields decoded
  have count : (CentreReduction.reduceSamples reduction packet.samples).length =
      packet.channels * packet.frames := by
    rw [CentreReduction.reduceSamplesLength, packet.sampleCount]
  rw [SegmentedInference.encodeSamplesOk count] at ok
  cases ok
  rw [List.map_cons, List.map_nil, headerOf, List.take_left' packet.headerLength, header]
  rfl

theorem settledRelays (wrap : SegmentedInference.State → Processor) {given : List Bytes}
    {s : SegmentedInference.State}
    {call : Except PyError (List ProcessedPacket) × SegmentedInference.State}
    (key : ∀ payload, keyOf (wrap s).name payload = payload.take headerSize)
    (names : ∀ t, (wrap t).name = (wrap s).name)
    (holds : ∀ t, (wrap t).held = SegmentedInference.heldHeaders t)
    (tuning : ∀ t, t.segmentSeconds = s.segmentSeconds → (wrap t).parameters = (wrap s).parameters)
    (relays : SegmentedInference.Relays given s call) :
    Relays given (wrap s) (call.1.toOption.getD []) (wrap call.2) := by
  obtain ⟨order, seconds⟩ := relays
  refine ⟨?_, names _, tuning _ seconds⟩
  simp only [key, holds]
  exact order

theorem htdemucsRelays {self : HTDemucsProcessor} {given : List Bytes}
    {call : Except PyError (List ProcessedPacket) × SegmentedInference.State}
    (relays : SegmentedInference.Relays given self.base call) :
    Relays given (htdemucs self) (call.1.toOption.getD [])
      (htdemucs { self with base := call.2 }) :=
  settledRelays (fun base => htdemucs { self with base }) (fun _ => by simp [keyOf, name])
    (fun _ => rfl) (fun _ => rfl) (fun t seconds => by simp [parameters, seconds]) relays

theorem convTasNetRelays {self : ConvTasNetLyricsProcessor} {given : List Bytes}
    {call : Except PyError (List ProcessedPacket) × SegmentedInference.State}
    (relays : SegmentedInference.Relays given self.base call) :
    Relays given (convTasNet self) (call.1.toOption.getD [])
      (convTasNet { self with base := call.2 }) :=
  settledRelays (fun base => convTasNet { self with base }) (fun _ => by simp [keyOf, name])
    (fun _ => rfl) (fun _ => rfl) (fun t seconds => by simp [parameters, seconds]) relays

theorem mdx23cRelays {self : MDX23CVocalsProcessor} {given : List Bytes}
    {outputs : List ProcessedPacket} {base : Mdx23cVocals.State}
    (relays : Mdx23cVocals.Relays given self.base outputs base) :
    Relays given (mdx23c self) outputs (mdx23c { self with base }) := by
  obtain ⟨order, seconds, overlap, segments⟩ := relays
  refine ⟨?_, rfl, by simp [parameters, seconds, overlap, segments]⟩
  have key (payload : Bytes) : keyOf (mdx23c self).name payload = payload.take headerSize := by
    simp [keyOf, name]
  simp only [key]
  exact order

theorem decodedKey {p : Processor} (payload : Bytes)
    (decodes : p.name ≠ "passthrough" ∧ p.name ≠ "delay-passthrough") :
    keyOf p.name payload = payload.take headerSize := by
  simp [keyOf, decodes]

theorem processRelays (host : HostOrder) (p : Processor) (payload : Bytes) :
    Relays ((p.process host payload).consumed (keyOf p.name payload)) p
      (p.process host payload).outputs (p.process host payload).self := by
  cases p with
  | passthrough =>
    refine ⟨?_, rfl, rfl⟩
    simp [process, Progress.outputs, Progress.self, Progress.consumed, held]
  | delayPassthrough delay => exact relaysNothing _ _
  | null => exact relaysNothing _ _
  | centreReduction reduction =>
    simp only [process]
    cases ran : CentreReduction.process host reduction payload with
    | error e => exact relaysNothing _ _
    | ok outputs =>
      have header := centreHeader ran
      have keys (o : ProcessedPacket) : keyOf "stereo-centre-reduction" o.payload = headerOf o := by
        simp [keyOf, headerOf]
      refine ⟨?_, rfl, rfl⟩
      simp only [settled, Progress.outputs, Progress.self, Progress.consumed, name, keys, held, header]
      simp [keyOf]
  | htdemucs self =>
    have relays := htdemucsRelays
      (SegmentedInference.processRelays host SegmentedInference.htdemucs payload self.base)
    rw [decodedKey payload (by simp [name])]
    simp only [process]
    generalize exec (SegmentedInference.process host SegmentedInference.htdemucs payload)
      self.base = call at relays ⊢
    rcases call with ⟨result, t⟩
    cases result <;> exact relays
  | convTasNet self =>
    have relays := convTasNetRelays
      (SegmentedInference.processRelays host SegmentedInference.convTasNet payload self.base)
    rw [decodedKey payload (by simp [name])]
    simp only [process]
    generalize exec (SegmentedInference.process host SegmentedInference.convTasNet payload)
      self.base = call at relays ⊢
    rcases call with ⟨result, t⟩
    cases result <;> exact relays
  | mdx23c self =>
    have relays := mdx23cRelays (Mdx23cVocals.processRelays host payload self.base)
    rw [decodedKey payload (by simp [name])]
    simp only [process]
    generalize exec (Mdx23cVocals.process host payload) self.base = call at relays ⊢
    rcases call with ⟨result, t⟩
    cases result with
    | error e => exact relays
    | ok outputs => cases outputs <;> exact relays

theorem resumeRelays (p : Processor) (payload : Bytes) :
    Relays [keyOf p.name payload] p (p.resume payload).outputs (p.resume payload).self := by
  cases p with
  | delayPassthrough delay =>
    exact ⟨by simp [resume, Progress.outputs, Progress.self, held], rfl, rfl⟩
  | mdx23c self => exact ⟨List.nil_sublist _, rfl, rfl⟩
  | passthrough => exact relaysNothing _ _
  | null => exact relaysNothing _ _
  | centreReduction reduction => exact relaysNothing _ _
  | htdemucs self => exact relaysNothing _ _
  | convTasNet self => exact relaysNothing _ _

theorem interruptRelays (p : Processor) (payload : Bytes) :
    Relays [keyOf p.name payload] p (p.interrupt payload).outputs (p.interrupt payload).self := by
  cases p with
  | mdx23c self => exact resumeRelays (mdx23c self) payload
  | delayPassthrough delay => exact relaysNothing _ _
  | passthrough => exact relaysNothing _ _
  | null => exact relaysNothing _ _
  | centreReduction reduction => exact relaysNothing _ _
  | htdemucs self => exact relaysNothing _ _
  | convTasNet self => exact relaysNothing _ _

theorem flushRelays (host : HostOrder) (p : Processor) :
    Relays [] p ((p.flush host).1.toOption.getD []) (p.flush host).2 := by
  cases p with
  | htdemucs self =>
    exact htdemucsRelays (SegmentedInference.flushRelays host SegmentedInference.htdemucs self.base)
  | convTasNet self =>
    exact convTasNetRelays
      (SegmentedInference.flushRelays host SegmentedInference.convTasNet self.base)
  | mdx23c self => exact mdx23cRelays (Mdx23cVocals.flushRelays host self.base)
  | passthrough => exact relaysNothing _ _
  | null => exact relaysNothing _ _
  | delayPassthrough delay => exact relaysNothing _ _
  | centreReduction reduction => exact relaysNothing _ _

theorem flushFails (host : HostOrder) (p : Processor) :
    (∃ e, (p.flush host).1 = .error e) ↔ p.unharvestable = true := by
  cases p with
  | htdemucs self =>
    exact SegmentedInference.flushFails host SegmentedInference.htdemucs self.base
  | convTasNet self =>
    exact SegmentedInference.flushFails host SegmentedInference.convTasNet self.base
  | mdx23c self => exact Mdx23cVocals.flushFails host self.base
  | passthrough => simp [flush, unharvestable]
  | null => simp [flush, unharvestable]
  | delayPassthrough delay => simp [flush, unharvestable]
  | centreReduction reduction => simp [flush, unharvestable]

theorem beginResetRelays (p : Processor) : Relays [] p [] p.beginReset := by
  cases p <;> exact ⟨List.sublist_append_left _ _, rfl, rfl⟩

theorem endResetRelays (p : Processor) : Relays [] p [] p.endReset := by
  cases p <;> exact ⟨List.nil_sublist _, rfl, rfl⟩

theorem inferenceEndsRelays {outcome : InferenceOutcome} {p q : Processor}
    (ends : p.inferenceEnds outcome = some q) : Relays [] p [] q := by
  cases p with
  | htdemucs self =>
    obtain ⟨base, ended, rfl⟩ := Option.map_eq_some_iff.mp ends
    obtain ⟨segment, running, rfl⟩ := SegmentedInference.inferenceEnded ended
    exact ⟨List.sublist_append_left _ _, rfl, rfl⟩
  | convTasNet self =>
    obtain ⟨base, ended, rfl⟩ := Option.map_eq_some_iff.mp ends
    obtain ⟨segment, running, rfl⟩ := SegmentedInference.inferenceEnded ended
    exact ⟨List.sublist_append_left _ _, rfl, rfl⟩
  | mdx23c self =>
    obtain ⟨base, ended, rfl⟩ := Option.map_eq_some_iff.mp ends
    obtain ⟨segment, running, rfl⟩ := Mdx23cVocals.inferenceEnded ended
    exact ⟨List.sublist_append_left _ _, rfl, rfl⟩
  | passthrough => contradiction
  | null => contradiction
  | delayPassthrough delay => contradiction
  | centreReduction reduction => contradiction

@[simp] theorem setAttributeName (p : Processor) (attr : Attribute) (value : Float) :
    (p.setAttribute attr value).name = p.name := by
  cases p <;> cases attr <;> rfl

@[simp] theorem setAttributeHeld (p : Processor) (attr : Attribute) (value : Float) :
    (p.setAttribute attr value).held = p.held := by
  cases p <;> cases attr <;> rfl

end Processor

theorem createFresh {settings : Settings} {name : String} {p : Processor}
    (created : create settings name = .ok p) : p.name = name ∧ p.held = [] := by
  unfold create at created
  split at created
  · cases created; exact ⟨rfl, rfl⟩
  · cases created; exact ⟨rfl, rfl⟩
  · cases created; exact ⟨rfl, rfl⟩
  · rw [newCentreReduction] at created
    split at created
    · contradiction
    · cases created; exact ⟨rfl, rfl⟩
  · cases checked : HTDemucsConfig.checked _ with
    | error e => rw [checked] at created; contradiction
    | ok config => rw [checked] at created; cases created; exact ⟨rfl, rfl⟩
  · cases checked : ConvTasNetLyricsConfig.checked _ with
    | error e => rw [checked] at created; contradiction
    | ok config => rw [checked] at created; cases created; exact ⟨rfl, rfl⟩
  · cases checked : MDX23CVocalsConfig.checked _ with
    | error e => rw [checked] at created; contradiction
    | ok config => rw [checked] at created; cases created; exact ⟨rfl, rfl⟩
  · contradiction

theorem createName {settings : Settings} {name : String} {p : Processor}
    (created : create settings name = .ok p) : p.name = name := (createFresh created).1

theorem createHeld {settings : Settings} {name : String} {p : Processor}
    (created : create settings name = .ok p) : p.held = [] := (createFresh created).2

end KaraokeAnything.Processors
