import KaraokeAnything.ClientThreads

/-! What a client does from its negotiation on, in whatever order its callbacks and threads
run: what it captures, sends and plays, and that Ctrl-C ends it. -/
namespace KaraokeAnything.Streaming
open ByteOrder Capturing Devices Outcome Protocol
open Playback (Build PacketSizing StreamConfig accepts clientRun computePacketSizing)
open Runs Settling

section Sessions
variable {δ : Type} {build : Build} {host : Host δ} {cli : Cli} {session : Session δ}

structure Agreed (build : Build) (host : Host δ) (cli : Cli) (session : Session δ) : Prop where
  negotiated : Negotiated host cli session.devices
  server : session.sender.server = cli.server
  channels : session.sender.format.channels = session.devices.inputConfig.channels
  sampleRate : session.sender.format.sampleRate = session.devices.inputConfig.sampleRate
  streams : session.devices.outputConfig = session.devices.inputConfig
  format : session.receiver.format = session.sender.format
  frames : 1 ≤ session.sender.framesPerPacket.toNat
  samples : session.sizing.samplesPerPacket =
    session.sender.framesPerPacket.toNat * session.sender.format.channels.toNat

theorem sessionAgreed (complete : setUp build host cli = value session) :
    Agreed build host cli session := by
  simp only [setUp, bindValue, pureValue, Outcome.value.injEq] at complete
  obtain ⟨_, _, devices, negotiated, sizing, computed, rfl⟩ := complete
  obtain ⟨width, frames, samples⟩ := packetSizes computed
  have count : (senderConfig cli.server sizing).framesPerPacket.toNat = sizing.framesPerPacket :=
    UInt16.toNat_ofNat_of_lt' (by rw [frames]; change _ < 65536; omega)
  have agreed := negotiatesExactly.mp negotiated
  have streams : devices.outputConfig = devices.inputConfig := by
    cases outputs : devices.outputConfig
    cases inputs : devices.inputConfig
    have formats := agreed.formats
    rw [outputs, inputs] at formats
    cases formats.1
    cases formats.2
    rfl
  refine ⟨agreed, rfl, width, packetRate computed, streams, rfl, ?_, ?_⟩
  · rw [count, frames]
    exact Nat.le_max_left _ _
  · rw [count, samples]
    exact congrArg (_ * UInt16.toNat ·) width.symm

end Sessions

section Streams
variable {target : Target} {config : SenderConfig} {passes : List Pass}

/- Whole packets of at most 255 channels are encoded, so only the socket can end the sender
badly. -/
theorem senderEnds (audible : 1 ≤ config.format.channels.toNat)
    (narrow : config.format.channels.toNat ≤ 255) (frames : 1 ≤ config.framesPerPacket.toNat)
    (whole : ∀ samples ∈ passes.flatMap Pass.received,
      samples.length = config.framesPerPacket.toNat * config.format.channels.toNat)
    {result : Outcome Unit} (ended : (senderLoop target config passes).result = some result) :
    result = value () ∨ result = error s!"failed to send audio to {config.server}" := by
  induction passes using List.reverseRecOn generalizing result with
  | nil => contradiction
  | append_singleton passes pass ih =>
    rw [List.flatMap_append] at whole
    have earlier := @ih fun samples inside => whole samples (List.mem_append_left _ inside)
    rw [senderSnoc] at ended
    generalize senderLoop target config passes = self at earlier ended
    unfold Sender.step at ended
    split at ended
    · rename_i old
      exact earlier (old ▸ ended)
    · exact .inl (Option.some.inj ended).symm
    · exact .inl (Option.some.inj ended).symm
    · rename_i running
      rw [running] at ended
      contradiction
    · rename_i samples timestampUs sends running
      have encodable : Encodable (config.packet samples self.sequence timestampUs) :=
        ⟨audible, narrow, frames, whole samples (List.mem_append_right _ (by simp [Pass.received]))⟩
      simp only [(encodeValue target).mpr ⟨encodable, rfl⟩] at ended
      split at ended
      · rw [running] at ended
        contradiction
      · exact .inr (Option.some.inj ended).symm

variable {δ : Type} {build : Build} {host : Host δ} {cli : Cli} {session : Session δ}
  {events : List Event} {c : Client}

structure Streams (build : Build) (cli : Cli) (session : Session δ) (events : List Event) (c : Client) : Prop where
  captured : c.capture.packets.flatten ++ c.capture.pending = events.flatMap Event.data
  sizes : ∀ packet ∈ c.capture.packets, packet.length = session.sizing.samplesPerPacket
  room : c.channel.length ≤ channelBound
  sent : (c.sender.sent.map (·.packet.samples)).Sublist c.capture.packets
  waiting : c.sender.result = none →
    (c.sender.sent.map (·.packet.samples) ++ c.channel).Sublist c.capture.packets
  numbered : ∀ i entry, c.sender.sent[i]? = some entry → entry.packet.sequence = UInt32.ofNat i
  accepted : ∀ entry ∈ c.sender.sent,
    accepts build.target session.receiver entry.datagram = some entry.packet
  playback : c.playback = clientRun build.target session.receiver session.sizing.prebufferSamples
    (events.filterMap Event.heard)
  result : ∀ result, c.main = .returned result → c.running = false ∧
    (result = value () ∨ result = error s!"failed to send audio to {cli.server}" ∨
      result = error "failed receiving audio")

theorem clientStreams (complete : setUp build host cli = value session)
    (audible : 1 ≤ session.sender.format.channels.toNat)
    (narrow : session.sender.format.channels.toNat ≤ 255)
    (ran : run (step (session.params build)) (started (session.params build)) events = some c) :
    Agreed build host cli session ∧ Streams build cli session events c := by
  have agreed := sessionAgreed complete
  have coherent := runCoherent ran
  obtain ⟨captured, heard⟩ := runLogged ran
  have sends := senderSends build.target session.sender c.log.passes
  have same : c.sender = senderLoop build.target session.sender c.log.passes := coherent.sender
  rw [← same] at sends
  have taken := (sends.received.trans coherent.received).sublist.trans coherent.cuts.channel
  have whole : ∀ samples ∈ c.log.passes.flatMap Pass.received, samples.length =
      session.sender.framesPerPacket.toNat * session.sender.format.channels.toNat := by
    intro samples inside
    rw [← agreed.samples]
    exact coherent.cuts.sizes samples (coherent.cuts.channel.subset (coherent.received.subset inside))
  refine ⟨agreed, ⟨captured ▸ coherent.cuts.order, coherent.cuts.sizes, coherent.room, taken,
    fun alive => ?_, sends.numbered, fun entry inside => ?_, heard ▸ coherent.playback,
    fun result main => ?_⟩⟩
  · rw [sends.alive alive, coherent.flow alive]
    exact coherent.cuts.channel
  · have maxSamples := sentAccepted sends inside build.target session.receiver.maxSamples
    rwa [← agreed.format] at maxSamples
  · have holds := coherent.main
    rw [main] at holds
    obtain ⟨stopped, sender, ended, joins⟩ := holds
    refine ⟨stopped, ?_⟩
    have ends := senderEnds audible narrow agreed.frames whole (same ▸ ended)
    split at joins
    · obtain ⟨receiver, finished, rfl⟩ := joins
      rcases coherent.receives receiver finished with ⟨rfl, _⟩ | rfl
      · exact .inl rfl
      · exact .inr (.inr rfl)
    · rename_i failed
      rcases ends with rfl | rfl
      · exact absurd rfl failed
      · rw [agreed.server] at joins
        exact .inr (.inl joins)

def desktop : Host Bool where
  withSampleRate range rate := value ⟨range.channels, rate, range.sampleFormat⟩
  config supported := ⟨supported.sampleRate, supported.channels⟩
  inRange _ _ _ _ := rfl
  sameFormat _ := rfl
  devices _ := some [true, false]
  defaultDevice _ := some true
  name device := some (if device then "Monitor" else "Microphone")
  supportedConfigs _ _ := some [⟨2, 44100, 48000, .f32⟩]
  defaultConfig _ _ := none
  toLowercase := id

def release : Build := ⟨.bits64, false⟩

def brief : Cli := { packetMs := 0.02 }

def talking : List Event := [.captured [1, 2, 3], .cuts, .senderChecks, .sender 7 true,
  .captured [4], .ctrlC, .cuts, .main]

theorem clientStreamsBrief : ∃ session c, setUp release desktop brief = value session ∧
    run (step (session.params release)) (started (session.params release)) talking = some c ∧
    Agreed release desktop brief session ∧ Streams release brief session talking c := by
  refine ⟨_, _, rfl, rfl, ?_⟩
  exact @clientStreams Bool release desktop brief _ talking _ rfl (by decide) (by decide) rfl

end Streams

section Stops
variable {params : Params} {c d : Client}

def threadWork (result : Option (Outcome Unit)) (inside : Bool) : Nat :=
  match result with
  | some _ => 0
  | none => if inside then 2 else 1

def Main.work : Main → Nat
  | .streaming => 3
  | .joiningSender => 2
  | .joiningReceiver => 1
  | .returned _ => 0

def Client.senderWork (c : Client) : Nat := threadWork c.sender.result c.senderInside

def Client.receiverWork (c : Client) : Nat := threadWork c.receiverResult c.receiverInside

def work (c : Client) : Nat :=
  c.capture.pending.length + c.senderWork + c.receiverWork + c.main.work

def Event.advances : Event → Bool
  | .cuts | .senderChecks | .sender _ _ | .receiverChecks | .receiver _ | .main => true
  | .captured _ | .plays _ | .ctrlC => false

def Event.Inner : Event → Prop
  | .captured _ => False
  | _ => True

theorem sentWork (c : Client) (pass : Pass) (rest : List (List UInt32)) :
    (sent params c pass rest).senderWork ≤ 1 := by
  change threadWork (sent params c pass rest).sender.result false ≤ 1
  cases (sent params c pass rest).sender.result with
  | none => exact Nat.le_refl _
  | some result => exact Nat.zero_le _

theorem sentRest (c : Client) (pass : Pass) (rest : List (List UInt32)) :
    work (sent params c pass rest) =
      c.capture.pending.length + (sent params c pass rest).senderWork + c.receiverWork + c.main.work :=
  rfl

theorem movesLower {event : Event} (positive : 0 < params.samplesPerPacket)
    (stopped : c.running = false) (advances : event.advances = true) (moves : Moves params c event d) :
    work d < work c := by
  cases moves with
  | captures | plays | interrupted => contradiction
  | cuts full =>
    have shorter : (cuts params c).capture.pending.length < c.capture.pending.length := by
      simp only [cuts, Capture.cut, if_pos full, List.length_drop]
      omega
    change (cuts params c).capture.pending.length + c.senderWork + c.receiverWork + c.main.work < _
    rw [work]
    omega
  | senderChecks alive outside =>
    have ends : senderChecks params c = sent params c .stopped c.channel :=
      if_neg (by simp [stopped])
    have gone : (sent params c .stopped c.channel).senderWork = 0 := by
      simp [Client.senderWork, threadWork, sent, Sender.step, alive]
    have head : c.senderWork = 1 := by simp [Client.senderWork, threadWork, alive, outside]
    rw [ends, sentRest, work]
    omega
  | sends timestampUs sends alive inside =>
    have inner : c.senderWork = 2 := by simp [Client.senderWork, threadWork, alive, inside]
    obtain ⟨pass, rest, same⟩ : ∃ pass rest, senderStep params c timestampUs sends =
        sent params c pass rest := by
      unfold senderStep
      split <;> exact ⟨_, _, rfl⟩
    have head := @sentWork params c pass rest
    rw [same, sentRest, work]
    omega
  | receiverChecks alive outside =>
    have ends : receiverChecks c = { c with receiverResult := some (value ()) } :=
      if_neg (by simp [stopped])
    have head : c.receiverWork = 1 := by simp [Client.receiverWork, threadWork, alive, outside]
    rw [ends]
    change c.capture.pending.length + c.senderWork + 0 + c.main.work < _
    rw [work]
    omega
  | receives received alive inside =>
    have inner : c.receiverWork = 2 := by simp [Client.receiverWork, threadWork, alive, inside]
    have head : (receiverStep params c received).receiverWork ≤ 1 := by
      cases received with
      | timeout => simp [receiverStep, Client.receiverWork, threadWork, alive]
      | failed => exact Nat.zero_le _
      | datagram data =>
        change threadWork _ false ≤ 1
        cases (receiverStep params c (.datagram data)).receiverResult with
        | none => exact Nat.le_refl _
        | some result => exact Nat.zero_le _
    have others : work (receiverStep params c received) = c.capture.pending.length + c.senderWork +
        (receiverStep params c received).receiverWork + c.main.work := by
      cases received <;> rfl
    rw [others, work]
    omega
  | drops main stopped =>
    change c.capture.pending.length + c.senderWork + c.receiverWork + 2 < _
    rw [work, main, Main.work]
    omega
  | joinsSender result main ended =>
    change c.capture.pending.length + c.senderWork + c.receiverWork + (afterSender result).work < _
    have later : (afterSender result).work ≤ 1 := by
      cases result <;> first | exact Nat.le_refl _ | exact Nat.zero_le _
    rw [work, main, Main.work]
    omega
  | joinsReceiver result main ended =>
    change c.capture.pending.length + c.senderWork + c.receiverWork + 0 < _
    rw [work, main, Main.work]
    omega

theorem stoppedKept {event : Event} (stopped : c.running = false) (moves : Moves params c event d) :
    d.running = false := by
  cases moves with
  | senderChecks alive outside =>
    have ends : senderChecks params c = sent params c .stopped c.channel :=
      if_neg (by simp [stopped])
    rw [ends]
    exact stopped
  | sends timestampUs sends alive inside =>
    unfold senderStep
    split <;> exact stopped
  | receiverChecks alive outside =>
    unfold receiverChecks
    split <;> exact stopped
  | receives received alive inside => cases received <;> exact stopped
  | interrupted => rfl
  | captures | cuts | plays | drops | joinsSender | joinsReceiver => exact stopped

theorem consumesWork (positive : 0 < params.samplesPerPacket) : Consumes (step params)
    (fun c => Coherent params c ∧ c.running = false) Event.Inner Event.advances work where
  kept c event d holds stepped :=
    ⟨stepCoherent holds.1 stepped, stoppedKept holds.2 (stepMoves stepped).2⟩
  lowers c event d holds advances stepped := movesLower positive holds.2 advances (stepMoves stepped).2
  keeps c event d holds inner still stepped := by
    cases (stepMoves stepped).2 with
    | captures data => exact inner.elim
    | plays | interrupted => rfl
    | cuts | senderChecks | sends | receiverChecks | receives | drops | joinsSender | joinsReceiver =>
      contradiction

theorem senderProceeds (ongoing : c.main = .joiningSender) (alive : c.sender.result = none) :
    ∃ event d, event.advances = true ∧ step params c event = some d := by
  cases inside : c.senderInside with
  | true => exact ⟨.sender 0 true, _, rfl, by simp [step, ongoing, live, alive, inside]; rfl⟩
  | false => exact ⟨.senderChecks, _, rfl, by simp [step, ongoing, live, alive, inside]; rfl⟩

theorem receiverProceeds (ongoing : c.main = .joiningReceiver) (alive : c.receiverResult = none) :
    ∃ event d, event.advances = true ∧ step params c event = some d := by
  cases inside : c.receiverInside with
  | true => exact ⟨.receiver .timeout, _, rfl, by simp [step, ongoing, live, alive, inside]; rfl⟩
  | false => exact ⟨.receiverChecks, _, rfl, by simp [step, ongoing, live, alive, inside]; rfl⟩

/- `run` has returned with the results of the threads it joined: the sender first, and the
receiver only behind a sender that ended well. -/
def Client.Finished (c : Client) : Prop := ∃ result, c.main = .returned result ∧ Results c result

theorem stoppedProceeds (coherent : Coherent params c) (stopped : c.running = false) :
    c.Finished ∨ ∃ event d, event.advances = true ∧ step params c event = some d := by
  have holds := coherent.main
  cases main : c.main with
  | returned result =>
    rw [main] at holds
    exact .inl ⟨result, main, holds.2⟩
  | streaming =>
    rw [main] at holds
    have on : c.streams = true := holds
    refine .inr ?_
    by_cases full : params.samplesPerPacket ≤ c.capture.pending.length
    · exact ⟨.cuts, _, rfl, by simp [step, main, live, on, full]; rfl⟩
    · exact ⟨.main, _, rfl, by simp [step, main, live, mainStep, stopped, full]; rfl⟩
  | joiningSender =>
    refine .inr ?_
    cases ended : c.sender.result with
    | none => exact senderProceeds main ended
    | some result => exact ⟨.main, _, rfl, by simp [step, main, live, mainStep, ended]; rfl⟩
  | joiningReceiver =>
    refine .inr ?_
    cases ended : c.receiverResult with
    | none => exact receiverProceeds main ended
    | some result => exact ⟨.main, _, rfl, by simp [step, main, live, mainStep, ended]; rfl⟩

variable {events : List Event}

theorem clientStops (positive : 0 < params.samplesPerPacket)
    (ran : run (step params) (started params) events = some c) (stopped : c.running = false) :
    (∀ later d, (∀ event ∈ later, event.Inner) → run (step params) c later = some d →
      later.countP Event.advances + work d ≤ work c) ∧
    (c.Finished ∨ ∃ event d, event.advances = true ∧ step params c event = some d) ∧
    ∃ later d, (∀ event ∈ later, event.advances = true) ∧
      run (step params) c later = some d ∧ d.Finished := by
  have coherent := runCoherent ran
  refine ⟨fun later d inner reached => ?_, stoppedProceeds coherent stopped, ?_⟩
  · exact advancesBounded (consumesWork positive) ⟨coherent, stopped⟩ inner reached
  · exact reachesRest (consumesWork positive) Client.Finished (fun event => event.advances = true)
      (fun _ advances => advances) (fun _ holds => stoppedProceeds holds.1 holds.2) c
      ⟨coherent, stopped⟩

theorem clientStopsBrief : ∃ session c, setUp release desktop brief = value session ∧
    run (step (session.params release)) (started (session.params release)) (talking.take 6) = some c ∧
    ∃ later d, (∀ event ∈ later, event.advances = true) ∧
      run (step (session.params release)) c later = some d ∧ d.Finished := by
  refine ⟨_, _, rfl, rfl, ?_⟩
  exact (@clientStops _ _ (talking.take 6) (by decide) rfl rfl).2.2

end Stops

end KaraokeAnything.Streaming
