import KaraokeAnything.CaptureDelivery
import KaraokeAnything.Devices
import KaraokeAnything.Library.Settling

/-! client/src/main.rs as one machine: the capture and playback callbacks, the threads of
client/src/network.rs, Ctrl-C and the main thread, each from one point where it meets the
others to the next. A run begins where `start_streams` returned; the sockets, the Ctrl-C
handler and the text printed are left out. -/
namespace KaraokeAnything.Streaming
open ByteOrder Capturing Devices Outcome Protocol
open Playback (Build PacketSizing ReceiverConfig clientRun computePacketSizing handleDatagram newClient)
open Runs Settling

section Setup
variable {δ : Type}

structure Session (δ : Type) where
  devices : DeviceSetup δ
  sizing : PacketSizing
  sender : SenderConfig
  receiver : ReceiverConfig

def setUp (build : Build) (host : Host δ) (cli : Cli) : Outcome (Session δ) := do
  checkPacketMs cli.toCli
  let devices ← negotiateDevices host cli
  let sizing ← computePacketSizing build devices.inputConfig cli.toCli
  pure { devices, sizing, sender := senderConfig cli.server sizing, receiver := sizing.receiverConfig }

structure Params where
  target : Target
  samplesPerPacket : Nat
  prebufferSamples : Nat
  sender : SenderConfig
  receiver : ReceiverConfig

def Session.params (build : Build) (session : Session δ) : Params where
  target := build.target
  samplesPerPacket := session.sizing.samplesPerPacket
  prebufferSamples := session.sizing.prebufferSamples
  sender := session.sender
  receiver := session.receiver

end Setup

section Machine

def channelBound : Nat := 128

inductive Main where
  | streaming
  | joiningSender
  | joiningReceiver
  | returned (result : Outcome Unit)

inductive Received where
  | datagram (data : Bytes)
  | timeout
  | failed

structure Log where
  captured : List UInt32 := []
  passes : List Pass := []
  playback : List Playback.Event := []

/- A thread that is `inside` has read the flag and waits for the channel or the socket. The
channel of `capture` is all that was ever put into the channel. -/
structure Client where
  running : Bool := true
  streams : Bool := true
  capture : Capture UInt32 := {}
  channel : List (List UInt32) := []
  senderInside : Bool := false
  sender : Sender := {}
  receiverInside : Bool := false
  receiverResult : Option (Outcome Unit) := none
  playback : Playback.Client UInt32
  main : Main := .streaming
  log : Log := {}

def started (params : Params) : Client where
  playback := newClient UInt32 params.prebufferSamples

inductive Event where
  | captured (data : List UInt32)
  | cuts
  | senderChecks
  | sender (timestampUs : UInt64) (sends : Bool)
  | receiverChecks
  | receiver (received : Received)
  | plays (length : Nat)
  | ctrlC
  | main

variable (params : Params)

def cuts (c : Client) : Client :=
  let packet := c.capture.pending.take params.samplesPerPacket
  let taken := decide (c.channel.length < channelBound ∧ c.sender.result = none)
  { c with
    capture := Capture.cut (fun _ => taken) params.samplesPerPacket 1 c.capture
    channel := if taken then c.channel ++ [packet] else c.channel }

/- The sender with a pass of its loop behind it. Its end drops what is still in the channel. -/
def sent (c : Client) (pass : Pass) (rest : List (List UInt32)) : Client :=
  let sender := c.sender.step params.target params.sender pass
  { c with
    senderInside := false
    sender
    channel := if sender.result = none then rest else []
    log := { c.log with passes := c.log.passes ++ [pass] } }

def senderChecks (c : Client) : Client :=
  if c.running then { c with senderInside := true } else sent params c .stopped c.channel

def senderStep (c : Client) (timestampUs : UInt64) (sends : Bool) : Client :=
  match c.channel with
  | packet :: rest => sent params c (.packet packet timestampUs sends) rest
  | [] => sent params c (if c.streams then .timeout else .disconnected) []

def receiverChecks (c : Client) : Client :=
  if c.running then { c with receiverInside := true }
  else { c with receiverResult := some (value ()) }

def receiverStep (c : Client) : Received → Client
  | .timeout => { c with receiverInside := false }
  | .failed => { c with receiverResult := some (error "failed receiving audio") }
  | .datagram data =>
    let (result, receiver) :=
      handleDatagram params.target (·.samples) params.receiver data c.playback.receiver
    { c with
      receiverInside := false
      receiverResult := match result with
        | value _ => none
        | ended => some ended
      playback := { c.playback with receiver }
      log := { c.log with playback := c.log.playback ++ [.datagram data] } }

/- `join()`, with what `run` makes of a panic of the thread. -/
def joined (panicked : String) : Outcome Unit → Outcome Unit
  | aborted => error panicked
  | result => result

def afterSender (result : Outcome Unit) : Main :=
  match joined "sender thread panicked" result with
  | value _ => .joiningReceiver
  | failed => .returned failed

def mainStep (c : Client) : Option Client :=
  match c.main with
  | .streaming =>
    if c.running ∨ params.samplesPerPacket ≤ c.capture.pending.length then none
    else some { c with streams := false, main := .joiningSender }
  | .joiningSender => c.sender.result.map fun result => { c with main := afterSender result }
  | .joiningReceiver => c.receiverResult.map fun result =>
    { c with main := .returned (joined "receiver thread panicked" result) }
  | .returned _ => none

def live (c : Client) : Event → Option Client
  | .captured data =>
    if c.streams ∧ c.capture.pending.length < params.samplesPerPacket then
      some { c with
        capture := { c.capture with pending := c.capture.pending ++ data }
        log := { c.log with captured := c.log.captured ++ data } }
    else none
  | .cuts =>
    if c.streams ∧ params.samplesPerPacket ≤ c.capture.pending.length then some (cuts params c)
    else none
  | .senderChecks =>
    if c.sender.result = none ∧ ¬ c.senderInside then some (senderChecks params c) else none
  | .sender timestampUs sends =>
    if c.sender.result = none ∧ c.senderInside then some (senderStep params c timestampUs sends)
    else none
  | .receiverChecks =>
    if c.receiverResult = none ∧ ¬ c.receiverInside then some (receiverChecks c) else none
  | .receiver received =>
    if c.receiverResult = none ∧ c.receiverInside then some (receiverStep params c received) else none
  | .plays length =>
    if c.streams then
      some { c with
        playback := c.playback.step params.target (·.samples) params.receiver params.prebufferSamples
          (.callback length)
        log := { c.log with playback := c.log.playback ++ [.callback length] } }
    else none
  | .ctrlC => some { c with running := false }
  | .main => mainStep params c

/- One event at a time; none comes once `run` has returned, since the process ends with it. -/
def step (c : Client) (event : Event) : Option Client :=
  match c.main with
  | .returned _ => none
  | _ => live params c event

end Machine

section Moves
variable {params : Params} {c d : Client}

inductive Moves (params : Params) (c : Client) : Event → Client → Prop where
  | captures (data : List UInt32) : Moves params c (.captured data) { c with
      capture := { c.capture with pending := c.capture.pending ++ data }
      log := { c.log with captured := c.log.captured ++ data } }
  | cuts (full : params.samplesPerPacket ≤ c.capture.pending.length) :
    Moves params c .cuts (cuts params c)
  | senderChecks (alive : c.sender.result = none) (outside : c.senderInside = false) :
    Moves params c .senderChecks (senderChecks params c)
  | sends (timestampUs : UInt64) (sends : Bool) (alive : c.sender.result = none)
    (inside : c.senderInside = true) :
    Moves params c (.sender timestampUs sends) (senderStep params c timestampUs sends)
  | receiverChecks (alive : c.receiverResult = none) (outside : c.receiverInside = false) :
    Moves params c .receiverChecks (receiverChecks c)
  | receives (received : Received) (alive : c.receiverResult = none)
    (inside : c.receiverInside = true) :
    Moves params c (.receiver received) (receiverStep params c received)
  | plays (length : Nat) : Moves params c (.plays length) { c with
      playback := c.playback.step params.target (·.samples) params.receiver params.prebufferSamples
        (.callback length)
      log := { c.log with playback := c.log.playback ++ [.callback length] } }
  | interrupted : Moves params c .ctrlC { c with running := false }
  | drops (main : c.main = .streaming) (stopped : c.running = false) :
    Moves params c .main { c with streams := false, main := .joiningSender }
  | joinsSender (result : Outcome Unit) (main : c.main = .joiningSender)
    (ended : c.sender.result = some result) :
    Moves params c .main { c with main := afterSender result }
  | joinsReceiver (result : Outcome Unit) (main : c.main = .joiningReceiver)
    (ended : c.receiverResult = some result) :
    Moves params c .main { c with main := .returned (joined "receiver thread panicked" result) }

theorem mainMoves (stepped : mainStep params c = some d) : Moves params c .main d := by
  unfold mainStep at stepped
  split at stepped
  · rename_i main
    split at stepped
    · contradiction
    · rename_i ready
      cases stepped
      exact .drops main (by simpa using fun on => ready (.inl on))
  · rename_i main
    obtain ⟨result, ended, rfl⟩ := Option.map_eq_some_iff.mp stepped
    exact .joinsSender result main ended
  · rename_i main
    obtain ⟨result, ended, rfl⟩ := Option.map_eq_some_iff.mp stepped
    exact .joinsReceiver result main ended
  · contradiction

theorem stepMoves {event : Event} (stepped : step params c event = some d) :
    (∀ result, c.main ≠ .returned result) ∧ Moves params c event d := by
  unfold step at stepped
  split at stepped
  · contradiction
  · rename_i ongoing
    refine ⟨ongoing, ?_⟩
    cases event with
    | ctrlC =>
      cases stepped
      exact .interrupted
    | main => exact mainMoves stepped
    | captured | cuts | senderChecks | sender | receiverChecks | receiver | plays =>
      simp only [live] at stepped
      split at stepped
      · rename_i ready
        cases stepped
        first
        | exact .captures _
        | exact .plays _
        | exact .cuts ready.2
        | exact .senderChecks ready.1 (by simpa using ready.2)
        | exact .sends _ _ ready.1 ready.2
        | exact .receiverChecks ready.1 (by simpa using ready.2)
        | exact .receives _ ready.1 ready.2
      · contradiction

end Moves

section Coherence
variable {params : Params} {c d : Client}

def Results (c : Client) (result : Outcome Unit) : Prop :=
  ∃ sender, c.sender.result = some sender ∧
    if sender = value () then
      ∃ receiver, c.receiverResult = some receiver ∧ result = joined "receiver thread panicked" receiver
    else result = joined "sender thread panicked" sender

def Main.Holds (c : Client) : Main → Prop
  | .streaming => c.streams = true
  | .joiningSender => c.running = false
  | .joiningReceiver => c.running = false ∧ c.sender.result = some (value ())
  | .returned result => c.running = false ∧ Results c result

structure Coherent (params : Params) (c : Client) : Prop where
  cuts : Cuts params.samplesPerPacket c.log.captured c.capture
  sender : c.sender = senderLoop params.target params.sender c.log.passes
  received : c.log.passes.flatMap Pass.received <+: c.capture.channel
  flow : c.sender.result = none →
    c.log.passes.flatMap Pass.received ++ c.channel = c.capture.channel
  room : c.channel.length ≤ channelBound
  playback : c.playback =
    clientRun params.target params.receiver params.prebufferSamples c.log.playback
  stops : c.sender.result = some (value ()) → c.running = false
  streams : c.streams = false → c.running = false
  receives : ∀ result, c.receiverResult = some result →
    result = value () ∧ c.running = false ∨ result = error "failed receiving audio"
  main : c.main.Holds c

theorem startedCoherent (params : Params) : Coherent params (started params) where
  cuts := ⟨rfl, nofun, List.Sublist.refl _⟩
  sender := rfl
  received := List.prefix_refl _
  flow _ := rfl
  room := Nat.zero_le _
  playback := rfl
  stops ended := by contradiction
  streams ended := by contradiction
  receives _ ended := by contradiction
  main := rfl

theorem cutOnceCuts {trySend : Nat → Bool} {samplesPerPacket : Nat} {samples : List UInt32}
    {self : Capture UInt32} (full : samplesPerPacket ≤ self.pending.length)
    (cuts : Cuts samplesPerPacket samples self) :
    Cuts samplesPerPacket samples (self.cut trySend samplesPerPacket 1) := by
  simp only [Capture.cut, if_pos full]
  refine ⟨?_, fun packet inside => ?_, ?_⟩
  · rw [List.flatten_append, List.flatten_singleton, List.append_assoc, List.take_append_drop]
    exact cuts.order
  · rcases List.mem_append.mp inside with old | new
    · exact cuts.sizes packet old
    · rw [List.mem_singleton.mp new, List.length_take, Nat.min_eq_left full]
  · split
    · exact cuts.channel.append_right _
    · exact cuts.channel.trans (List.sublist_append_left _ _)

theorem holdsKept (holds : c.main.Holds c) (main : d.main = c.main) (streams : d.streams = c.streams)
    (running : c.running = false → d.running = false) (sender : d.sender = c.sender)
    (receiver : d.receiverResult = c.receiverResult) : d.main.Holds d := by
  rw [main]
  revert holds
  cases c.main with
  | streaming => exact fun holds => streams.trans holds
  | joiningSender => exact fun holds => running holds
  | joiningReceiver => exact fun holds => ⟨running holds.1, sender ▸ holds.2⟩
  | returned result =>
    refine fun holds => ⟨running holds.1, ?_⟩
    unfold Results
    rw [sender, receiver]
    exact holds.2

theorem cutsCoherent (coherent : Coherent params c)
    (full : params.samplesPerPacket ≤ c.capture.pending.length) : Coherent params (cuts params c) := by
  have cut := @cutOnceCuts (fun _ => decide (c.channel.length < channelBound ∧ c.sender.result = none))
    _ _ _ full coherent.cuts
  by_cases taken : c.channel.length < channelBound ∧ c.sender.result = none
  · have grown : (cuts params c).capture.channel =
        c.capture.channel ++ [c.capture.pending.take params.samplesPerPacket] := by
      simp [cuts, Capture.cut, full, taken]
    have channel : (cuts params c).channel =
        c.channel ++ [c.capture.pending.take params.samplesPerPacket] := by
      simp [cuts, taken]
    refine { coherent with cuts := cut, received := ?_, flow := fun alive => ?_, room := ?_, main := ?_ }
    · rw [grown]
      exact coherent.received.trans (List.prefix_append _ _)
    · rw [channel, grown, ← List.append_assoc]
      exact congrArg (· ++ _) (coherent.flow alive)
    · rw [channel, List.length_append]
      exact taken.1
    · exact holdsKept coherent.main rfl rfl id rfl rfl
  · have same : (cuts params c).capture.channel = c.capture.channel := by
      simp [cuts, Capture.cut, full, taken]
    have channel : (cuts params c).channel = c.channel := by simp [cuts, taken]
    refine { coherent with cuts := cut, received := ?_, flow := fun alive => ?_, room := ?_, main := ?_ }
    · rw [same]
      exact coherent.received
    · rw [channel, same]
      exact coherent.flow alive
    · rw [channel]
      exact coherent.room
    · exact holdsKept coherent.main rfl rfl id rfl rfl

theorem endsWell {target : Target} {config : SenderConfig} {self : Sender} {pass : Pass}
    (alive : self.result = none) (ended : (self.step target config pass).result = some (value ())) :
    pass = .stopped ∨ pass = .disconnected := by
  cases pass with
  | stopped => exact .inl rfl
  | disconnected => exact .inr rfl
  | timeout =>
    simp only [Sender.step, alive] at ended
    contradiction
  | packet samples timestampUs sends =>
    simp only [Sender.step, alive] at ended
    split at ended
    · simp at ended
    · simp at ended
    · split at ended <;> simp at ended

theorem senderSnoc (target : Target) (config : SenderConfig) (passes : List Pass) (pass : Pass) :
    senderLoop target config (passes ++ [pass]) =
      (senderLoop target config passes).step target config pass := by
  rw [senderLoop, List.foldl_append]
  rfl

theorem sentCoherent (coherent : Coherent params c) (alive : c.sender.result = none) {pass : Pass}
    {rest : List (List UInt32)} (front : pass.received ++ rest = c.channel)
    (quits : pass = .stopped ∨ pass = .disconnected → c.running = false) :
    Coherent params (sent params c pass rest) := by
  have flow := coherent.flow alive
  have passed : (c.log.passes ++ [pass]).flatMap Pass.received ++ rest = c.capture.channel := by
    rw [List.flatMap_append, List.flatMap_singleton, List.append_assoc, front, flow]
  have short : rest.length ≤ c.channel.length := by
    rw [← front, List.length_append]
    exact Nat.le_add_left _ _
  refine { coherent with sender := ?_, received := ?_, flow := fun going => ?_, room := ?_, stops := ?_, main := ?_ }
  · change c.sender.step params.target params.sender pass = senderLoop _ _ (c.log.passes ++ [pass])
    rw [senderSnoc, ← coherent.sender]
  · exact ⟨rest, passed⟩
  · change _ ++ (if (c.sender.step params.target params.sender pass).result = none then rest else []) = _
    rw [if_pos (show (c.sender.step params.target params.sender pass).result = none from going)]
    exact passed
  · change List.length (if _ then rest else []) ≤ _
    split
    · exact short.trans coherent.room
    · exact Nat.zero_le _
  · exact fun ended => quits (endsWell alive ended)
  · have holds := coherent.main
    change c.main.Holds _
    cases main : c.main with
    | streaming =>
      rw [main] at holds
      exact holds
    | joiningSender =>
      rw [main] at holds
      exact holds
    | joiningReceiver =>
      rw [main] at holds
      exact absurd (alive.symm.trans holds.2) (by simp)
    | returned result =>
      rw [main] at holds
      obtain ⟨_, _, ended, _⟩ := holds
      exact absurd (alive.symm.trans ended) (by simp)

theorem senderChecksCoherent (coherent : Coherent params c) (alive : c.sender.result = none) :
    Coherent params (senderChecks params c) := by
  unfold senderChecks
  split
  · exact { coherent with main := holdsKept coherent.main rfl rfl id rfl rfl }
  · rename_i stopped
    exact sentCoherent coherent alive rfl (fun _ => by simpa using stopped)

theorem senderCoherent (coherent : Coherent params c) (alive : c.sender.result = none)
    (timestampUs : UInt64) (sends : Bool) : Coherent params (senderStep params c timestampUs sends) := by
  unfold senderStep
  split
  · rename_i packet rest channel
    exact sentCoherent coherent alive channel.symm (fun quits => by simp at quits)
  · rename_i channel
    refine sentCoherent coherent alive ?_ ?_
    · rw [channel]
      split <;> rfl
    · split
      · exact fun quits => by simp at quits
      · rename_i dropped
        exact fun _ => coherent.streams (by simpa using dropped)

/- The queue's mutex is never poisoned, so no datagram ends the receiver. -/
theorem receivesAlive (target : Target) (config : ReceiverConfig) (prebufferSamples : Nat)
    (events : List Playback.Event) :
    (clientRun target config prebufferSamples events).receiver.queue.poisoned = false := by
  rw [← Playback.runErases]
  exact (Playback.ledgerHolds target config prebufferSamples events).alive

theorem handleReturns (target : Target) (config : ReceiverConfig) (data : Bytes)
    {receiver : Playback.Receiver UInt32} (alive : receiver.queue.poisoned = false) :
    (handleDatagram target (·.samples) config data receiver).1 = value () := by
  cases taken : Playback.accepts target config data with
  | none => rw [Playback.handleIgnores taken]
  | some packet => rw [Playback.handleAccepts taken (·.samples) alive]

theorem playbackSnoc (target : Target) (config : ReceiverConfig) (prebufferSamples : Nat)
    (events : List Playback.Event) (event : Playback.Event) :
    clientRun target config prebufferSamples (events ++ [event]) =
      (clientRun target config prebufferSamples events).step target (·.samples) config
        prebufferSamples event := by
  rw [clientRun, List.foldl_append]
  rfl

theorem holdsReceiving (holds : c.main.Holds c) (ongoing : ∀ result, c.main ≠ .returned result)
    (main : d.main = c.main) (streams : d.streams = c.streams) (running : d.running = c.running)
    (sender : d.sender = c.sender) : d.main.Holds d := by
  rw [main]
  revert holds ongoing
  cases c.main with
  | streaming => exact fun holds _ => streams.trans holds
  | joiningSender => exact fun holds _ => running.trans holds
  | joiningReceiver => exact fun holds _ => ⟨running.trans holds.1, sender ▸ holds.2⟩
  | returned result => exact fun _ ongoing => absurd rfl (ongoing result)

theorem receiverChecksCoherent (coherent : Coherent params c)
    (ongoing : ∀ result, c.main ≠ .returned result) : Coherent params (receiverChecks c) := by
  unfold receiverChecks
  split
  · exact { coherent with main := holdsReceiving coherent.main ongoing rfl rfl rfl rfl }
  · rename_i stopped
    refine { coherent with
      receives := fun result ended => ?_
      main := holdsReceiving coherent.main ongoing rfl rfl rfl rfl }
    cases Option.some.inj ended
    exact .inl ⟨rfl, by simpa using stopped⟩

theorem receiverCoherent (coherent : Coherent params c)
    (ongoing : ∀ result, c.main ≠ .returned result) (received : Received) :
    Coherent params (receiverStep params c received) := by
  cases received with
  | timeout => exact { coherent with main := holdsReceiving coherent.main ongoing rfl rfl rfl rfl }
  | failed =>
    refine { coherent with
      receives := fun result ended => ?_
      main := holdsReceiving coherent.main ongoing rfl rfl rfl rfl }
    cases Option.some.inj ended
    exact .inr rfl
  | datagram data =>
    have unlocked : c.playback.receiver.queue.poisoned = false := by
      rw [coherent.playback]
      exact receivesAlive _ _ _ _
    have returns := handleReturns params.target params.receiver data unlocked
    simp only [receiverStep, returns]
    refine { coherent with
      playback := ?_
      receives := fun result ended => by contradiction
      main := holdsReceiving coherent.main ongoing rfl rfl rfl rfl }
    rw [playbackSnoc, ← coherent.playback]
    rfl

theorem joinsCoherent (coherent : Coherent params c) (main : c.main = .joiningSender)
    {result : Outcome Unit} (ended : c.sender.result = some result) :
    Coherent params { c with main := afterSender result } := by
  have stopped := coherent.main
  rw [main] at stopped
  cases result with
  | value u => exact { coherent with main := ⟨stopped, ended⟩ }
  | error message => exact { coherent with main := ⟨stopped, _, ended, rfl⟩ }
  | aborted => exact { coherent with main := ⟨stopped, _, ended, rfl⟩ }

theorem movesCoherent {event : Event} (coherent : Coherent params c)
    (ongoing : ∀ result, c.main ≠ .returned result) (moves : Moves params c event d) :
    Coherent params d := by
  cases moves with
  | captures data =>
    refine { coherent with
      cuts := ⟨?_, coherent.cuts.sizes, coherent.cuts.channel⟩
      main := holdsKept coherent.main rfl rfl id rfl rfl }
    rw [← coherent.cuts.order, List.append_assoc]
  | cuts full => exact cutsCoherent coherent full
  | senderChecks alive outside => exact senderChecksCoherent coherent alive
  | sends timestampUs sends alive inside => exact senderCoherent coherent alive timestampUs sends
  | receiverChecks alive outside => exact receiverChecksCoherent coherent ongoing
  | receives received alive inside => exact receiverCoherent coherent ongoing received
  | plays length =>
    refine { coherent with
      playback := ?_
      main := holdsKept coherent.main rfl rfl id rfl rfl }
    rw [playbackSnoc, ← coherent.playback]
  | interrupted =>
    refine { coherent with
      stops := fun _ => rfl
      streams := fun _ => rfl
      receives := fun result ended => ?_
      main := holdsKept coherent.main rfl rfl (fun _ => rfl) rfl rfl }
    exact (coherent.receives result ended).imp_left fun well => ⟨well.1, rfl⟩
  | drops main stopped => exact { coherent with streams := fun _ => stopped, main := stopped }
  | joinsSender result main ended => exact joinsCoherent coherent main ended
  | joinsReceiver result main ended =>
    have holds := coherent.main
    rw [main] at holds
    exact { coherent with main := ⟨holds.1, _, holds.2, _, ended, rfl⟩ }

theorem stepCoherent {event : Event} (coherent : Coherent params c)
    (stepped : step params c event = some d) : Coherent params d :=
  movesCoherent coherent (stepMoves stepped).1 (stepMoves stepped).2

theorem runCoherent {events : List Event} (ran : run (step params) (started params) events = some c) :
    Coherent params c :=
  runInvariant (Coherent params) (startedCoherent params)
    (fun _ _ _ coherent stepped => stepCoherent coherent stepped) ran

end Coherence

section Logged
variable {params : Params} {c d : Client} {events : List Event}

def Event.data : Event → List UInt32
  | .captured data => data
  | _ => []

def Event.heard : Event → Option Playback.Event
  | .receiver (.datagram data) => some (.datagram data)
  | .plays length => some (.callback length)
  | _ => none

theorem movesLogged {event : Event} (moves : Moves params c event d) :
    d.log.captured = c.log.captured ++ event.data ∧
      d.log.playback = c.log.playback ++ event.heard.toList := by
  have still : c.log.captured = c.log.captured ++ [] ∧ c.log.playback = c.log.playback ++ [] :=
    ⟨(List.append_nil _).symm, (List.append_nil _).symm⟩
  cases moves with
  | captures data => exact ⟨rfl, still.2⟩
  | plays length => exact ⟨still.1, rfl⟩
  | receives received alive inside =>
    cases received with
    | datagram data => exact ⟨still.1, rfl⟩
    | timeout | failed => exact still
  | sends timestampUs sends alive inside =>
    unfold senderStep
    split <;> exact still
  | senderChecks alive outside =>
    unfold senderChecks
    split <;> exact still
  | receiverChecks alive outside =>
    unfold receiverChecks
    split <;> exact still
  | cuts | interrupted | drops | joinsSender | joinsReceiver => exact still

theorem runLogged (ran : run (step params) (started params) events = some c) :
    c.log.captured = events.flatMap Event.data ∧ c.log.playback = events.filterMap Event.heard := by
  induction events using List.reverseRecOn generalizing c with
  | nil =>
    cases ran
    exact ⟨rfl, rfl⟩
  | append_singleton events event ih =>
    obtain ⟨b, before, last⟩ := runSnoc.mp ran
    obtain ⟨captured, playback⟩ := ih before
    obtain ⟨more, heard⟩ := movesLogged (stepMoves last).2
    refine ⟨?_, ?_⟩
    · rw [more, captured, List.flatMap_append, List.flatMap_singleton]
    · rw [heard, playback, List.filterMap_append]
      cases said : event.heard <;> simp [said]

end Logged

end KaraokeAnything.Streaming
