import KaraokeAnything.Protocol

/-! The client from a datagram to the sound card: the receiver of client/src/network.rs,
the packet sizes and the playback callback of client/src/main.rs. The network thread
and the sound card's thread meet at the queue alone, under its mutex. -/
namespace KaraokeAnything.Playback
open ByteOrder Outcome Protocol
open Float.Model (UnpackedFloat)

section Receiver
variable {α : Type}

structure AudioFormat where
  channels : UInt16
  sampleRate : UInt32
  deriving DecidableEq, Repr

structure ReceiverConfig where
  format : AudioFormat
  maxSamples : Nat

structure Queue (α : Type) where
  poisoned : Bool := false
  samples : List α := []
  deriving DecidableEq

/- The eviction loop of `buffer_samples`. A queue of `f32` holds too few samples for
the sum to leave `usize`. -/
def makeRoom (keep maxSamples : Nat) : List α → List α
  | [] => []
  | oldest :: queue =>
    if maxSamples < (oldest :: queue).length + keep then makeRoom keep maxSamples queue
    else oldest :: queue

def bufferSamples (queue : Queue α) (samples : List α) (maxSamples : Nat) : Outcome (Queue α) :=
  if queue.poisoned then error "playback queue poisoned"
  else
    let keep := min samples.length maxSamples
    let dropped := samples.length - keep
    value { queue with samples := makeRoom keep maxSamples queue.samples ++ samples.drop dropped }

structure Receiver (α : Type) where
  expectedSequence : Option UInt32 := none
  queue : Queue α := {}
  deriving DecidableEq

/- `label` says what the queue keeps of a packet. In the client itself that is its samples;
the proofs keep with each where it came from. -/
def handleDatagram (target : Target) (label : AudioPacket → List α) (config : ReceiverConfig)
    (data : Bytes) (receiver : Receiver α) : Outcome Unit × Receiver α :=
  match decodePacket target data with
  | aborted => (aborted, receiver)
  | error _ => (value (), receiver)
  | value packet =>
    if packet.channels ≠ config.format.channels ∨ packet.sampleRate ≠ config.format.sampleRate then
      (value (), receiver)
    else
      let receiver := { receiver with expectedSequence := some (packet.sequence + 1) }
      match bufferSamples receiver.queue (label packet) config.maxSamples with
      | value queue => (value (), { receiver with queue })
      | error message => (error message, receiver)
      | aborted => (aborted, receiver)

/- The loop of the playback callback; `none` stands where it writes 0.0 for a sample that is
missing. -/
def popSamples : Nat → List α → List (Option α) × List α
  | 0, queue => ([], queue)
  | length + 1, [] => (none :: (popSamples length []).1, [])
  | length + 1, sample :: queue =>
    let (written, rest) := popSamples length queue
    (some sample :: written, rest)

def playbackCallback (prebufferSamples length : Nat) (started : Bool) (queue : Queue α) :
    List (Option α) × Bool × Queue α :=
  let silence := List.replicate length none
  if queue.poisoned then (silence, started, queue)
  else
    let started := started || decide (prebufferSamples ≤ queue.samples.length)
    if ¬ started then (silence, started, queue)
    else
      let (written, rest) := popSamples length queue.samples
      (written, started, { queue with samples := rest })

end Receiver

section Client
variable {α : Type}

inductive Event where
  | datagram (data : Bytes)
  | callback (length : Nat)

structure Client (α : Type) where
  receiver : Receiver α := {}
  started : Bool
  written : List (List (Option α)) := []

def newClient (α : Type) (prebufferSamples : Nat) : Client α :=
  { started := decide (prebufferSamples = 0) }

/- Both threads take the queue's mutex, so their calls come one after another. -/
def Client.step (target : Target) (label : AudioPacket → List α) (config : ReceiverConfig)
    (prebufferSamples : Nat) (client : Client α) : Event → Client α
  | .datagram data =>
    { client with receiver := (handleDatagram target label config data client.receiver).2 }
  | .callback length =>
    let (output, started, queue) :=
      playbackCallback prebufferSamples length client.started client.receiver.queue
    { receiver := { client.receiver with queue }, started, written := client.written ++ [output] }

def clientRun (target : Target) (config : ReceiverConfig) (prebufferSamples : Nat)
    (events : List Event) : Client UInt32 :=
  events.foldl (Client.step target (·.samples) config prebufferSamples)
    (newClient UInt32 prebufferSamples)

end Client

section Sizing

structure StreamConfig where
  sampleRate : UInt32
  channels : UInt16

structure Cli where
  packetMs : Float
  playbackBufferMs : UInt32
  prebufferMs : UInt32

/- How the client is built: its pointer width, and whether overflow aborts or wraps. -/
structure Build where
  target : Target
  overflowChecks : Bool

def Build.mul (build : Build) (a b : Nat) : Outcome Nat :=
  if build.overflowChecks then mulBelow build.target.usizeLimit a b
  else value (a * b % build.target.usizeLimit)

structure PacketSizing where
  sampleRate : UInt32
  channels : UInt16
  framesPerPacket : Nat
  samplesPerPacket : Nat
  maxPlaybackSamples : Nat
  prebufferSamples : Nat

/- `x.round() as usize`: half away from zero, and saturating. -/
def roundAsUsize (target : Target) (x : Float) : Nat :=
  let largest := target.usizeLimit - 1
  match x.toModel.unpack with
  | .finite .positive mantissa exponent _ =>
    min largest (if 0 ≤ exponent then mantissa * 2 ^ exponent.toNat
      else (2 * mantissa / 2 ^ (-exponent).toNat + 1) / 2)
  | .infinity .positive => largest
  | _ => 0

def computePacketSizing (build : Build) (config : StreamConfig) (cli : Cli) :
    Outcome PacketSizing := do
  let rate := config.sampleRate.toNat
  let channels := config.channels.toNat
  let frames := roundAsUsize build.target (Float.ofNat rate * cli.packetMs / 1000.0)
  let framesPerPacket := max 1 (min frames 65535)
  let samplesPerPacket ← build.mul framesPerPacket channels
  let playbackSamples ← build.mul (← build.mul rate channels) cli.playbackBufferMs.toNat
  let prebufferSamples ← build.mul (← build.mul rate channels) cli.prebufferMs.toNat
  pure {
    sampleRate := config.sampleRate
    channels := config.channels
    framesPerPacket, samplesPerPacket
    maxPlaybackSamples := playbackSamples / 1000
    prebufferSamples := prebufferSamples / 1000 }

def PacketSizing.receiverConfig (sizing : PacketSizing) : ReceiverConfig :=
  ⟨⟨sizing.channels, sizing.sampleRate⟩, sizing.maxPlaybackSamples⟩

example : roundAsUsize .bits64 480.5 = 481 := by decide

end Sizing

end KaraokeAnything.Playback
