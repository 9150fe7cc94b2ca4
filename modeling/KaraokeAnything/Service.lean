import KaraokeAnything.Library.Lifecycle
import KaraokeAnything.RuntimeSettings

/-! app/audio_trombone/service.py and transport.py as one machine: UDP ingress, the
processing loop, the background inferences and any number of control calls, each
running from one await to the next. Every await may suspend here, and the lock goes to any
coroutine that waits for it, so every order the event loop can choose is a run. More orders
are: a free lock and the empty `start()`, `stop()` and `reset()` of a processor without a
model never suspend, so runs that show what the service does take these without a pause.
Log lines and the start of the service are left out: a run begins where `start()`
returned. -/
namespace KaraokeAnything.Service
open ByteOrder Config Kany Lifecycle Models Processors Python RuntimeSettings
open SegmentedInference (InferenceOutcome)

/- What the service does not decide: the byte order of its host, and which calls of
`transport.sendto` raise. -/
structure Environment where
  host : HostOrder
  sendtoRaises : Nat → Bool

section Coroutines

/- The two calls that replace the processor. An update computed its candidate from the
settings it found, `snapshot`, and writes it back as a whole. -/
inductive Swap where
  | select (name : String)
  | update (snapshot : Settings) (updates : Updates)

inductive Job where
  | swap (swap : Swap) (replacement : Nat)
  | reset
  | shutdown

inductive Reply where
  | nothing
  | applied (processorRestarted : Bool) (appliesFrom : String)
  deriving DecidableEq, Repr

/- Where a control call is suspended: in `replacement.start()`, waiting for the lock,
with the lock in `stop()` or `reset()` of a processor, or waiting for the worker. -/
inductive Frame where
  | starting (swap : Swap) (replacement : Nat)
  | acquiring (job : Job)
  | finishing (job : Job) (target : Nat)
  | joining
  | returned (reply : Reply)
  | raised (error : PyError)

/- Where `_processing_loop` is suspended: in `input_queue.get()`, waiting for the lock, or
with the lock inside `process`. -/
inductive Worker where
  | getting
  | acquiring (packet : MediaPacket)
  | processing (packet : MediaPacket) (target : Nat)
  | finished

inductive Request where
  | selectProcessor (name : String)
  | updateRuntimeSettings (updates : Updates)
  | restoreStartupSettings
  | resetProcessor
  | stop

end Coroutines

section Log

inductive Assignment where
  | processor (target : Nat)
  | registry (settings : Settings)
  | settings (settings : Settings)

structure Change where
  task : Nat
  assignment : Assignment

structure History where
  requests : List Request := []
  enqueued : List MediaPacket := []
  taken : List MediaPacket := []
  calls : List (Call MediaPacket) := []
  changes : List Change := []

def History.called (history : History) (calls : List (Call MediaPacket)) : History :=
  { history with calls := history.calls ++ calls }

def History.changed (history : History) (task : Nat) (assignments : List Assignment) : History :=
  { history with changes := history.changes ++ assignments.map (Change.mk task) }

structure Handed where
  target : Nat
  name : String
  output : ProcessedPacket

structure Datagram where
  payload : Bytes
  host : String
  port : Nat
  deriving DecidableEq, Repr

structure Traffic where
  metrics : Metrics := {}
  handed : List Handed := []
  forwarded : List Datagram := []

end Log

structure World where
  startupSettings : Settings
  settings : Settings
  processorRegistry : Settings
  processor : Nat
  inputQueue : List MediaPacket := []
  transport : Bool := true
  workerTask : Bool := true
  processorLock : Bool := false
  running : Bool := true
  heap : Nat → Processor
  next : Nat
  worker : Worker := .getting
  cancelRequested : Bool := false
  tasks : List Frame := []
  traffic : Traffic := {}
  history : History := {}

def fresh (settings : Settings) (processor : Processor) : World where
  startupSettings := settings
  settings := settings
  processorRegistry := settings
  processor := 0
  heap := Function.update (fun _ => .null) 0 processor
  next := 1
  history := { calls := [⟨0, .start, .begins⟩, ⟨0, .start, .ends⟩] }

def started (settings : Settings) : Except PyError World :=
  fresh settings <$> create settings settings.processor

section Ingress

/- `UdpIngressProtocol.datagram_received`; the limits are those of the settings the service
started with. -/
def datagramReceived (w : World) (data : Bytes) (host : String) (port : Nat) : World :=
  let m := w.traffic.metrics
  if w.startupSettings.maxPacketSize < data.length then
    { w with traffic := { w.traffic with
        metrics := { m with packetsDropped := m.packetsDropped + 1 } } }
  else
    let packet : MediaPacket := ⟨data, host, port⟩
    let m := { m with
      packetsReceived := m.packetsReceived + 1
      bytesReceived := m.bytesReceived + data.length
      lastSenderHost := some host
      lastSenderPort := some port }
    let capacity := w.startupSettings.inputQueueSize
    if 0 < capacity ∧ capacity ≤ w.inputQueue.length then
      { w with traffic := { w.traffic with
          metrics := { m with packetsDropped := m.packetsDropped + 1 } } }
    else
      { w with
        inputQueue := w.inputQueue ++ [packet]
        traffic := { w.traffic with metrics := { m with
          packetsEnqueued := m.packetsEnqueued + 1
          queueHighWatermark := max m.queueHighWatermark (w.inputQueue.length + 1) } }
        history := { w.history with enqueued := w.history.enqueued ++ [packet] } }

end Ingress

section Egress

def sendOutput (env : Environment) (w : World) (target : Nat) (output : ProcessedPacket)
    (fallbackHost : String) (traffic : Traffic) : Traffic :=
  let m := traffic.metrics
  let attempt := traffic.handed.length
  let traffic := { traffic with
    handed := traffic.handed ++ [Handed.mk target (w.heap target).name output] }
  if ¬ w.transport then
    { traffic with metrics := { m with forwardingErrors := m.forwardingErrors + 1 } }
  else
    let host := orElse (orElse output.destinationHost w.settings.returnHost) (some fallbackHost)
    let port := match output.destinationPort with
      | some 0 | none => w.settings.outputPort
      | some port => port
    if env.sendtoRaises attempt then
      { traffic with metrics := { m with forwardingErrors := m.forwardingErrors + 1 } }
    else
      { traffic with
        metrics := { m with
          packetsForwarded := m.packetsForwarded + 1
          bytesForwarded := m.bytesForwarded + output.payload.length }
        forwarded := traffic.forwarded ++ [Datagram.mk output.payload (host.getD "") port] }

def countEmitted (traffic : Traffic) : Traffic :=
  { traffic with metrics := { traffic.metrics with
      packetsEmitted := traffic.metrics.packetsEmitted + 1 } }

def emitOutputs (env : Environment) (w : World) (target : Nat) (fallbackHost : String)
    (outputs : List ProcessedPacket) (traffic : Traffic) : Traffic :=
  outputs.foldl (fun traffic output =>
    sendOutput env w target output fallbackHost (countEmitted traffic)) traffic

def flushOutputs (env : Environment) (w : World) (target : Nat) (outputs : List ProcessedPacket)
    (traffic : Traffic) : Traffic :=
  outputs.foldl (fun traffic output =>
    match orElse w.settings.returnHost traffic.metrics.lastSenderHost with
    | none => traffic
    | some fallbackHost =>
      sendOutput env w target output fallbackHost (countEmitted traffic)) traffic

end Egress

section Loop

def countProcessed (traffic : Traffic) : Traffic :=
  { traffic with metrics := { traffic.metrics with
      packetsProcessed := traffic.metrics.packetsProcessed + 1 } }

def countError (traffic : Traffic) : Traffic :=
  { traffic with metrics := { traffic.metrics with
      processorErrors := traffic.metrics.processorErrors + 1 } }

/- One iteration of the loop from inside the lock: the call suspends, returns or raises. A
cancellation ends the worker, any other exception only counts. -/
def settle (env : Environment) (w : World) (packet : MediaPacket) (target : Nat) :
    Processor.Progress → World
  | .suspended self =>
    { w with
      heap := Function.update w.heap target self
      processorLock := true
      worker := .processing packet target }
  | .returned outputs self =>
    { w with
      heap := Function.update w.heap target self
      processorLock := false
      worker := .getting
      traffic := countProcessed (emitOutputs env w target packet.senderHost outputs w.traffic)
      history := w.history.called [⟨target, .process packet, .ends⟩] }
  | .raised error self =>
    { w with
      heap := Function.update w.heap target self
      processorLock := false
      worker := if error = .cancelledError then .finished else .getting
      traffic := if error = .cancelledError then w.traffic else countError w.traffic
      history := w.history.called [⟨target, .process packet, .ends⟩] }

def workerStep (env : Environment) (w : World) : Option World :=
  match w.worker with
  | .finished => none
  | .getting =>
    if w.cancelRequested then some { w with worker := .finished, cancelRequested := false }
    else match w.inputQueue with
      | [] => none
      | packet :: rest => some { w with
          inputQueue := rest
          worker := .acquiring packet
          history := { w.history with taken := w.history.taken ++ [packet] } }
  | .acquiring packet =>
    if w.cancelRequested then some { w with worker := .finished, cancelRequested := false }
    else if w.processorLock then none
    else
      let entered := { w with
        history := w.history.called [⟨w.processor, .process packet, .begins⟩] }
      some (settle env entered packet w.processor
        ((w.heap w.processor).process env.host packet.payload))
  | .processing packet target =>
    if w.cancelRequested then
      some (settle env { w with cancelRequested := false } packet target
        ((w.heap target).interrupt packet.payload))
    else some (settle env w packet target ((w.heap target).resume packet.payload))

end Loop

section Control

def Swap.candidate (snapshot : Settings) (updates : Updates) : Settings :=
  replace snapshot updates.value

def ended (w : World) (frame : Frame) : World := { w with tasks := w.tasks ++ [frame] }

def launched (w : World) (swap : Swap) (replacement : Processor) : World :=
  { w with
    heap := Function.update w.heap w.next replacement
    next := w.next + 1
    tasks := w.tasks ++ [.starting swap w.next]
    history := w.history.called [⟨w.next, .start, .begins⟩] }

def applyLive (w : World) (rule : LiveApplyRule) (candidate : Settings) : World :=
  { w with
    heap := Function.update w.heap w.processor
      ((w.heap w.processor).setAttribute rule.attr (rule.value candidate))
    settings := candidate
    tasks := w.tasks ++ [.returned (.applied false rule.appliesFrom)]
    history := w.history.changed w.tasks.length [.settings candidate] }

def updateRuntimeSettings (w : World) (updates : Updates) : World :=
  let candidate := Swap.candidate w.settings updates
  match unknownFailure updates.unknown, validateRuntimeSettings candidate with
  | .error e, _ => ended w (.raised e)
  | .ok _, .error e => ended w (.raised e)
  | .ok _, .ok _ =>
    match findLiveApplyRule updates (w.heap w.processor) with
    | some rule => applyLive w rule candidate
    | none =>
      match create candidate candidate.processor with
      | .error e => ended w (.raised e)
      | .ok replacement => launched w (.update w.settings updates) replacement

def selectProcessor (w : World) (name : String) : World :=
  match create w.processorRegistry name with
  | .error e => ended w (.raised e)
  | .ok replacement => launched w (.select name) replacement

/- Cancelling a task that is done does nothing. Without a worker the call goes on to the
lock. -/
def stop (w : World) : World :=
  if ¬ w.running then ended w (.returned .nothing)
  else if w.workerTask then
    { w with
      cancelRequested := match w.worker with
        | .finished => w.cancelRequested
        | _ => true
      tasks := w.tasks ++ [.joining] }
  else ended w (.acquiring .shutdown)

def call (w : World) (request : Request) : World :=
  let w := { w with history := { w.history with requests := w.history.requests ++ [request] } }
  match request with
  | .selectProcessor name => selectProcessor w name
  | .updateRuntimeSettings updates => updateRuntimeSettings w updates
  | .restoreStartupSettings => updateRuntimeSettings w (startupUpdates w.startupSettings)
  | .resetProcessor => ended w (.acquiring .reset)
  | .stop => stop w

def Swap.assignments : Swap → Nat → List Assignment
  | .select _, replacement => [.processor replacement]
  | .update snapshot updates, replacement =>
    let candidate := Swap.candidate snapshot updates
    [.processor replacement, .registry candidate, .settings candidate]

def install (w : World) : Swap → Nat → World
  | .select _, replacement => { w with processor := replacement }
  | .update snapshot updates, replacement =>
    let candidate := Swap.candidate snapshot updates
    { w with processor := replacement, processorRegistry := candidate, settings := candidate }

def enter (env : Environment) (w : World) (task : Nat) (job : Job) : World :=
  let old := w.processor
  match job with
  | .reset =>
    { w with
      heap := Function.update w.heap old (w.heap old).beginReset
      processorLock := true
      tasks := w.tasks.set task (.finishing .reset old)
      history := w.history.called [⟨old, .reset, .begins⟩] }
  | .shutdown =>
    match (w.heap old).flush env.host with
    | (.error e, self) =>
      { w with
        heap := Function.update w.heap old self
        tasks := w.tasks.set task (.raised e)
        history := w.history.called [⟨old, .flush, .begins⟩, ⟨old, .flush, .ends⟩] }
    | (.ok outputs, self) =>
      { w with
        heap := Function.update w.heap old self.beginReset
        processorLock := true
        tasks := w.tasks.set task (.finishing .shutdown old)
        traffic := flushOutputs env w old outputs w.traffic
        history := w.history.called
          [⟨old, .flush, .begins⟩, ⟨old, .flush, .ends⟩, ⟨old, .stop, .begins⟩] }
  | .swap swap replacement =>
    match (w.heap old).flush env.host with
    | (.error e, self) =>
      { w with
        heap := Function.update w.heap old self
        tasks := w.tasks.set task (.raised e)
        history := w.history.called [⟨old, .flush, .begins⟩, ⟨old, .flush, .ends⟩] }
    | (.ok outputs, self) =>
      install { w with
        heap := Function.update w.heap old self.beginReset
        processorLock := true
        tasks := w.tasks.set task (.finishing job old)
        traffic := flushOutputs env w old outputs w.traffic
        history := (w.history.called
          [⟨old, .flush, .begins⟩, ⟨old, .flush, .ends⟩, ⟨old, .stop, .begins⟩]).changed task
            (swap.assignments replacement) } swap replacement

/- The rest of the call, once that await is over. The lock is released, and what
follows does not suspend. -/
def leave (w : World) (task : Nat) (job : Job) (target : Nat) : World :=
  let w := { w with
    heap := Function.update w.heap target (w.heap target).endReset
    processorLock := false }
  match job with
  | .reset =>
    { w with
      tasks := w.tasks.set task (.returned .nothing)
      history := w.history.called [⟨target, .reset, .ends⟩] }
  | .shutdown =>
    { w with
      transport := false
      running := false
      tasks := w.tasks.set task (.returned .nothing)
      history := w.history.called [⟨target, .stop, .ends⟩] }
  | .swap (.select name) _ =>
    let settings := { w.settings with processor := name }
    { w with
      settings := settings
      tasks := w.tasks.set task (.returned .nothing)
      history := (w.history.called [⟨target, .stop, .ends⟩]).changed task [.settings settings] }
  | .swap (.update _ _) _ =>
    { w with
      tasks := w.tasks.set task (.returned (.applied true "immediately"))
      history := w.history.called [⟨target, .stop, .ends⟩] }

def resume (env : Environment) (w : World) (task : Nat) : Option World :=
  match w.tasks[task]? with
  | some (.starting swap replacement) => some { w with
      tasks := w.tasks.set task (.acquiring (.swap swap replacement))
      history := w.history.called [⟨replacement, .start, .ends⟩] }
  | some (.acquiring job) => if w.processorLock then none else some (enter env w task job)
  | some (.finishing job target) => some (leave w task job target)
  | some .joining =>
    match w.worker with
    | .finished => some { w with
        workerTask := false
        tasks := w.tasks.set task (.acquiring .shutdown) }
    | _ => none
  | _ => none

def startFails (w : World) (task : Nat) (error : PyError) : Option World :=
  match w.tasks[task]? with
  | some (.starting _ replacement) => some { w with
      tasks := w.tasks.set task (.raised error)
      history := w.history.called [⟨replacement, .start, .fails⟩] }
  | _ => none

end Control

inductive Event where
  | datagram (data : Bytes) (host : String) (port : Nat)
  | worker
  | inferenceEnds (target : Nat) (outcome : InferenceOutcome)
  | call (request : Request)
  | resume (task : Nat)
  | startFails (task : Nat) (error : PyError)

def step (env : Environment) (w : World) : Event → Option World
  | .datagram data host port => if w.transport then some (datagramReceived w data host port) else none
  | .worker => workerStep env w
  | .inferenceEnds target outcome =>
    ((w.heap target).inferenceEnds outcome).map
      (fun self => { w with heap := Function.update w.heap target self })
  | .call request => some (call w request)
  | .resume task => resume env w task
  | .startFails task error => startFails w task error

end KaraokeAnything.Service
