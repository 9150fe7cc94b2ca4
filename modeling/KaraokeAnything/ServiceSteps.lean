import KaraokeAnything.Service

/-! Everything one step of the service can do, one case for each way between two
awaits. Invariants are proved over these cases and never over the step function. -/
namespace KaraokeAnything.Service
open ByteOrder Config Kany Lifecycle Models Processors Python RuntimeSettings
open SegmentedInference (InferenceOutcome)

def asked (w : World) (request : Request) : World :=
  { w with history := { w.history with requests := w.history.requests ++ [request] } }

def Request.updates (w : World) : Request → Option Updates
  | .updateRuntimeSettings updates => some updates
  | .restoreStartupSettings => some (startupUpdates w.startupSettings)
  | _ => none

def Request.swap (w : World) : Request → Option Swap
  | .selectProcessor name => some (.select name)
  | request => (request.updates w).map (Swap.update w.settings)

def Swap.name : Swap → String
  | .select name => name
  | .update snapshot updates => (Swap.candidate snapshot updates).processor

def Swap.registry (w : World) : Swap → Settings
  | .select _ => w.processorRegistry
  | .update snapshot updates => Swap.candidate snapshot updates

inductive Step (env : Environment) (w : World) : Event → World → Prop where
  | ingress (data : Bytes) (host : String) (port : Nat) (opened : w.transport = true) :
    Step env w (.datagram data host port) (datagramReceived w data host port)
  | workerCancelled (requested : w.cancelRequested = true)
    (outside : ∀ packet target, w.worker ≠ .processing packet target) :
    Step env w .worker { w with worker := .finished, cancelRequested := false }
  | workerTakes (packet : MediaPacket) (rest : List MediaPacket) (idle : w.worker = .getting)
    (queue : w.inputQueue = packet :: rest) (calm : w.cancelRequested = false) :
    Step env w .worker { w with
      inputQueue := rest
      worker := .acquiring packet
      history := { w.history with taken := w.history.taken ++ [packet] } }
  | workerEnters (packet : MediaPacket) (waiting : w.worker = .acquiring packet)
    (free : w.processorLock = false) (calm : w.cancelRequested = false) :
    Step env w .worker (settle env
      { w with history := w.history.called [⟨w.processor, .process packet, .begins⟩] }
      packet w.processor ((w.heap w.processor).process env.host packet.payload))
  | workerInterrupted (packet : MediaPacket) (target : Nat)
    (inside : w.worker = .processing packet target) (requested : w.cancelRequested = true) :
    Step env w .worker (settle env { w with cancelRequested := false } packet target
      ((w.heap target).interrupt packet.payload))
  | workerResumes (packet : MediaPacket) (target : Nat)
    (inside : w.worker = .processing packet target) (calm : w.cancelRequested = false) :
    Step env w .worker (settle env w packet target ((w.heap target).resume packet.payload))
  | inference (target : Nat) (outcome : InferenceOutcome) (self : Processor)
    (ends : (w.heap target).inferenceEnds outcome = some self) :
    Step env w (.inferenceEnds target outcome)
      { w with heap := Function.update w.heap target self }
  | refused (request : Request) (error : PyError) (swaps : (request.swap w).isSome = true) :
    Step env w (.call request) (ended (asked w request) (.raised error))
  | appliedLive (request : Request) (updates : Updates) (rule : LiveApplyRule)
    (brought : request.updates w = some updates) (known : updates.unknown = [])
    (valid : validateRuntimeSettings (Swap.candidate w.settings updates) = .ok ())
    (found : findLiveApplyRule updates (w.heap w.processor) = some rule) :
    Step env w (.call request)
      (applyLive (asked w request) rule (Swap.candidate w.settings updates))
  | launches (request : Request) (swap : Swap) (replacement : Processor)
    (brought : request.swap w = some swap)
    (created : create (swap.registry w) swap.name = .ok replacement) :
    Step env w (.call request) (launched (asked w request) swap replacement)
  | asksReset : Step env w (.call .resetProcessor)
    (ended (asked w .resetProcessor) (.acquiring .reset))
  | stopIdle (down : w.running = false) :
    Step env w (.call .stop) (ended (asked w .stop) (.returned .nothing))
  | stopJoins (up : w.running = true) (live : w.workerTask = true) :
    Step env w (.call .stop) { asked w .stop with
      cancelRequested := match w.worker with
        | .finished => w.cancelRequested
        | _ => true
      tasks := w.tasks ++ [.joining] }
  | stopWaits (up : w.running = true) (gone : w.workerTask = false) :
    Step env w (.call .stop) (ended (asked w .stop) (.acquiring .shutdown))
  | starts (t : Nat) (swap : Swap) (r : Nat) (found : w.tasks[t]? = some (.starting swap r)) :
    Step env w (.resume t) { w with
      tasks := w.tasks.set t (.acquiring (.swap swap r))
      history := w.history.called [⟨r, .start, .ends⟩] }
  | fails (t : Nat) (swap : Swap) (r : Nat) (error : PyError)
    (found : w.tasks[t]? = some (.starting swap r)) :
    Step env w (.startFails t error) { w with
      tasks := w.tasks.set t (.raised error)
      history := w.history.called [⟨r, .start, .fails⟩] }
  | joins (t : Nat) (found : w.tasks[t]? = some .joining) (complete : w.worker = .finished) :
    Step env w (.resume t) { w with
      workerTask := false
      tasks := w.tasks.set t (.acquiring .shutdown) }
  | entersReset (t : Nat) (found : w.tasks[t]? = some (.acquiring .reset))
    (free : w.processorLock = false) :
    Step env w (.resume t) { w with
      heap := Function.update w.heap w.processor (w.heap w.processor).beginReset
      processorLock := true
      tasks := w.tasks.set t (.finishing .reset w.processor)
      history := w.history.called [⟨w.processor, .reset, .begins⟩] }
  | flushRaises (t : Nat) (job : Job) (found : w.tasks[t]? = some (.acquiring job))
    (free : w.processorLock = false) (flushes : job ≠ .reset) (error : PyError) (self : Processor)
    (raised : (w.heap w.processor).flush env.host = (.error error, self)) :
    Step env w (.resume t) { w with
      heap := Function.update w.heap w.processor self
      tasks := w.tasks.set t (.raised error)
      history := w.history.called
        [⟨w.processor, .flush, .begins⟩, ⟨w.processor, .flush, .ends⟩] }
  | entersShutdown (t : Nat) (found : w.tasks[t]? = some (.acquiring .shutdown))
    (free : w.processorLock = false) (outputs : List ProcessedPacket) (self : Processor)
    (drained : (w.heap w.processor).flush env.host = (.ok outputs, self)) :
    Step env w (.resume t) { w with
      heap := Function.update w.heap w.processor self.beginReset
      processorLock := true
      tasks := w.tasks.set t (.finishing .shutdown w.processor)
      traffic := flushOutputs env w w.processor outputs w.traffic
      history := w.history.called [⟨w.processor, .flush, .begins⟩,
        ⟨w.processor, .flush, .ends⟩, ⟨w.processor, .stop, .begins⟩] }
  | entersSwap (t : Nat) (swap : Swap) (r : Nat)
    (found : w.tasks[t]? = some (.acquiring (.swap swap r))) (free : w.processorLock = false)
    (outputs : List ProcessedPacket) (self : Processor)
    (drained : (w.heap w.processor).flush env.host = (.ok outputs, self)) :
    Step env w (.resume t) (install { w with
      heap := Function.update w.heap w.processor self.beginReset
      processorLock := true
      tasks := w.tasks.set t (.finishing (.swap swap r) w.processor)
      traffic := flushOutputs env w w.processor outputs w.traffic
      history := (w.history.called [⟨w.processor, .flush, .begins⟩,
        ⟨w.processor, .flush, .ends⟩, ⟨w.processor, .stop, .begins⟩]).changed t
          (swap.assignments r) } swap r)
  | leaves (t : Nat) (job : Job) (target : Nat)
    (found : w.tasks[t]? = some (.finishing job target)) :
    Step env w (.resume t) (leave w t job target)

theorem datagramKeeps (w : World) (data : Bytes) (host : String) (port : Nat) :
    ∃ inputQueue metrics enqueued, datagramReceived w data host port = { w with
      inputQueue
      traffic := { w.traffic with metrics }
      history := { w.history with enqueued } } := by
  unfold datagramReceived
  simp only
  split
  · exact ⟨_, _, _, rfl⟩
  · split <;> exact ⟨_, _, _, rfl⟩

section Install
variable (w : World) (swap : Swap) (r : Nat)

@[simp] theorem installProcessor : (install w swap r).processor = r := by cases swap <;> rfl

@[simp] theorem installHeap : (install w swap r).heap = w.heap := by cases swap <;> rfl

@[simp] theorem installNext : (install w swap r).next = w.next := by cases swap <;> rfl

@[simp] theorem installWorker : (install w swap r).worker = w.worker := by cases swap <;> rfl

@[simp] theorem installQueue : (install w swap r).inputQueue = w.inputQueue := by
  cases swap <;> rfl

@[simp] theorem installTasks : (install w swap r).tasks = w.tasks := by cases swap <;> rfl

@[simp] theorem installTraffic : (install w swap r).traffic = w.traffic := by cases swap <;> rfl

@[simp] theorem installHistory : (install w swap r).history = w.history := by cases swap <;> rfl

end Install

section Cases
variable {env : Environment} {w w' : World}

theorem updateCases {request : Request} {updates : Updates}
    (brought : request.updates w = some updates) (swaps : request.swap w =
      some (.update w.settings updates)) :
    Step env w (.call request) (updateRuntimeSettings (asked w request) updates) := by
  have some_swap : (request.swap w).isSome = true := by simp [swaps]
  simp only [updateRuntimeSettings]
  split
  · exact .refused request _ some_swap
  · exact .refused request _ some_swap
  · rename_i known valid
    have known : updates.unknown = [] := by
      unfold unknownFailure at known
      split at known
      · rename_i empty
        simpa using empty
      · contradiction
    split
    · rename_i rule live
      exact .appliedLive request updates rule brought known valid live
    · split
      · exact .refused request _ some_swap
      · rename_i replacement created
        exact .launches request (.update w.settings updates) replacement swaps created

theorem callCases (request : Request) : Step env w (.call request) (call w request) := by
  cases request with
  | selectProcessor name =>
    simp only [call, selectProcessor]
    cases created : create w.processorRegistry name with
    | error e => exact .refused (.selectProcessor name) e rfl
    | ok replacement => exact .launches (.selectProcessor name) (.select name) replacement rfl created
  | updateRuntimeSettings updates => exact updateCases rfl rfl
  | restoreStartupSettings => exact updateCases rfl rfl
  | resetProcessor => exact .asksReset
  | stop =>
    simp only [call, stop]
    split
    · rename_i down
      exact .stopIdle (by simpa using down)
    · rename_i up
      split
      · rename_i live
        exact .stopJoins (by simpa using up) live
      · rename_i gone
        exact .stopWaits (by simpa using up) (by simpa using gone)

theorem workerCases (stepped : workerStep env w = some w') : Step env w .worker w' := by
  unfold workerStep at stepped
  split at stepped
  · contradiction
  · rename_i idle
    split at stepped
    · rename_i requested
      cases stepped
      exact .workerCancelled requested (by simp [idle])
    · rename_i calm
      split at stepped
      · contradiction
      · rename_i packet rest queue
        cases stepped
        exact .workerTakes packet rest idle queue (by simpa using calm)
  · rename_i packet waiting
    split at stepped
    · rename_i requested
      cases stepped
      exact .workerCancelled requested (by simp [waiting])
    · rename_i calm
      split at stepped
      · contradiction
      · rename_i free
        cases stepped
        exact .workerEnters packet waiting (by simpa using free) (by simpa using calm)
  · rename_i packet target inside
    split at stepped
    · rename_i requested
      cases stepped
      exact .workerInterrupted packet target inside requested
    · rename_i calm
      cases stepped
      exact .workerResumes packet target inside (by simpa using calm)

theorem enterCases {t : Nat} {job : Job} (found : w.tasks[t]? = some (.acquiring job))
    (free : w.processorLock = false) : Step env w (.resume t) (enter env w t job) := by
  cases job with
  | reset => exact .entersReset t found free
  | shutdown =>
    simp only [enter]
    rcases drained : (w.heap w.processor).flush env.host with ⟨result, self⟩
    cases result with
    | error e => exact .flushRaises t .shutdown found free (by simp) e self drained
    | ok outputs => exact .entersShutdown t found free outputs self drained
  | swap swap r =>
    simp only [enter]
    rcases drained : (w.heap w.processor).flush env.host with ⟨result, self⟩
    cases result with
    | error e => exact .flushRaises t (.swap swap r) found free (by simp) e self drained
    | ok outputs => exact .entersSwap t swap r found free outputs self drained

theorem stepCases {event : Event} (stepped : step env w event = some w') : Step env w event w' := by
  cases event with
  | datagram data host port =>
    simp only [step] at stepped
    split at stepped
    · rename_i opened
      cases stepped
      exact .ingress data host port opened
    · contradiction
  | worker => exact workerCases stepped
  | inferenceEnds target outcome =>
    obtain ⟨self, ends, same⟩ := Option.map_eq_some_iff.mp stepped
    cases same
    exact .inference target outcome self ends
  | call request =>
    cases stepped
    exact callCases request
  | resume t =>
    simp only [step, resume] at stepped
    split at stepped
    · rename_i swap r found
      cases stepped
      exact .starts t swap r found
    · rename_i job found
      split at stepped
      · contradiction
      · rename_i free
        cases stepped
        exact enterCases found (by simpa using free)
    · rename_i job target found
      cases stepped
      exact .leaves t job target found
    · rename_i found
      split at stepped
      · rename_i complete
        cases stepped
        exact .joins t found complete
      · contradiction
    · contradiction
  | startFails t error =>
    simp only [step, startFails] at stepped
    split at stepped
    · rename_i swap r found
      cases stepped
      exact .fails t swap r error found
    · contradiction

end Cases

end KaraokeAnything.Service
