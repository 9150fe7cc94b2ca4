import KaraokeAnything.ProcessorFacts
import KaraokeAnything.ServiceSteps

/-! What one step does to the control calls: nothing, one more of them, or one that
goes on. Of all the rest, the steps that build or install a processor or assign a
setting are kept apart. -/
namespace KaraokeAnything.Service
open ByteOrder Config Kany Lifecycle Models Processors Python RuntimeSettings

section Heap
variable {heap : Nat → Processor} {i : Nat} {q : Processor}

theorem viewUpdate {β : Type} (view : Processor → β) (same : view q = view (heap i)) (j : Nat) :
    view (Function.update heap i q j) = view (heap j) := by
  by_cases here : j = i
  · rw [here, Function.update_self, same]
  · rw [Function.update_of_ne here]

theorem namesKept (same : q.name = (heap i).name) :
    (fun j => (Function.update heap i q j).name) = fun j => (heap j).name :=
  funext (viewUpdate Processor.name same)

theorem namesBorn (heap : Nat → Processor) (i : Nat) (q : Processor) :
    (fun j => (Function.update heap i q j).name) =
      Function.update (fun j => (heap j).name) i q.name := by
  funext j
  by_cases here : j = i
  · rw [here, Function.update_self, Function.update_self]
  · rw [Function.update_of_ne here, Function.update_of_ne here]

end Heap

section Turns

structure Retains (w w' : World) : Prop where
  startup : w'.startupSettings = w.startupSettings
  settings : w'.settings = w.settings
  registry : w'.processorRegistry = w.processorRegistry
  processor : w'.processor = w.processor
  next : w'.next = w.next
  changes : w'.history.changes = w.history.changes
  names : ∀ i, (w'.heap i).name = (w.heap i).name
  parameters : ∀ i, (w'.heap i).parameters = (w.heap i).parameters

def Works (w : World) (call : Call MediaPacket) : Prop :=
  (∃ packet, call.method = .process packet) ∧
    (call.target = w.processor ∨ ∃ packet, w.worker = .processing packet call.target)

structure Aside (w w' : World) : Prop extends Retains w w' where
  tasks : w'.tasks = w.tasks
  requests : w'.history.requests = w.history.requests
  calls : ∃ more, w'.history.calls = w.history.calls ++ more ∧ ∀ call ∈ more, Works w call

inductive Comes (w : World) : Request → Frame → Prop where
  | refused (request : Request) (error : PyError) (swaps : (request.swap w).isSome = true) :
    Comes w request (.raised error)
  | reset : Comes w .resetProcessor (.acquiring .reset)
  | idles : Comes w .stop (.returned .nothing)
  | joins : Comes w .stop .joining
  | waits : Comes w .stop (.acquiring .shutdown)

structure Arrived (w : World) (request : Request) (frame : Frame) (w' : World) : Prop
    extends Retains w w' where
  tasks : w'.tasks = w.tasks ++ [frame]
  requests : w'.history.requests = w.history.requests ++ [request]
  calls : w'.history.calls = w.history.calls

inductive Goes (w : World) (t : Nat) : Event → Frame → Frame → List (Call MediaPacket) → Prop where
  | starts (swap : Swap) (r : Nat) :
    Goes w t (.resume t) (.starting swap r) (.acquiring (.swap swap r)) [⟨r, .start, .ends⟩]
  | fails (swap : Swap) (r : Nat) (error : PyError) :
    Goes w t (.startFails t error) (.starting swap r) (.raised error) [⟨r, .start, .fails⟩]
  | joins : Goes w t (.resume t) .joining (.acquiring .shutdown) []
  | entersReset : Goes w t (.resume t) (.acquiring .reset) (.finishing .reset w.processor)
    [⟨w.processor, .reset, .begins⟩]
  | flushRaises (job : Job) (error : PyError) (flushes : job ≠ .reset)
    (bad : (w.heap w.processor).unharvestable = true) :
    Goes w t (.resume t) (.acquiring job) (.raised error)
      [⟨w.processor, .flush, .begins⟩, ⟨w.processor, .flush, .ends⟩]
  | entersShutdown : Goes w t (.resume t) (.acquiring .shutdown) (.finishing .shutdown w.processor)
    [⟨w.processor, .flush, .begins⟩, ⟨w.processor, .flush, .ends⟩, ⟨w.processor, .stop, .begins⟩]
  | leavesReset (target : Nat) : Goes w t (.resume t) (.finishing .reset target) (.returned .nothing)
    [⟨target, .reset, .ends⟩]
  | leavesShutdown (target : Nat) : Goes w t (.resume t) (.finishing .shutdown target)
    (.returned .nothing) [⟨target, .stop, .ends⟩]

structure Moved (w : World) (t : Nat) (old new : Frame) (more : List (Call MediaPacket))
    (w' : World) : Prop extends Retains w w' where
  found : w.tasks[t]? = some old
  tasks : w'.tasks = w.tasks.set t new
  requests : w'.history.requests = w.history.requests
  calls : w'.history.calls = w.history.calls ++ more

def drainedBy (w : World) : List (Call MediaPacket) :=
  [⟨w.processor, .flush, .begins⟩, ⟨w.processor, .flush, .ends⟩, ⟨w.processor, .stop, .begins⟩]

structure Entered (w : World) (t : Nat) (swap : Swap) (r : Nat) (w' : World) : Prop where
  found : w.tasks[t]? = some (.acquiring (.swap swap r))
  startup : w'.startupSettings = w.startupSettings
  settings : w'.settings = (install w swap r).settings
  registry : w'.processorRegistry = (install w swap r).processorRegistry
  processor : w'.processor = r
  next : w'.next = w.next
  names : ∀ i, (w'.heap i).name = (w.heap i).name
  parameters : ∀ i, (w'.heap i).parameters = (w.heap i).parameters
  tasks : w'.tasks = w.tasks.set t (.finishing (.swap swap r) w.processor)
  requests : w'.history.requests = w.history.requests
  calls : w'.history.calls = w.history.calls ++ drainedBy w
  changes : w'.history.changes = (w.history.changed t (swap.assignments r)).changes

def Swap.reply : Swap → Reply
  | .select _ => .nothing
  | .update _ _ => .applied true "immediately"

def Swap.settled (w : World) : Swap → Settings
  | .select name => { w.settings with processor := name }
  | .update _ _ => w.settings

def Swap.lastly (w : World) : Swap → List Assignment
  | .select name => [.settings { w.settings with processor := name }]
  | .update _ _ => []

structure Swapped (w : World) (t : Nat) (swap : Swap) (r target : Nat) (w' : World) : Prop where
  found : w.tasks[t]? = some (.finishing (.swap swap r) target)
  startup : w'.startupSettings = w.startupSettings
  settings : w'.settings = swap.settled w
  registry : w'.processorRegistry = w.processorRegistry
  processor : w'.processor = w.processor
  next : w'.next = w.next
  names : ∀ i, (w'.heap i).name = (w.heap i).name
  parameters : ∀ i, (w'.heap i).parameters = (w.heap i).parameters
  tasks : w'.tasks = w.tasks.set t (.returned swap.reply)
  requests : w'.history.requests = w.history.requests
  calls : w'.history.calls = w.history.calls ++ [⟨target, .stop, .ends⟩]
  changes : w'.history.changes = (w.history.changed t (swap.lastly w)).changes

def Event.request : Event → List Request
  | .call request => [request]
  | _ => []

inductive Turn (w : World) : Event → World → Prop where
  | aside {event : Event} {w' : World} (aside : Aside w w') (unasked : event.request = []) :
    Turn w event w'
  | arrives {w' : World} (request : Request) (frame : Frame) (comes : Comes w request frame)
    (arrived : Arrived w request frame w') : Turn w (.call request) w'
  | appliedLive (request : Request) (updates : Updates) (rule : LiveApplyRule)
    (brought : request.updates w = some updates)
    (valid : validateRuntimeSettings (Swap.candidate w.settings updates) = .ok ())
    (found : findLiveApplyRule updates (w.heap w.processor) = some rule) :
    Turn w (.call request) (applyLive (asked w request) rule (Swap.candidate w.settings updates))
  | launches (request : Request) (swap : Swap) (replacement : Processor)
    (brought : request.swap w = some swap)
    (created : create (swap.registry w) swap.name = .ok replacement) :
    Turn w (.call request) (launched (asked w request) swap replacement)
  | moves {event : Event} {w' : World} (t : Nat) (old new : Frame) (more : List (Call MediaPacket))
    (goes : Goes w t event old new more) (moved : Moved w t old new more w') : Turn w event w'
  | enters {w' : World} (t : Nat) (swap : Swap) (r : Nat) (entered : Entered w t swap r w') :
    Turn w (.resume t) w'
  | leaves {w' : World} (t : Nat) (swap : Swap) (r target : Nat)
    (left : Swapped w t swap r target w') : Turn w (.resume t) w'

end Turns

section Cases
variable {env : Environment} {w w' : World}

theorem retainsSame (w : World) : Retains w w :=
  ⟨rfl, rfl, rfl, rfl, rfl, rfl, fun _ => rfl, fun _ => rfl⟩

theorem retainsUpdate {target : Nat} {p : Processor} (name : p.name = (w.heap target).name)
    (parameters : p.parameters = (w.heap target).parameters) :
    Retains w { w with heap := Function.update w.heap target p } :=
  { retainsSame w with
    names := viewUpdate Processor.name name
    parameters := viewUpdate Processor.parameters parameters }

theorem settleAside {packet : MediaPacket} {target : Nat} {progress : Processor.Progress}
    (name : progress.self.name = (w.heap target).name)
    (parameters : progress.self.parameters = (w.heap target).parameters)
    (works : target = w.processor ∨ ∃ packet, w.worker = .processing packet target) :
    Aside w (settle env w packet target progress) := by
  have retains := retainsUpdate name parameters
  have last (call : Call MediaPacket) (inside : call ∈ [⟨target, .process packet, .ends⟩]) :
      Works w call := by
    cases List.mem_singleton.mp inside
    exact ⟨⟨packet, rfl⟩, works⟩
  cases progress with
  | suspended self => exact ⟨{ retains with }, rfl, rfl, [], by simp [settle], by simp⟩
  | returned outputs self => exact ⟨{ retains with }, rfl, rfl, _, rfl, last⟩
  | raised error self => exact ⟨{ retains with }, rfl, rfl, _, rfl, last⟩

theorem enterAside {packet : MediaPacket}
    (aside : Aside { w with
      history := w.history.called [⟨w.processor, .process packet, .begins⟩] } w') :
    Aside w w' := by
  obtain ⟨more, logged, works⟩ := aside.calls
  refine { aside with calls := ⟨⟨w.processor, .process packet, .begins⟩ :: more, ?_, ?_⟩ }
  · rw [logged]
    exact List.append_assoc _ _ _
  · exact List.forall_mem_cons.mpr ⟨⟨⟨packet, rfl⟩, .inl rfl⟩, works⟩

theorem drainedKeeps {host : HostOrder} {p self : Processor} {outputs : List ProcessedPacket}
    (drained : p.flush host = (.ok outputs, self)) :
    self.beginReset.name = p.name ∧ self.beginReset.parameters = p.parameters := by
  have flushes := Processor.flushRelays host p
  have resets := Processor.beginResetRelays self
  rw [drained] at flushes
  exact ⟨resets.name.trans flushes.name, resets.parameters.trans flushes.parameters⟩

theorem stepTurns {event : Event} (step : Step env w event w') : Turn w event w' := by
  have same := retainsSame w
  have silent : ∃ more, w.history.calls = w.history.calls ++ more ∧ ∀ call ∈ more, Works w call :=
    ⟨[], (List.append_nil _).symm, by simp⟩
  cases step with
  | ingress data host port opened =>
    obtain ⟨queue, metrics, enqueued, received⟩ := datagramKeeps w data host port
    rw [received]
    exact .aside ⟨{ same with }, rfl, rfl, silent⟩ rfl
  | workerCancelled requested outside => exact .aside ⟨{ same with }, rfl, rfl, silent⟩ rfl
  | workerTakes packet rest idle queue calm => exact .aside ⟨{ same with }, rfl, rfl, silent⟩ rfl
  | workerEnters packet waiting free calm =>
    have relays := Processor.processRelays env.host (w.heap w.processor) packet.payload
    exact .aside (enterAside (settleAside relays.name relays.parameters (.inl rfl))) rfl
  | workerInterrupted packet target inside requested =>
    have relays := Processor.interruptRelays (w.heap target) packet.payload
    have settled := @settleAside env { w with cancelRequested := false } packet target _ relays.name
      relays.parameters (.inr ⟨packet, inside⟩)
    exact .aside { settled with } rfl
  | workerResumes packet target inside calm =>
    have relays := Processor.resumeRelays (w.heap target) packet.payload
    exact .aside (settleAside relays.name relays.parameters (.inr ⟨packet, inside⟩)) rfl
  | inference target outcome self ends =>
    have relays := Processor.inferenceEndsRelays ends
    exact .aside ⟨retainsUpdate relays.name relays.parameters, rfl, rfl, silent⟩ rfl
  | refused request error swaps =>
    exact .arrives request _ (.refused request error swaps) ⟨{ same with }, rfl, rfl, rfl⟩
  | asksReset => exact .arrives _ _ .reset ⟨{ same with }, rfl, rfl, rfl⟩
  | stopIdle down => exact .arrives _ _ .idles ⟨{ same with }, rfl, rfl, rfl⟩
  | stopJoins up live => exact .arrives _ _ .joins ⟨{ same with }, rfl, rfl, rfl⟩
  | stopWaits up gone => exact .arrives _ _ .waits ⟨{ same with }, rfl, rfl, rfl⟩
  | appliedLive request updates rule brought known valid found =>
    exact .appliedLive request updates rule brought valid found
  | launches request swap replacement brought created =>
    exact .launches request swap replacement brought created
  | starts t swap r found =>
    exact .moves t _ _ _ (.starts swap r) ⟨{ same with }, found, rfl, rfl, rfl⟩
  | fails t swap r error found =>
    exact .moves t _ _ _ (.fails swap r error) ⟨{ same with }, found, rfl, rfl, rfl⟩
  | joins t found complete =>
    exact .moves t _ _ _ .joins ⟨{ same with }, found, rfl, rfl, (List.append_nil _).symm⟩
  | entersReset t found free =>
    have relays := Processor.beginResetRelays (w.heap w.processor)
    have retains := retainsUpdate relays.name relays.parameters
    exact .moves t _ _ _ .entersReset ⟨{ retains with }, found, rfl, rfl, rfl⟩
  | flushRaises t job found free flushes error self raised =>
    have bad := (Processor.flushFails env.host (w.heap w.processor)).mp ⟨error, by rw [raised]⟩
    have relays := Processor.flushRelays env.host (w.heap w.processor)
    rw [raised] at relays
    have retains := retainsUpdate relays.name relays.parameters
    exact .moves t _ _ _ (.flushRaises job error flushes bad) ⟨{ retains with }, found, rfl, rfl, rfl⟩
  | entersShutdown t found free outputs self drained =>
    have keeps := drainedKeeps drained
    have retains := retainsUpdate keeps.1 keeps.2
    exact .moves t _ _ _ .entersShutdown ⟨{ retains with }, found, rfl, rfl, rfl⟩
  | entersSwap t swap r found free outputs self drained =>
    have keeps := drainedKeeps drained
    have names := viewUpdate Processor.name keeps.1
    have parameters := viewUpdate Processor.parameters keeps.2
    cases swap <;>
      exact .enters t _ r ⟨found, rfl, rfl, rfl, rfl, rfl, names, parameters, rfl, rfl, rfl, rfl⟩
  | leaves t job target found =>
    have relays := Processor.endResetRelays (w.heap target)
    have retains := retainsUpdate relays.name relays.parameters
    cases job with
    | reset => exact .moves t _ _ _ (.leavesReset target) ⟨{ retains with }, found, rfl, rfl, rfl⟩
    | shutdown =>
      exact .moves t _ _ _ (.leavesShutdown target) ⟨{ retains with }, found, rfl, rfl, rfl⟩
    | swap swap r =>
      refine .leaves t swap r target ?_
      cases swap with
      | select name =>
        exact ⟨found, rfl, rfl, rfl, rfl, rfl, retains.names, retains.parameters, rfl, rfl, rfl, rfl⟩
      | update snapshot updates =>
        exact ⟨found, rfl, rfl, rfl, rfl, rfl, retains.names, retains.parameters, rfl, rfl, rfl,
          (List.append_nil _).symm⟩

end Cases

end KaraokeAnything.Service
