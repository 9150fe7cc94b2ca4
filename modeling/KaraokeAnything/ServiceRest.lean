import KaraokeAnything.Library.Settling
import KaraokeAnything.ServiceRuns

/-! The service comes to rest: once no datagram and no call arrives any more, the worker and
the calls that are under way end in a bounded number of steps, in whatever order the event
loop takes them, and none of them waits for another forever. -/
namespace KaraokeAnything.Service
open ByteOrder Config Kany Lifecycle Models Processors Python RuntimeSettings
open HotSwap (atMap given)
open Processor (Progress)
open Runs Settling

section Work

def Worker.work : Worker → Nat
  | .finished => 0
  | .getting => 1
  | .processing _ _ => 2
  | .acquiring _ => 3

def Frame.work : Frame → Nat
  | .starting _ _ | .joining => 3
  | .acquiring _ => 2
  | .finishing _ _ => 1
  | .returned _ | .raised _ => 0

def work (w : World) : Nat :=
  3 * w.inputQueue.length + w.worker.work + (w.tasks.map Frame.work).sum

def Event.advances : Event → Bool
  | .worker | .resume _ | .startFails _ _ => true
  | .datagram _ _ _ | .call _ | .inferenceEnds _ _ => false

def Event.Proceeds : Event → Prop
  | .worker | .resume _ => True
  | _ => False

theorem proceedsAdvances {event : Event} (proceeds : event.Proceeds) : event.advances = true := by
  cases event with
  | worker | resume => rfl
  | datagram | call | inferenceEnds | startFails => exact proceeds.elim

def Event.Inner : Event → Prop
  | .datagram _ _ _ | .call _ => False
  | _ => True

variable {env : Environment} {w w' : World}

def Progress.Stays : Progress → Prop
  | .suspended _ => False
  | _ => True

theorem resumeStays (p : Processor) (payload : Bytes) : Progress.Stays (p.resume payload) := by
  cases p <;> exact trivial

theorem interruptStays (p : Processor) (payload : Bytes) :
    Progress.Stays (p.interrupt payload) := by
  cases p <;> exact trivial

theorem settleLeaves {packet : MediaPacket} {target : Nat} {progress : Progress}
    (stays : Progress.Stays progress) :
    (settle env w packet target progress).worker.work ≤ 1 := by
  cases progress with
  | suspended self => exact stays.elim
  | returned outputs self => exact Nat.le_refl _
  | raised error self =>
    simp only [settle]
    split
    · exact Nat.zero_le _
    · exact Nat.le_refl _

theorem settleShort (packet : MediaPacket) (target : Nat) (progress : Progress) :
    (settle env w packet target progress).worker.work ≤ 2 := by
  cases progress with
  | suspended self => exact Nat.le_refl _
  | returned outputs self => exact Nat.le_succ 1
  | raised error self => exact (@settleLeaves env w packet target (.raised error self) trivial).trans (Nat.le_succ 1)

theorem workerLowers (less : w'.worker.work < w.worker.work) (queue : w'.inputQueue = w.inputQueue)
    (tasks : w'.tasks = w.tasks) : work w' < work w := by
  simp only [work, queue, tasks]
  omega

theorem settleLowers {u : World} {packet : MediaPacket} {target : Nat} {progress : Progress}
    (less : (settle env u packet target progress).worker.work < w.worker.work)
    (queue : u.inputQueue = w.inputQueue) (tasks : u.tasks = w.tasks) :
    work (settle env u packet target progress) < work w := by
  refine workerLowers less ?_ ?_
  · cases progress <;> exact queue
  · cases progress <;> exact tasks

theorem taskLowers {t : Nat} {old new : Frame} (found : w.tasks[t]? = some old)
    (less : new.work < old.work) (tasks : w'.tasks = w.tasks.set t new)
    (queue : w'.inputQueue = w.inputQueue) (worker : w'.worker = w.worker) : work w' < work w := by
  have weight := weightSet Frame.work found new
  simp only [work, tasks, queue, worker]
  omega

theorem stepLowers {event : Event} (sound : Sound w) (moves : event.advances = true) (step : Step env w event w') :
    work w' < work w := by
  cases step with
  | ingress | refused | appliedLive | launches | asksReset | stopIdle | stopJoins | stopWaits
  | inference => contradiction
  | workerCancelled requested outside =>
    have alive := (sound.named.cancels requested).1
    refine workerLowers ?_ rfl rfl
    cases here : w.worker with
    | finished => exact absurd here alive
    | getting | acquiring packet | processing packet target => exact Nat.succ_pos _
  | workerTakes packet rest idle queue calm =>
    simp only [work, idle, queue, Worker.work, List.length_cons]
    omega
  | workerEnters packet waiting free calm =>
    refine settleLowers ?_ rfl rfl
    rw [waiting]
    exact Nat.lt_succ_of_le (settleShort packet _ _)
  | workerInterrupted packet target inside requested =>
    refine settleLowers ?_ rfl rfl
    rw [inside]
    exact Nat.lt_succ_of_le (settleLeaves (interruptStays _ _))
  | workerResumes packet target inside calm =>
    refine settleLowers ?_ rfl rfl
    rw [inside]
    exact Nat.lt_succ_of_le (settleLeaves (resumeStays _ _))
  | starts t swap r found => exact taskLowers found (by simp [Frame.work]) rfl rfl rfl
  | fails t swap r error found => exact taskLowers found (by simp [Frame.work]) rfl rfl rfl
  | joins t found complete => exact taskLowers found (by simp [Frame.work]) rfl rfl rfl
  | entersReset t found free => exact taskLowers found (by simp [Frame.work]) rfl rfl rfl
  | flushRaises t job found free flushes error self raised =>
    exact taskLowers found (by simp [Frame.work]) rfl rfl rfl
  | entersShutdown t found free outputs self drained =>
    exact taskLowers found (by simp [Frame.work]) rfl rfl rfl
  | entersSwap t swap r found free outputs self drained =>
    exact taskLowers found (by simp [Frame.work]) (installTasks _ _ _) (installQueue _ _ _)
      (installWorker _ _ _)
  | leaves t job target found =>
    cases job with
    | reset | shutdown => exact taskLowers found (by simp [Frame.work]) rfl rfl rfl
    | swap swap r => cases swap <;> exact taskLowers found (by simp [Frame.work]) rfl rfl rfl

theorem consumesWork : Consumes (step env) Sound Event.Inner Event.advances work where
  kept _ _ _ sound stepped := stepSound sound stepped
  lowers _ _ _ sound moves stepped := stepLowers sound moves (stepCases stepped)
  keeps w event w' _ inner still stepped := by
    cases event with
    | datagram | call => exact inner.elim
    | worker | resume | startFails => contradiction
    | inferenceEnds target outcome =>
      obtain ⟨self, _, rfl⟩ := Option.map_eq_some_iff.mp stepped
      rfl

end Work

section Rest
variable {env : Environment} {w w' : World}

def Frame.Replied : Frame → Prop
  | .returned _ | .raised _ => True
  | _ => False

/- Nothing to do, and nobody who waits; but for a `stop` whose worker went on. -/
structure Rests (w : World) : Prop where
  lock : w.processorLock = false
  worker : w.worker = .finished ∨
    w.worker = .getting ∧ w.inputQueue = [] ∧ w.cancelRequested = false
  calls : ∀ frame ∈ w.tasks, frame.Replied ∨ (frame = .joining ∧ w.worker ≠ .finished)

theorem restsStuck (rests : Rests w) {event : Event} (moves : event.advances = true) :
    step env w event = none := by
  have slot (t : Nat) : w.tasks[t]? = none ∨ ∃ frame, w.tasks[t]? = some frame ∧
      (frame.Replied ∨ (frame = .joining ∧ w.worker ≠ .finished)) := by
    cases found : w.tasks[t]? with
    | none => exact .inl rfl
    | some frame => exact .inr ⟨frame, rfl, rests.calls frame (List.mem_of_getElem? found)⟩
  cases event with
  | datagram | call | inferenceEnds => contradiction
  | worker =>
    rcases rests.worker with ended | ⟨idle, empty, calm⟩
    · simp only [step, workerStep, ended]
    · simp [step, workerStep, idle, empty, calm]
  | resume t =>
    rcases slot t with none | ⟨frame, found, replied | ⟨rfl, alive⟩⟩
    · simp only [step, resume, none]
    · cases frame <;> first | exact replied.elim | simp only [step, resume, found]
    · simp only [step, resume, found]
  | startFails t error =>
    rcases slot t with none | ⟨frame, found, replied | ⟨rfl, _⟩⟩
    · simp only [step, startFails, none]
    · cases frame <;> first | exact replied.elim | simp only [step, startFails, found]
    · simp only [step, startFails, found]

theorem stuckFree (sound : Sound w)
    (stuck : ∀ event : Event, event.Proceeds → step env w event = none) :
    w.processorLock = false := by
  by_contra taken
  obtain ⟨holder, inside⟩ := sound.linked.exclusive.taken.mp ((Bool.not_eq_false _).mp taken)
  cases holder with
  | worker =>
    obtain ⟨packet, target, within⟩ := inside
    have still := stuck .worker trivial
    change w.worker.plain = _ at within
    cases here : w.worker with
    | finished | getting | acquiring => simp [here, Worker.plain] at within
    | processing packet target =>
      simp only [step, workerStep, here] at still
      split at still <;> contradiction
  | client t =>
    obtain ⟨job, within⟩ := inside
    have still := stuck (.resume t) trivial
    obtain ⟨frame, found, busy⟩ := Option.bind_eq_some_iff.mp (atMap.mp within)
    cases frame with
    | finishing job target =>
      simp only [step, resume, found] at still
      contradiction
    | starting | acquiring | joining | returned | raised => contradiction

theorem stuckRests (sound : Sound w)
    (stuck : ∀ event : Event, event.Proceeds → step env w event = none) : Rests w := by
  have free := stuckFree sound stuck
  refine ⟨free, ?_, fun frame inside => ?_⟩
  · have still := stuck .worker trivial
    cases here : w.worker with
    | finished => exact .inl rfl
    | getting =>
      simp only [step, workerStep, here] at still
      split at still
      · contradiction
      · rename_i calm
        split at still
        · rename_i empty
          exact .inr ⟨rfl, empty, by simpa using calm⟩
        · contradiction
    | acquiring packet =>
      simp only [step, workerStep, here, free] at still
      split at still <;> contradiction
    | processing packet target =>
      simp only [step, workerStep, here] at still
      split at still <;> contradiction
  · obtain ⟨t, found⟩ := List.getElem?_of_mem inside
    have still := stuck (.resume t) trivial
    cases frame with
    | returned | raised => exact .inl trivial
    | starting swap r =>
      simp only [step, resume, found] at still
      contradiction
    | acquiring job =>
      simp only [step, resume, found, free] at still
      contradiction
    | finishing job target =>
      simp only [step, resume, found] at still
      contradiction
    | joining =>
      refine .inr ⟨rfl, fun ended => ?_⟩
      simp only [step, resume, found, ended] at still
      contradiction

theorem restsIff (sound : Sound w) :
    Rests w ↔ ∀ event : Event, event.Proceeds → step env w event = none :=
  ⟨fun rests _ proceeds => restsStuck rests (proceedsAdvances proceeds), stuckRests sound⟩

theorem restsOrProceeds (sound : Sound w) :
    Rests w ∨ ∃ event w', event.Proceeds ∧ step env w event = some w' := by
  by_cases moves : ∃ event w', event.Proceeds ∧ step env w event = some w'
  · exact .inr moves
  · refine .inl (@stuckRests env w sound fun event proceeds => ?_)
    rw [Option.eq_none_iff_forall_ne_some]
    exact fun w' stepped => moves ⟨event, w', proceeds, stepped⟩

end Rest

section Awaited
variable {env : Environment} {settings : Settings} {w w' : World} {events : List Event}

/- The cancellation arrives while MDX23C awaits the reset of a format change, which catches
it. -/
def Swallows (w : World) (event : Event) : Prop :=
  event = .worker ∧ w.cancelRequested = true ∧
    ∃ packet target self, w.worker = .processing packet target ∧ w.heap target = .mdx23c self

def Awaited (w : World) : Prop :=
  Frame.joining ∈ w.tasks → w.worker = .finished ∨ w.cancelRequested = true

theorem awaitedSame (awaited : Awaited w) (fewer : Frame.joining ∈ w'.tasks → Frame.joining ∈ w.tasks)
    (worker : w'.worker = w.worker) (cancel : w'.cancelRequested = w.cancelRequested) :
    Awaited w' := by
  intro inside
  rw [worker, cancel]
  exact awaited (fewer inside)

theorem fewerSet {t : Nat} {frame : Frame} {tasks : List Frame} (other : frame ≠ .joining)
    (inside : Frame.joining ∈ tasks.set t frame) : Frame.joining ∈ tasks := by
  rcases List.mem_or_eq_of_mem_set inside with old | new
  · exact old
  · exact absurd new.symm other

theorem fewerSnoc {frame : Frame} {tasks : List Frame} (other : frame ≠ .joining)
    (inside : Frame.joining ∈ tasks ++ [frame]) : Frame.joining ∈ tasks := by
  rcases List.mem_append.mp inside with old | new
  · exact old
  · exact absurd (List.mem_singleton.mp new).symm other

theorem calmAlone (awaited : Awaited w) (alive : w.worker ≠ .finished)
    (calm : w.cancelRequested = false) : Frame.joining ∉ w.tasks := by
  intro inside
  rcases awaited inside with ended | requested
  · exact alive ended
  · rw [calm] at requested
    contradiction

theorem settleTasks (packet : MediaPacket) (target : Nat) (progress : Progress) :
    (settle env w packet target progress).tasks = w.tasks := by
  cases progress <;> rfl

theorem interruptEnds {p : Processor} (other : ∀ self, p ≠ .mdx23c self) (payload : Bytes) :
    p.interrupt payload = .raised .cancelledError p := by
  cases p with
  | mdx23c self => exact absurd rfl (other self)
  | passthrough | delayPassthrough | null | centreReduction | htdemucs | convTasNet => rfl

theorem stepAwaited {event : Event} (awaited : Awaited w) (heeded : ¬ Swallows w event)
    (step : Step env w event w') : Awaited w' := by
  cases step with
  | ingress data host port opened =>
    obtain ⟨queue, metrics, enqueued, received⟩ := datagramKeeps w data host port
    rw [received]
    exact awaited
  | workerCancelled requested outside => exact fun _ => .inl rfl
  | workerTakes packet rest idle queue calm =>
    have alone := calmAlone awaited (by simp [idle]) calm
    exact fun inside => absurd inside alone
  | workerEnters packet waiting free calm =>
    have alone := calmAlone awaited (by simp [waiting]) calm
    intro inside
    rw [settleTasks] at inside
    exact absurd inside alone
  | workerInterrupted packet target inside requested =>
    have other : ∀ self, w.heap target ≠ .mdx23c self := fun self here =>
      heeded ⟨rfl, requested, packet, target, self, inside, here⟩
    rw [interruptEnds other]
    exact fun _ => .inl rfl
  | workerResumes packet target here calm =>
    have alone := calmAlone awaited (by simp [here]) calm
    intro inside
    rw [settleTasks] at inside
    exact absurd inside alone
  | stopJoins up live =>
    intro _
    cases here : w.worker with
    | finished => exact .inl here
    | getting | acquiring | processing => exact .inr rfl
  | leaves t job target found =>
    cases job with
    | reset | shutdown => exact awaitedSame awaited (fewerSet (by simp)) rfl rfl
    | swap swap r => cases swap <;> exact awaitedSame awaited (fewerSet (by simp)) rfl rfl
  | entersSwap t swap r found free outputs self drained =>
    refine awaitedSame awaited ?_ (installWorker _ _ _) (by cases swap <;> rfl)
    rw [installTasks]
    exact fewerSet (by simp)
  | inference target outcome self ends => exact awaited
  | refused | appliedLive | launches | asksReset | stopIdle | stopWaits =>
    exact awaitedSame awaited (fewerSnoc (by simp)) rfl rfl
  | starts | fails | joins | entersReset | flushRaises | entersShutdown =>
    exact awaitedSame awaited (fewerSet (by simp)) rfl rfl

theorem runAwaited (start : started settings = .ok w) (ran : run (step env) w events = some w')
    (heeded : Along (step env) (fun r e => ¬ Swallows r e) w events) : Awaited w' := by
  have nobody : Awaited w := by
    obtain ⟨p, _, rfl⟩ := startedFresh start
    exact fun inside => absurd inside (List.not_mem_nil)
  exact runInvariantAlong Awaited nobody
    (fun _ _ _ awaited heeds stepped => stepAwaited awaited heeds (stepCases stepped)) heeded ran

end Awaited

section Drained
variable {env : Environment} {settings : Settings} {w w' : World} {events : List Event}

def Queued (w : World) : Prop := w.history.taken ++ w.inputQueue = w.history.enqueued

theorem stepQueued {event : Event} (queued : Queued w) (step : Step env w event w') : Queued w' := by
  cases step with
  | ingress data host port opened =>
    unfold datagramReceived
    simp only
    split
    · exact queued
    · split
      · exact queued
      · change w.history.taken ++ (w.inputQueue ++ _) = w.history.enqueued ++ _
        rw [← List.append_assoc, queued]
  | workerTakes packet rest idle queue calm =>
    change (w.history.taken ++ [packet]) ++ rest = w.history.enqueued
    rw [List.append_assoc, List.singleton_append, ← queue, queued]
  | workerEnters packet waiting free calm =>
    generalize (w.heap w.processor).process env.host packet.payload = progress
    cases progress <;> exact queued
  | workerInterrupted packet target inside requested =>
    generalize (w.heap target).interrupt packet.payload = progress
    cases progress <;> exact queued
  | workerResumes packet target inside calm =>
    generalize (w.heap target).resume packet.payload = progress
    cases progress <;> exact queued
  | entersSwap t swap r found free outputs self drained =>
    unfold Queued
    rw [installHistory, installQueue]
    exact queued
  | leaves t job target found =>
    cases job with
    | reset | shutdown => exact queued
    | swap swap r => cases swap <;> exact queued
  | workerCancelled | inference | refused | appliedLive | launches | asksReset | stopIdle
  | stopJoins | stopWaits | starts | fails | joins | entersReset | flushRaises | entersShutdown =>
    exact queued

theorem runQueued (start : started settings = .ok w) (ran : run (step env) w events = some w') :
    Queued w' := by
  have first : Queued w := by
    obtain ⟨p, _, rfl⟩ := startedFresh start
    rfl
  exact runInvariant Queued first (fun _ _ _ queued stepped => stepQueued queued (stepCases stepped)) ran

theorem runWhole (start : started settings = .ok w) (ran : run (step env) w events = some w')
    (unstopped : ∀ event ∈ events, event ≠ .call .stop) :
    given w'.history.calls ++ w'.worker.plain.held = w'.history.taken := by
  have tidy : Tidy w' := runInvariant Tidy ⟨startedSound start, fun _ => startedOrdered start⟩
    (fun _ _ _ tidy stepped => stepTidy tidy stepped) ran
  have unasked : (skeleton w').asked = false := by
    obtain ⟨p, _, rfl⟩ := startedFresh start
    change w'.history.requests.any Request.stops = false
    rw [runRequests ran, List.any_append, List.any_flatMap]
    refine Bool.or_eq_false_iff.mpr ⟨rfl, List.any_eq_false.mpr fun event taken => ?_⟩
    have other := unstopped event taken
    cases event with
    | call request =>
      cases request with
      | stop => exact absurd rfl other
      | selectProcessor | updateRuntimeSettings | restoreStartupSettings | resetProcessor =>
        simp [Event.request, Request.stops]
    | datagram | worker | inferenceEnds | resume | startFails => simp [Event.request]
  obtain ⟨_, ordered⟩ := tidy.ordered unasked
  exact ordered.whole

theorem restsDrained (start : started settings = .ok w) (ran : run (step env) w events = some w')
    (rests : Rests w') (unstopped : ∀ event ∈ events, event ≠ .call .stop)
    (alive : w'.worker ≠ .finished) : given w'.history.calls = w'.history.enqueued := by
  have whole := runWhole start ran unstopped
  have queued := runQueued start ran
  rcases rests.worker with ended | ⟨idle, empty, _⟩
  · exact absurd ended alive
  · rw [idle] at whole
    rw [Queued, empty, List.append_nil] at queued
    rw [← queued, ← whole]
    exact (List.append_nil _).symm

theorem restsReplied (rests : Rests w') (awaited : Awaited w') : ∀ frame ∈ w'.tasks, frame.Replied := by
  intro frame inside
  rcases rests.calls frame inside with replied | ⟨rfl, alive⟩
  · exact replied
  · rcases rests.worker with ended | ⟨_, _, calm⟩
    · exact absurd ended alive
    · exact absurd inside (calmAlone awaited alive calm)

theorem comesToRest (start : started settings = .ok w) (ran : run (step env) w events = some w') :
    (∀ later w'', (∀ event ∈ later, event.Inner) → run (step env) w' later = some w'' →
      later.countP Event.advances + work w'' ≤ work w') ∧
    (∃ later w'', (∀ event ∈ later, event.Proceeds) ∧
      run (step env) w' later = some w'' ∧ Rests w'') ∧
    (Rests w' ↔ ∀ event : Event, event.Proceeds → step env w' event = none) ∧
    (Rests w' → Along (step env) (fun r e => ¬ Swallows r e) w events →
      ∀ frame ∈ w'.tasks, frame.Replied) ∧
    (Rests w' → (∀ event ∈ events, event ≠ .call .stop) → w'.worker ≠ .finished →
      given w'.history.calls = w'.history.enqueued) := by
  have sound := runSound (startedSound start) ran
  refine ⟨fun later w'' inner reached => ?_, ?_, restsIff sound, fun rests heeded => ?_,
    fun rests unstopped alive => ?_⟩
  · exact advancesBounded consumesWork sound inner reached
  · exact reachesRest consumesWork Rests Event.Proceeds (fun _ => proceedsAdvances)
      (fun _ sound => restsOrProceeds sound) w' sound
  · exact restsReplied rests (runAwaited start ran heeded)
  · exact restsDrained start ran rests unstopped alive

theorem comesToRestSelected : ∃ w w', started {} = .ok w ∧
    run (step trial) w (selection.take 2) = some w' ∧
    ∃ later w'', (∀ event ∈ later, event.Proceeds) ∧ run (step trial) w' later = some w'' ∧ Rests w'' :=
  ⟨_, _, rfl, rfl, (@comesToRest trial {} _ _ (selection.take 2) rfl rfl).2.1⟩

end Drained

end KaraokeAnything.Service
