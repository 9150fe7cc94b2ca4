import KaraokeAnything.Library.Rank
import KaraokeAnything.ServiceRuns

/-! A stop of a running service, from its call to its end: it waits for the worker it
cancelled, flushes and stops the installed processor, and closes the transport. Two
things keep it from that: a flush that raises, and a reset inside MDX23C, which takes
the cancellation for that of its own inference. -/
namespace KaraokeAnything.Service
open ByteOrder Config Kany Lifecycle Models Processors Python RuntimeSettings
open HotSwap (At atAppend atAppendKept atElsewhere atFound atMap atSetKept atSetStays)
open Processor (Progress)
open Rank Runs

section Releasing

def Frame.shutting : Frame → Option Unit
  | .joining => some ()
  | .acquiring .shutdown | .finishing .shutdown _ => some ()
  | _ => none

def Frame.joined : Frame → Option Unit
  | .acquiring .shutdown | .finishing .shutdown _ => some ()
  | _ => none

/- The worker is inside the one await of a `process` that swallows a cancellation: the reset
of a changed stream in MDX23C. -/
def Deaf (w : World) : Prop :=
  ∃ packet target, w.worker = .processing packet target ∧ (w.heap target).name = "mdx23c-vocals"

def Ending (w : World) : Prop := w.worker = .finished ∨ w.cancelRequested = true

structure Releasing (w : World) : Prop where
  gone : w.workerTask = false → w.worker = .finished
  joined : ∀ t, At w.tasks Frame.joined t () → w.workerTask = false
  ending : ∀ t, At w.tasks Frame.shutting t () → Ending w
  heard : w.cancelRequested = true → ¬ Deaf w

structure Released (w : World) : Prop where
  worker : w.worker = .finished
  workerTask : w.workerTask = false
  stopped : ⟨w.processor, .stop, .ends⟩ ∈ w.history.calls
  transport : w.transport = false
  running : w.running = false

/- No stop comes while the worker is deaf, and none takes the lock where the flush will
raise. -/
structure Stoppable (w : World) (event : Event) : Prop where
  heard : event = .call .stop → ¬ Deaf w
  harvestable : ∀ t, event = .resume t → w.tasks[t]? = some (.acquiring .shutdown) →
    (w.heap w.processor).unharvestable = false

end Releasing

section Kept
variable {env : Environment} {w w' : World}

theorem interruptHeard {p : Processor} (payload : Bytes) (other : p.name ≠ "mdx23c-vocals") :
    p.interrupt payload = .raised .cancelledError p := by
  cases p <;> first | rfl | exact absurd rfl other

theorem deafKept (worker : w'.worker = w.worker)
    (names : ∀ packet target, w.worker = .processing packet target →
      (w'.heap target).name = (w.heap target).name) (deaf : Deaf w') : Deaf w := by
  obtain ⟨packet, target, inside, name⟩ := deaf
  rw [worker] at inside
  exact ⟨packet, target, inside, (names packet target inside).symm.trans name⟩

theorem sameReleasing (releasing : Releasing w) (tasks : w'.tasks = w.tasks)
    (workerTask : w'.workerTask = w.workerTask)
    (gone : w.worker = .finished → w'.worker = .finished) (ending : Ending w → Ending w')
    (heard : w'.cancelRequested = true → ¬ Deaf w') : Releasing w' := by
  obtain ⟨past, joined, under, _⟩ := releasing
  rw [← tasks] at joined under
  rw [← workerTask] at past joined
  exact ⟨fun complete => gone (past complete), joined, fun t shutting => ending (under t shutting), heard⟩

theorem callReleasing {frame : Frame} (releasing : Releasing w)
    (outside : frame.shutting = none ∧ frame.joined = none)
    (tasks : w'.tasks = w.tasks ++ [frame]) (workerTask : w'.workerTask = w.workerTask)
    (worker : w'.worker = w.worker) (requested : w'.cancelRequested = w.cancelRequested)
    (deaf : Deaf w' → Deaf w) : Releasing w' := by
  have ending : Ending w' = Ending w := by rw [Ending, Ending, worker, requested]
  refine ⟨?_, fun t joined => ?_, fun t shutting => ?_, ?_⟩
  · rw [workerTask, worker]
    exact releasing.gone
  · rw [tasks] at joined
    exact workerTask.trans (releasing.joined t (atAppendKept outside.2 joined))
  · rw [tasks] at shutting
    rw [ending]
    exact releasing.ending t (atAppendKept outside.1 shutting)
  · rw [requested]
    exact fun asked lost => releasing.heard asked (deaf lost)

theorem frameReleasing {t : Nat} {old new : Frame} (releasing : Releasing w)
    (found : w.tasks[t]? = some old)
    (outside : (new.shutting = some () → old.shutting = some ()) ∧
      (new.joined = some () → old.joined = some ()))
    (tasks : w'.tasks = w.tasks.set t new) (workerTask : w'.workerTask = w.workerTask)
    (worker : w'.worker = w.worker) (requested : w'.cancelRequested = w.cancelRequested)
    (deaf : Deaf w' → Deaf w) : Releasing w' := by
  have ending : Ending w' = Ending w := by rw [Ending, Ending, worker, requested]
  refine ⟨?_, fun u joined => ?_, fun u shutting => ?_, ?_⟩
  · rw [workerTask, worker]
    exact releasing.gone
  · rw [tasks] at joined
    exact workerTask.trans (releasing.joined u (atSetKept found (fun _ => outside.2) joined))
  · rw [tasks] at shutting
    rw [ending]
    exact releasing.ending u (atSetKept found (fun _ => outside.1) shutting)
  · rw [requested]
    exact fun asked lost => releasing.heard asked (deaf lost)

theorem updateDeaf {i : Nat} {q : Processor} (worker : w'.worker = w.worker)
    (heap : w'.heap = Function.update w.heap i q) (name : q.name = (w.heap i).name)
    (deaf : Deaf w') : Deaf w :=
  deafKept worker (fun _ target _ => by rw [heap]; exact viewUpdate Processor.name name target) deaf

theorem calmReleasing (releasing : Releasing w) (tasks : w'.tasks = w.tasks)
    (workerTask : w'.workerTask = w.workerTask) (alive : w.worker ≠ .finished)
    (calm : w.cancelRequested = false) (still : w'.cancelRequested = false) : Releasing w' := by
  refine sameReleasing releasing tasks workerTask (fun complete => absurd complete alive) (fun ending => ?_)
    (fun asked => ?_)
  · rcases ending with complete | asked
    · exact absurd complete alive
    · rw [calm] at asked
      contradiction
  · rw [still] at asked
    contradiction

theorem settleKeeps (packet : MediaPacket) (target : Nat) (progress : Progress) :
    (settle env w packet target progress).tasks = w.tasks ∧
      (settle env w packet target progress).workerTask = w.workerTask ∧
      (settle env w packet target progress).cancelRequested = w.cancelRequested := by
  cases progress <;> exact ⟨rfl, rfl, rfl⟩

theorem stepReleasing {event : Event} (sound : Sound w) (releasing : Releasing w)
    (stoppable : Stoppable w event) (step : Step env w event w') : Releasing w' := by
  have same : Deaf w → Deaf w := id
  cases step with
  | ingress data host port opened =>
    obtain ⟨queue, metrics, enqueued, received⟩ := datagramKeeps w data host port
    rw [received]
    exact sameReleasing releasing rfl rfl id id releasing.heard
  | workerCancelled requested outside =>
    exact sameReleasing releasing rfl rfl (fun _ => rfl) (fun _ => .inl rfl)
      (fun asked => by contradiction)
  | workerTakes packet rest idle queue calm =>
    exact calmReleasing releasing rfl rfl (by simp [idle]) calm calm
  | workerEnters packet waiting free calm =>
    obtain ⟨tasks, task, asked⟩ := @settleKeeps env
      { w with history := w.history.called [⟨w.processor, .process packet, .begins⟩] } packet
      w.processor ((w.heap w.processor).process env.host packet.payload)
    exact calmReleasing releasing tasks task (by simp [waiting]) calm (asked.trans calm)
  | workerInterrupted packet target inside requested =>
    have other : (w.heap target).name ≠ "mdx23c-vocals" := fun name =>
      releasing.heard requested ⟨packet, target, inside, name⟩
    rw [interruptHeard packet.payload other]
    exact sameReleasing releasing rfl rfl (fun _ => rfl) (fun _ => .inl rfl)
      (fun asked => by contradiction)
  | workerResumes packet target inside calm =>
    obtain ⟨tasks, task, asked⟩ := @settleKeeps env w packet target
      ((w.heap target).resume packet.payload)
    exact calmReleasing releasing tasks task (by simp [inside]) calm (asked.trans calm)
  | inference target outcome self ends =>
    have name := (Processor.inferenceEndsRelays ends).name
    refine sameReleasing releasing rfl rfl id id (fun asked deaf => ?_)
    refine releasing.heard asked (deafKept ?_ (fun _ other _ => ?_) deaf)
    · rfl
    · exact viewUpdate Processor.name name other
  | refused request error swaps => exact callReleasing releasing ⟨rfl, rfl⟩ rfl rfl rfl rfl same
  | appliedLive request updates rule brought known valid found =>
    exact callReleasing releasing ⟨rfl, rfl⟩ rfl rfl rfl rfl
      (updateDeaf rfl rfl (Processor.setAttributeName _ _ _))
  | launches request swap replacement brought created =>
    refine callReleasing releasing ⟨rfl, rfl⟩ rfl rfl rfl rfl
      (deafKept rfl (fun packet target inside => ?_))
    have here := sound.linked.worker packet target (by rw [skeleton, inside]; rfl)
    have below : target < w.next := here ▸ sound.linked.installed
    simp only [launched, asked, Function.update_of_ne (Nat.ne_of_lt below)]
  | asksReset => exact callReleasing releasing ⟨rfl, rfl⟩ rfl rfl rfl rfl same
  | stopIdle down => exact callReleasing releasing ⟨rfl, rfl⟩ rfl rfl rfl rfl same
  | stopJoins up live =>
    refine ⟨releasing.gone, fun t joined => ?_, fun t _ => ?_, fun _ => stoppable.heard rfl⟩
    · exact releasing.joined t (atAppendKept rfl joined)
    · cases complete : w.worker with
      | finished => exact .inl complete
      | _ => exact .inr rfl
  | stopWaits up gone =>
    exact ⟨releasing.gone, fun _ _ => gone, fun _ _ => .inl (releasing.gone gone), releasing.heard⟩
  | starts t swap r found =>
    exact frameReleasing releasing found ⟨fun none => by contradiction, fun none => by contradiction⟩
      rfl rfl rfl rfl same
  | fails t swap r error found =>
    exact frameReleasing releasing found ⟨fun none => by contradiction, fun none => by contradiction⟩
      rfl rfl rfl rfl same
  | joins t found complete =>
    exact ⟨fun _ => complete, fun _ _ => rfl, fun _ _ => .inl complete, releasing.heard⟩
  | entersReset t found free =>
    exact frameReleasing releasing found ⟨fun none => by contradiction, fun none => by contradiction⟩
      rfl rfl rfl rfl (updateDeaf rfl rfl (Processor.beginResetRelays _).name)
  | flushRaises t job found free flushes error self raised =>
    have relays := Processor.flushRelays env.host (w.heap w.processor)
    rw [raised] at relays
    exact frameReleasing releasing found ⟨fun none => by contradiction, fun none => by contradiction⟩
      rfl rfl rfl rfl (updateDeaf rfl rfl relays.name)
  | entersShutdown t found free outputs self drained =>
    exact frameReleasing releasing found ⟨fun _ => rfl, fun _ => rfl⟩ rfl rfl rfl rfl
      (updateDeaf rfl rfl (drainedKeeps drained).1)
  | entersSwap t swap r found free outputs self drained =>
    cases swap <;> exact frameReleasing releasing found
      ⟨fun none => by contradiction, fun none => by contradiction⟩ rfl rfl rfl rfl
      (updateDeaf rfl rfl (drainedKeeps drained).1)
  | leaves t job target found =>
    have name := (Processor.endResetRelays (w.heap target)).name
    cases job with
    | reset =>
      exact frameReleasing releasing found ⟨fun none => by contradiction, fun none => by contradiction⟩
        rfl rfl rfl rfl (updateDeaf rfl rfl name)
    | shutdown =>
      exact frameReleasing releasing found ⟨fun none => by contradiction, fun none => by contradiction⟩
        rfl rfl rfl rfl (updateDeaf rfl rfl name)
    | swap swap r =>
      cases swap <;> exact frameReleasing releasing found
        ⟨fun none => by contradiction, fun none => by contradiction⟩ rfl rfl rfl rfl
        (updateDeaf rfl rfl name)

end Kept

section Ends
variable {env : Environment} {w w' : World}

def Frame.weight : Frame → Nat
  | .starting _ _ | .joining => 3
  | .acquiring _ => 2
  | .finishing _ _ => 1
  | .returned _ | .raised _ => 0

def Worker.weight : Worker → Nat
  | .finished => 0
  | _ => 1

def weight (w : World) : Nat := (w.tasks.map Frame.weight).sum + w.worker.weight

def Event.control : Event → Bool
  | .worker | .resume _ | .startFails _ _ => true
  | _ => false

def Event.calls : Event → Bool
  | .call _ => true
  | _ => false

def Event.cost (event : Event) : Nat := 3 * event.calls.toNat

theorem weightCalled {frame : Frame} (tasks : w'.tasks = w.tasks ++ [frame])
    (worker : w'.worker = w.worker) : weight w' ≤ weight w + 3 := by
  have most : frame.weight ≤ 3 := by cases frame <;> simp [Frame.weight]
  rw [weight, weight, tasks, worker, weighAppend]
  omega

theorem weightMoved {t : Nat} {old new : Frame} (found : w.tasks[t]? = some old)
    (less : new.weight + 1 ≤ old.weight) (tasks : w'.tasks = w.tasks.set t new)
    (worker : w'.worker = w.worker) : weight w' + 1 ≤ weight w := by
  have moved := @weighSet _ _ _ _ new Frame.weight found
  rw [weight, weight, tasks, worker]
  omega

theorem weightOver (tasks : w'.tasks = w.tasks) (alive : w.worker ≠ .finished)
    (complete : w'.worker = .finished) : weight w' + 1 ≤ weight w := by
  have one : w.worker.weight = 1 := by
    cases here : w.worker <;> first | rfl | exact absurd here alive
  rw [weight, weight, tasks, complete, one]
  exact Nat.le_refl _

theorem stepWeight {event : Event} (named : Named w) (releasing : Releasing w) (ending : Ending w)
    (step : Step env w event w') :
    weight w' + event.control.toNat ≤ weight w + event.cost ∧ Ending w' := by
  have lost (alive : w.worker ≠ .finished) (calm : w.cancelRequested = false) : False := by
    rcases ending with complete | asked
    · exact alive complete
    · rw [calm] at asked
      contradiction
  have still := Nat.le_refl (weight w)
  cases step with
  | ingress data host port opened =>
    obtain ⟨queue, metrics, enqueued, received⟩ := datagramKeeps w data host port
    rw [received]
    exact ⟨still, ending⟩
  | workerCancelled requested outside =>
    exact ⟨weightOver rfl (named.cancels requested).1 rfl, .inl rfl⟩
  | workerTakes packet rest idle queue calm => exact (lost (by simp [idle]) calm).elim
  | workerEnters packet waiting free calm => exact (lost (by simp [waiting]) calm).elim
  | workerInterrupted packet target inside requested =>
    have other : (w.heap target).name ≠ "mdx23c-vocals" := fun name =>
      releasing.heard requested ⟨packet, target, inside, name⟩
    rw [interruptHeard packet.payload other]
    exact ⟨weightOver rfl (by simp [inside]) rfl, .inl rfl⟩
  | workerResumes packet target inside calm => exact (lost (by simp [inside]) calm).elim
  | inference target outcome self ends => exact ⟨still, ending⟩
  | refused request error swaps => exact ⟨weightCalled rfl rfl, ending⟩
  | appliedLive request updates rule brought known valid found =>
    exact ⟨weightCalled rfl rfl, ending⟩
  | launches request swap replacement brought created => exact ⟨weightCalled rfl rfl, ending⟩
  | asksReset => exact ⟨weightCalled rfl rfl, ending⟩
  | stopIdle down => exact ⟨weightCalled rfl rfl, ending⟩
  | stopJoins up live =>
    refine ⟨weightCalled rfl rfl, ?_⟩
    cases complete : w.worker with
    | finished => exact .inl complete
    | _ => exact .inr rfl
  | stopWaits up gone => exact ⟨weightCalled rfl rfl, ending⟩
  | starts t swap r found => exact ⟨weightMoved found (by simp [Frame.weight]) rfl rfl, ending⟩
  | fails t swap r error found => exact ⟨weightMoved found (by simp [Frame.weight]) rfl rfl, ending⟩
  | joins t found complete => exact ⟨weightMoved found (by simp [Frame.weight]) rfl rfl, .inl complete⟩
  | entersReset t found free => exact ⟨weightMoved found (by simp [Frame.weight]) rfl rfl, ending⟩
  | flushRaises t job found free flushes error self raised =>
    exact ⟨weightMoved found (by simp [Frame.weight]) rfl rfl, ending⟩
  | entersShutdown t found free outputs self drained =>
    exact ⟨weightMoved found (by simp [Frame.weight]) rfl rfl, ending⟩
  | entersSwap t swap r found free outputs self drained =>
    cases swap <;> exact ⟨weightMoved found (by simp [Frame.weight]) rfl rfl, ending⟩
  | leaves t job target found =>
    cases job with
    | reset => exact ⟨weightMoved found (by simp [Frame.weight]) rfl rfl, ending⟩
    | shutdown => exact ⟨weightMoved found (by simp [Frame.weight]) rfl rfl, ending⟩
    | swap swap r => cases swap <;> exact ⟨weightMoved found (by simp [Frame.weight]) rfl rfl, ending⟩

theorem stopProgresses {t : Nat} (sound : Sound w) (releasing : Releasing w)
    (shutting : At w.tasks Frame.shutting t ()) :
    ∃ event : Event, event.control = true ∧ (step env w event).isSome = true := by
  have ending := releasing.ending t shutting
  obtain ⟨frame, found, shown⟩ := Option.bind_eq_some_iff.mp shutting
  cases frame with
  | joining =>
    cases complete : w.worker with
    | finished => exact ⟨.resume t, rfl, by simp [step, resume, found, complete]⟩
    | _ =>
      have asked : w.cancelRequested = true := by simpa [Ending, complete] using ending
      exact ⟨.worker, rfl, by simp [step, workerStep, complete, asked]⟩
  | acquiring job =>
    cases free : w.processorLock with
    | false => exact ⟨.resume t, rfl, by simp [step, resume, found, free]⟩
    | true =>
      have joined : At w.tasks Frame.joined t () := by
        refine (atFound found).mpr ?_
        cases job <;> first | rfl | contradiction
      have gone := releasing.gone (releasing.joined t joined)
      obtain ⟨holder, holds⟩ := sound.linked.exclusive.taken.mp free
      cases holder with
      | worker =>
        obtain ⟨packet, target, inside⟩ := holds
        rw [skeleton, gone] at inside
        contradiction
      | client u =>
        obtain ⟨work, inside⟩ := holds
        obtain ⟨other, present, busy⟩ := Option.bind_eq_some_iff.mp (atMap.mp inside)
        refine ⟨.resume u, rfl, ?_⟩
        cases other <;> first | contradiction | simp [step, resume, present]
  | finishing job target => exact ⟨.resume t, rfl, by simp [step, resume, found]⟩
  | starting swap r => contradiction
  | returned reply => contradiction
  | raised error => contradiction

theorem leavesShutdown {t target : Nat} (found : w.tasks[t]? = some (.finishing .shutdown target))
    (step : Step env w (.resume t) w') : w' = leave w t .shutdown target := by
  cases step with
  | leaves _ job other here => cases found.symm.trans here; rfl
  | starts _ _ _ here => cases found.symm.trans here
  | joins _ here => cases found.symm.trans here
  | entersReset _ here => cases found.symm.trans here
  | flushRaises _ _ here => cases found.symm.trans here
  | entersShutdown _ here => cases found.symm.trans here
  | entersSwap _ _ _ here => cases found.symm.trans here

theorem stepShutting {event : Event} {t : Nat} (sound : Sound w) (releasing : Releasing w)
    (stoppable : Stoppable w event) (shutting : At w.tasks Frame.shutting t ())
    (step : Step env w event w') : At w'.tasks Frame.shutting t () ∨
      (w'.tasks[t]? = some (.returned .nothing) ∧ Released w') := by
  cases stepTurns step with
  | aside aside => exact .inl (aside.tasks.symm ▸ shutting)
  | arrives request frame comes arrived =>
    exact .inl (arrived.tasks.symm ▸ atAppend.mpr (.inr shutting))
  | appliedLive => exact .inl (atAppend.mpr (.inr shutting))
  | launches => exact .inl (atAppend.mpr (.inr shutting))
  | enters u swap r entered =>
    rw [entered.tasks]
    exact .inl (atSetStays entered.found (fun none => by contradiction) shutting)
  | leaves u swap r target left =>
    rw [left.tasks]
    exact .inl (atSetStays left.found (fun none => by contradiction) shutting)
  | moves u old new more goes moved =>
    have found := moved.found
    have stays (kept : old.shutting = some () → new.shutting = some ()) :
        At w'.tasks Frame.shutting t () := by
      rw [moved.tasks]
      exact atSetStays found kept shutting
    cases goes with
    | starts => exact .inl (stays fun none => by contradiction)
    | fails => exact .inl (stays fun none => by contradiction)
    | joins => exact .inl (stays fun _ => rfl)
    | entersReset => exact .inl (stays fun none => by contradiction)
    | entersShutdown => exact .inl (stays fun _ => rfl)
    | leavesReset => exact .inl (stays fun none => by contradiction)
    | flushRaises job error flushes bad =>
      cases job with
      | reset => exact absurd rfl flushes
      | swap swap r => exact .inl (stays fun none => by contradiction)
      | shutdown => exact absurd (bad.symm.trans (stoppable.harvestable u rfl found)) (by decide)
    | leavesShutdown target =>
      by_cases here : t = u
      · subst here
        have task := releasing.joined t ((atFound found).mpr rfl)
        have installed := sound.linked.shutting t target (atMap.mpr ((atFound found).mpr rfl))
        have below := (List.getElem?_eq_some_iff.mp found).1
        rw [leavesShutdown found step]
        refine .inr ⟨List.getElem?_set_self below, releasing.gone task, task, ?_, rfl, rfl⟩
        exact List.mem_append_right _ (by rw [installed]; exact List.mem_cons_self)
      · rw [moved.tasks]
        exact .inl ((atElsewhere found here).mpr shutting)

end Ends

section Runs
variable {env : Environment} {settings : Settings} {w v x : World} {events later : List Event}

theorem startedReleasing (start : started settings = .ok w) : Releasing w := by
  obtain ⟨p, _, rfl⟩ := startedFresh start
  exact ⟨fun gone => by contradiction, fun t joined => absurd joined nobodyAt,
    fun t shutting => absurd shutting nobodyAt, fun asked => by contradiction⟩

theorem runReleasing (sound : Sound w) (releasing : Releasing w)
    (stoppable : Along (step env) Stoppable w events) (ran : run (step env) w events = some v) :
    Sound v ∧ Releasing v :=
  runInvariantAlong (fun u => Sound u ∧ Releasing u) ⟨sound, releasing⟩
    (fun _ _ _ kept holds stepped =>
      ⟨stepSound kept.1 stepped, stepReleasing kept.1 kept.2 holds (stepCases stepped)⟩)
    stoppable ran

def Stopped (env : Environment) (w : World) (t : Nat) (events : List Event) : Prop :=
  ∃ before x, before <+: events ∧ run (step env) w before = some x ∧
    x.tasks[t]? = some (.returned .nothing) ∧ Released x

theorem runShutting {t : Nat} (sound : Sound w) (releasing : Releasing w)
    (shutting : At w.tasks Frame.shutting t ())
    (stoppable : Along (step env) Stoppable w events) (ran : run (step env) w events = some v) :
    Stopped env w t events ∨ At v.tasks Frame.shutting t () := by
  induction events using List.reverseRecOn generalizing v with
  | nil =>
    cases ran
    exact .inr shutting
  | append_singleton events event ih =>
    obtain ⟨u, before, stepped⟩ := runSnoc.mp ran
    have sooner := alongPrefix (List.prefix_append _ _) stoppable
    rcases ih sooner before with ⟨done, x, inside, reached, complete⟩ | under
    · exact .inl ⟨done, x, inside.trans (List.prefix_append _ _), reached, complete⟩
    · obtain ⟨sound, releasing⟩ := runReleasing sound releasing sooner before
      rcases stepShutting sound releasing (alongLast stoppable before) under (stepCases stepped)
        with still | complete
      · exact .inr still
      · exact .inl ⟨_, v, List.prefix_refl _, ran, complete⟩

theorem costOfCalls (events : List Event) :
    (events.map Event.cost).sum = 3 * events.countP Event.calls := by
  induction events with
  | nil => rfl
  | cons event rest ih =>
    rw [List.map_cons, List.sum_cons, ih, List.countP_cons, Event.cost]
    cases event.calls <;> simp
    omega

theorem controlBounded (sound : Sound w) (releasing : Releasing w) (ending : Ending w)
    (stoppable : Along (step env) Stoppable w events) (ran : run (step env) w events = some v) :
    events.countP Event.control ≤ weight w + 3 * events.countP Event.calls := by
  have bound := runRank (fun u => (Sound u ∧ Releasing u) ∧ Ending u) weight Event.control Event.cost
    ⟨⟨sound, releasing⟩, ending⟩ (fun _ _ _ kept holds stepped =>
      ⟨⟨stepSound kept.1.1 stepped, stepReleasing kept.1.1 kept.1.2 holds (stepCases stepped)⟩,
        (stepWeight kept.1.1.named kept.1.2 kept.2 (stepCases stepped)).2⟩)
    (fun _ _ _ kept _ stepped =>
      (stepWeight kept.1.1.named kept.1.2 kept.2 (stepCases stepped)).1) stoppable ran
  rw [costOfCalls] at bound
  omega

theorem stopShuts (up : w.running = true) :
    At (call w .stop).tasks Frame.shutting w.tasks.length () := by
  simp only [call, stop, up]
  split
  · contradiction
  · split <;> exact atAppend.mpr (.inl ⟨rfl, rfl⟩)

theorem stopWeight (up : w.running = true) : weight (call w .stop) ≤ weight w + 3 := by
  simp only [call, stop, up]
  split
  · contradiction
  · split <;> exact weightCalled rfl rfl

/- After any stop of a running service, either it has ended with everything released, or
it is under way and some coroutine can go on, which happens so many times at most. -/
theorem shutdownReleases (start : started settings = .ok w)
    (ran : run (step env) w events = some v) (up : v.running = true)
    (later : List Event) (goes : run (step env) v (.call .stop :: later) = some x)
    (stoppable : Along (step env) Stoppable w (events ++ .call .stop :: later)) :
    Stopped env v v.tasks.length (.call .stop :: later) ∨
      (At x.tasks Frame.shutting v.tasks.length () ∧
        later.countP Event.control ≤ weight v + 3 * (later.countP Event.calls + 1) ∧
        ∃ event : Event, event.control = true ∧ (step env x event).isSome = true) := by
  obtain ⟨sound, releasing⟩ := runReleasing (startedSound start) (startedReleasing start)
    (alongPrefix (List.prefix_append _ _) stoppable) ran
  -- the call itself, up to its first await
  have called : run (step env) v [.call .stop] = some (call v .stop) := rfl
  have onward : Along (step env) Stoppable v ([.call .stop] ++ later) := alongRest stoppable ran
  have first := alongPrefix (List.prefix_append _ _) onward
  obtain ⟨sound, releasing⟩ := runReleasing sound releasing first called
  have shutting := stopShuts up
  -- and what follows
  have rest := alongRest onward called
  have goes : run (step env) (call v .stop) later = some x := goes
  rcases runShutting sound releasing shutting rest goes with ended | under
  · obtain ⟨before, u, inside, reached, complete⟩ := ended
    exact .inl ⟨.call .stop :: before, u, List.cons_prefix_cons.mpr ⟨rfl, inside⟩, reached, complete⟩
  · have bound := controlBounded sound releasing (releasing.ending _ shutting) rest goes
    have heavier := stopWeight up
    obtain ⟨sound, releasing⟩ := runReleasing sound releasing rest goes
    exact .inr ⟨under, by omega, stopProgresses sound releasing under⟩

theorem shutdownSelected : ∃ w v x, started {} = .ok w ∧
    run (step trial) w (selection.take 4) = some v ∧
    run (step trial) v [.call .stop, .worker, .resume 1, .resume 1, .resume 1] = some x ∧
    Stopped trial v 1 [.call .stop, .worker, .resume 1, .resume 1, .resume 1] := by
  refine ⟨_, _, _, rfl, rfl, rfl, ?_⟩
  refine Or.resolve_right (@shutdownReleases trial {} _ _ _ (selection.take 4) rfl rfl rfl
    [.worker, .resume 1, .resume 1, .resume 1] rfl ?_) (fun under => ?_)
  · refine alongCons rfl ⟨?_, ?_⟩ (alongCons rfl ⟨?_, ?_⟩ (alongCons rfl ⟨?_, ?_⟩
      (alongCons rfl ⟨?_, ?_⟩ (alongCons rfl ⟨?_, ?_⟩ (alongCons rfl ⟨?_, ?_⟩
        (alongCons rfl ⟨?_, ?_⟩ (alongCons rfl ⟨?_, ?_⟩ (alongCons rfl ⟨?_, ?_⟩ alongNil))))))))
    all_goals first
      | exact fun _ _ _ => rfl
      | exact fun other => by contradiction
      | exact fun _ ⟨packet, target, inside, _⟩ => by contradiction
  · have complete : (none : Option Unit) = some () := under.1
    contradiction

theorem shutdownStuck : ∃ w v x, started quickModel = .ok w ∧
    run (step trial) w [.datagram SegmentedInference.stereoSilence "a" 1, .worker, .worker,
      .inferenceEnds 0 (.raised "out of memory")] = some v ∧ v.running = true ∧
    run (step trial) v [.call .stop, .worker, .resume 0, .resume 0] = some x ∧
    x.tasks = [.raised (.runtimeError "HTDemucs inference failed: out of memory")] ∧
    x.transport = true ∧ x.running = true ∧ ⟨0, .stop, .begins⟩ ∉ x.history.calls := by
  refine ⟨_, _, _, rfl, rfl, rfl, rfl, rfl, rfl, rfl, ?_⟩
  decide

/- MDX23C resets itself over a packet of another format while a stop is called: the
worker takes the next packet, and the stop waits for it for good. -/
theorem cancellationSwallowed {packet : MediaPacket} {target : Nat} {self : MDX23CVocalsProcessor}
    (inside : w.worker = .processing packet target) (deaf : w.heap target = .mdx23c self)
    (up : w.running = true) (live : w.workerTask = true)
    (ran : run (step env) w [.call .stop, .worker] = some v) :
    v.worker = .getting ∧ v.cancelRequested = false ∧
      step env v (.resume w.tasks.length) = none := by
  have called : call w .stop = { asked w .stop with
      cancelRequested := true
      tasks := w.tasks ++ [.joining] } := by
    simp [call, stop, up, live, inside, asked]
  simp only [run, step, Option.bind_some, called, workerStep, asked, inside, if_true, deaf] at ran
  have same := Option.some.inj ran
  have found : v.tasks[w.tasks.length]? = some .joining := by
    rw [← same]
    exact List.getElem?_concat_length
  have worker : v.worker = .getting := by rw [← same]; rfl
  have quiet : v.cancelRequested = false := by rw [← same]; rfl
  exact ⟨worker, quiet, by simp only [step, resume, found, worker]⟩

end Runs

end KaraokeAnything.Service
