import KaraokeAnything.Library.HotSwapOrder
import KaraokeAnything.Library.Runs
import KaraokeAnything.ServiceTurns

/-! The service refines a component that is swapped behind a lock: forgetting packets,
settings and counters, each of its steps is a few moves of that protocol. -/
namespace KaraokeAnything.Service
open ByteOrder Config Kany Lifecycle Models Processors Python RuntimeSettings
open HotSwap (At Client Move atAppend atAppendKept atFound atSetKept)
open Relation (ReflTransGen)

/- `select_processor` writes the settings after the lock, an update inside. -/
def Swap.late : Swap → Bool
  | .select _ => true
  | .update _ _ => false

def Job.plain : Job → HotSwap.Job
  | .swap wanted r => .swap wanted.late r
  | .reset => .reset
  | .shutdown => .shutdown

def Frame.client : Frame → Client
  | .starting swap r => .starting swap.late r
  | .acquiring job => .waiting job.plain
  | .finishing job target => .inside job.plain target
  | .joining => .joining
  | .returned _ => .complete
  | .raised _ => .complete

def Worker.plain : Worker → HotSwap.Worker MediaPacket
  | .getting => .idle
  | .acquiring packet => .waiting packet
  | .processing packet target => .inside packet target
  | .finished => .gone

def Request.stops : Request → Bool
  | .stop => true
  | _ => false

def skeleton (w : World) : HotSwap.State MediaPacket String where
  installed := w.processor
  next := w.next
  locked := w.processorLock
  worker := w.worker.plain
  clients := w.tasks.map Frame.client
  calls := w.history.calls
  taken := w.history.taken
  names i := (w.heap i).name
  chosen := w.settings.processor
  asked := w.history.requests.any Request.stops

def Frame.swapping : Frame → Option (Swap × Nat)
  | .starting swap r => some (swap, r)
  | .acquiring (.swap swap r) => some (swap, r)
  | .finishing (.swap swap r) _ => some (swap, r)
  | _ => none

structure Named (w : World) : Prop where
  swaps : ∀ t swap r, At w.tasks Frame.swapping t (swap, r) → r < w.next ∧ (w.heap r).name = swap.name
  cancels : w.cancelRequested = true → w.worker ≠ .finished ∧ ∃ t : Nat, w.tasks[t]? = some .joining

section Refinement
variable {env : Environment} {w w' : World}

theorem clientFound {t : Nat} {frame : Frame} (found : w.tasks[t]? = some frame) :
    (skeleton w).clients[t]? = some frame.client := by
  simp [skeleton, found]

theorem settleFinishes {packet : MediaPacket} {target : Nat} {progress : Processor.Progress}
    (inside : w.worker = .processing packet target) (locked : w.processorLock = true)
    (named : progress.self.name = (w.heap target).name) :
    ReflTransGen Move (skeleton w) (skeleton (settle env w packet target progress)) := by
  have within : (skeleton w).worker = .inside packet target := by rw [skeleton, inside]; rfl
  cases progress with
  | suspended self =>
    have named : self.name = (w.heap target).name := named
    have same : skeleton (settle env w packet target (.suspended self)) = skeleton w := by
      simp only [skeleton, settle, namesKept named, inside, locked]
    rw [same]
  | returned outputs self =>
    have named : self.name = (w.heap target).name := named
    have move := Move.finishes packet target .idle within (.inl rfl)
    refine .single ?_
    simpa only [skeleton, settle, namesKept named, History.called, Worker.plain] using move
  | raised error self =>
    have named : self.name = (w.heap target).name := named
    have out : (if error = .cancelledError then Worker.finished else Worker.getting).plain = .idle ∨
        (if error = .cancelledError then Worker.finished else Worker.getting).plain = .gone := by
      split
      · exact .inr rfl
      · exact .inl rfl
    have move := Move.finishes packet target _ within out
    refine .single ?_
    simpa only [skeleton, settle, namesKept named, History.called] using move

theorem endedAsks {request : Request} {frame : Frame} (w : World)
    (fresh : frame.client.fresh request.stops) :
    Move (skeleton w) (skeleton (ended (asked w request) frame)) := by
  have move := Move.asks (s := skeleton w) frame.client request.stops fresh
  simpa only [skeleton, ended, asked, List.map_append, List.map_cons, List.map_nil, List.any_append,
    List.any_cons, List.any_nil, Bool.or_false] using move

theorem swapsNotStop {request : Request} (swaps : (request.swap w).isSome = true) :
    request.stops = false := by
  cases request <;> first | rfl | contradiction

theorem stepMoves {event : Event} (named : Named w) (linked : (skeleton w).Linked)
    (step : Step env w event w') : ReflTransGen Move (skeleton w) (skeleton w') := by
  cases step with
  | ingress data host port opened =>
    obtain ⟨queue, metrics, enqueued, received⟩ := datagramKeeps w data host port
    rw [received]
    exact .refl
  | workerCancelled requested outside =>
    obtain ⟨_, t, found⟩ := named.cancels requested
    refine .single (Move.quits (s := skeleton w) t (clientFound found) (fun item target inside => ?_))
    cases worker : w.worker with
    | processing packet i => exact outside packet i worker
    | getting => simp [skeleton, worker, Worker.plain] at inside
    | acquiring packet => simp [skeleton, worker, Worker.plain] at inside
    | finished => simp [skeleton, worker, Worker.plain] at inside
  | workerTakes packet rest idle queue calm =>
    exact .single (Move.takes (s := skeleton w) packet (by rw [skeleton, idle]; rfl))
  | workerEnters packet waiting free calm =>
    have within : (skeleton w).worker = .waiting packet := by rw [skeleton, waiting]; rfl
    have first := Move.begins packet within free
    let entered : World := { w with
      processorLock := true
      worker := .processing packet w.processor
      history := w.history.called [⟨w.processor, .process packet, .begins⟩] }
    have relays := Processor.processRelays env.host (w.heap w.processor) packet.payload
    have finishes : ReflTransGen Move (skeleton entered) (skeleton (settle env entered packet
        w.processor ((w.heap w.processor).process env.host packet.payload))) :=
      settleFinishes rfl rfl relays.name
    have same : settle env entered packet w.processor
        ((w.heap w.processor).process env.host packet.payload) = settle env
          { w with history := w.history.called [⟨w.processor, .process packet, .begins⟩] }
          packet w.processor ((w.heap w.processor).process env.host packet.payload) := by
      cases (w.heap w.processor).process env.host packet.payload <;> rfl
    rw [← same]
    exact .head first finishes
  | workerInterrupted packet target inside requested =>
    have locked : w.processorLock = true :=
      linked.exclusive.taken.mpr ⟨.worker, packet, target, by rw [skeleton, inside]; rfl⟩
    let calm : World := { w with cancelRequested := false }
    exact settleFinishes (w := calm) inside locked
      (Processor.interruptRelays (w.heap target) packet.payload).name
  | workerResumes packet target inside calm =>
    have locked : w.processorLock = true :=
      linked.exclusive.taken.mpr ⟨.worker, packet, target, by rw [skeleton, inside]; rfl⟩
    exact settleFinishes inside locked (Processor.resumeRelays (w.heap target) packet.payload).name
  | inference target outcome self ends =>
    have same : skeleton { w with heap := Function.update w.heap target self } = skeleton w := by
      simp only [skeleton, namesKept (Processor.inferenceEndsRelays ends).name]
    rw [same]
  | refused request error swaps => exact .single (endedAsks w trivial)
  | appliedLive request updates rule brought known valid found =>
    have move := Move.asks (s := skeleton w) .complete request.stops trivial
    refine .single ?_
    have named : ((w.heap w.processor).setAttribute rule.attr
        (rule.value (replace w.settings updates.value))).name = (w.heap w.processor).name := by
      rw [Processor.setAttributeName]
    simpa only [skeleton, applyLive, asked, List.map_append, List.map_cons, List.map_nil,
      List.any_append, List.any_cons, List.any_nil, Bool.or_false, History.changed, Frame.client,
      namesKept named, Swap.candidate,
      liveKeepsProcessor (liveApplies found)] using move
  | launches request swap replacement brought created =>
    have move := Move.launches (s := skeleton w) swap.late swap.name
    refine .single ?_
    simpa only [skeleton, launched, asked, List.map_append, List.map_cons, List.map_nil,
      List.any_append, List.any_cons, List.any_nil, Bool.or_false, History.called, Frame.client,
      namesBorn, createName created, swapsNotStop (by rw [brought]; rfl)] using move
  | asksReset => exact .single (endedAsks w trivial)
  | stopIdle down => exact .single (endedAsks w trivial)
  | stopWaits up gone => exact .single (endedAsks w rfl)
  | stopJoins up live =>
    have move := Move.asks (s := skeleton w) .joining true rfl
    refine .single ?_
    simpa only [skeleton, asked, List.map_append, List.map_cons, List.map_nil, List.any_append,
      List.any_cons, List.any_nil, Bool.or_false, Frame.client, Request.stops] using move
  | starts t swap r found =>
    have move := Move.starts (s := skeleton w) t swap.late r (clientFound found)
    refine .single ?_
    simpa only [skeleton, List.map_set, History.called, Frame.client, Job.plain] using move
  | fails t swap r error found =>
    have move := Move.fails (s := skeleton w) t swap.late r (clientFound found)
    refine .single ?_
    simpa only [skeleton, List.map_set, History.called, Frame.client] using move
  | joins t found complete =>
    have move := Move.joins (s := skeleton w) t (clientFound found)
    refine .single ?_
    simpa only [skeleton, List.map_set, Frame.client, Job.plain] using move
  | entersReset t found free =>
    have move := Move.resets (s := skeleton w) t (clientFound found) free
    have named := (Processor.beginResetRelays (w.heap w.processor)).name
    refine .single ?_
    simpa only [skeleton, List.map_set, History.called, Frame.client, Job.plain,
      namesKept named] using move
  | flushRaises t job found free flushes error self raised =>
    have move := Move.refuses (s := skeleton w) t job.plain (clientFound found) free
    have relays := Processor.flushRelays env.host (w.heap w.processor)
    rw [raised] at relays
    refine .single ?_
    simpa only [skeleton, List.map_set, History.called, Frame.client, Job.plain,
      namesKept relays.name, HotSwap.flushed] using move
  | entersShutdown t found free outputs self drained =>
    have move := Move.shuts (s := skeleton w) t (clientFound found) free
    refine .single ?_
    simpa only [skeleton, List.map_set, History.called, Frame.client, Job.plain,
      namesKept (drainedKeeps drained).1, HotSwap.flushed, List.cons_append, List.nil_append] using move
  | entersSwap t swap r found free outputs self drained =>
    have move := Move.swaps (s := skeleton w) t swap.late r (clientFound found) free
    obtain ⟨_, name⟩ := named.swaps t swap r ((atFound found).mpr rfl)
    refine .single ?_
    cases swap with
    | select name =>
      simpa only [skeleton, install, List.map_set, History.called, History.changed, Frame.client,
        Job.plain, namesKept (drainedKeeps drained).1, HotSwap.flushed, List.cons_append,
        List.nil_append, Swap.late, if_true] using move
    | update snapshot updates =>
      have name : (w.heap r).name = (Swap.candidate snapshot updates).processor := name
      simpa only [skeleton, install, List.map_set, History.called, History.changed, Frame.client,
        Job.plain, namesKept (drainedKeeps drained).1, HotSwap.flushed, List.cons_append,
        List.nil_append, Swap.late, name, Bool.false_eq_true, if_false] using move
  | leaves t job target found =>
    have move := Move.leaves (s := skeleton w) t job.plain target (clientFound found)
    have kept := (Processor.endResetRelays (w.heap target)).name
    refine .single ?_
    cases job with
    | reset =>
      simpa only [skeleton, leave, List.map_set, History.called, Frame.client, Job.plain,
        namesKept kept, HotSwap.Job.method] using move
    | shutdown =>
      simpa only [skeleton, leave, List.map_set, History.called, Frame.client, Job.plain,
        namesKept kept, HotSwap.Job.method] using move
    | swap swap r =>
      obtain ⟨_, name⟩ := named.swaps t swap r ((atFound found).mpr rfl)
      cases swap with
      | select wanted =>
        have name : (w.heap r).name = wanted := name
        simpa only [skeleton, leave, List.map_set, History.called, History.changed, Frame.client,
          Job.plain, namesKept kept, HotSwap.Job.method, Swap.late, name] using move
      | update snapshot updates =>
        simpa only [skeleton, leave, List.map_set, History.called, Frame.client, Job.plain,
          namesKept kept, HotSwap.Job.method, Swap.late] using move

end Refinement

section Naming
variable {env : Environment} {w w' : World}

theorem joiningSet {tasks : List Frame} {t : Nat} {old new : Frame} (found : tasks[t]? = some old)
    (other : old ≠ .joining) (joins : ∃ u : Nat, tasks[u]? = some .joining) :
    ∃ u : Nat, (tasks.set t new)[u]? = some .joining := by
  obtain ⟨u, joins⟩ := joins
  have apart : t ≠ u := by
    intro same
    rw [same, joins] at found
    exact other (Option.some.inj found).symm
  exact ⟨u, by rw [List.getElem?_set_ne apart, joins]⟩

theorem joiningAppend {tasks : List Frame} {new : Frame}
    (joins : ∃ u : Nat, tasks[u]? = some .joining) :
    ∃ u : Nat, (tasks ++ [new])[u]? = some .joining := by
  obtain ⟨u, joins⟩ := joins
  exact ⟨u, List.getElem?_append_left (List.getElem?_eq_some_iff.mp joins).1 ▸ joins⟩

theorem goesSwapping {t : Nat} {event : Event} {old new : Frame} {more : List (Call MediaPacket)}
    (goes : Goes w t event old new more) (work : Swap × Nat) (busy : new.swapping = some work) :
    old.swapping = some work := by
  cases goes <;> first | exact busy | contradiction

theorem comesPlain {request : Request} {frame : Frame} (comes : Comes w request frame) :
    frame.swapping = none := by
  cases comes <;> rfl

theorem swapsKept (named : Named w) (next : w'.next = w.next)
    (names : ∀ i, (w'.heap i).name = (w.heap i).name)
    (tasks : ∀ t work, At w'.tasks Frame.swapping t work → At w.tasks Frame.swapping t work)
    (t : Nat) (swap : Swap) (r : Nat) (busy : At w'.tasks Frame.swapping t (swap, r)) :
    r < w'.next ∧ (w'.heap r).name = swap.name := by
  obtain ⟨below, name⟩ := named.swaps t swap r (tasks t _ busy)
  exact ⟨next ▸ below, (names r).trans name⟩

theorem stepSwaps {event : Event} (named : Named w) (step : Step env w event w') (t : Nat)
    (swap : Swap) (r : Nat) (busy : At w'.tasks Frame.swapping t (swap, r)) :
    r < w'.next ∧ (w'.heap r).name = swap.name := by
  cases stepTurns step with
  | aside aside =>
    refine swapsKept named aside.next aside.names (fun u work shown => ?_) t swap r busy
    rwa [aside.tasks] at shown
  | arrives request frame comes arrived =>
    refine swapsKept named arrived.next arrived.names (fun u work shown => ?_) t swap r busy
    rw [arrived.tasks] at shown
    exact atAppendKept (comesPlain comes) shown
  | appliedLive request updates rule =>
    have name := Processor.setAttributeName (w.heap w.processor) rule.attr
      (rule.value (Swap.candidate w.settings updates))
    refine swapsKept named ?_ (fun i => ?_) (fun u work shown => ?_) t swap r busy
    · rfl
    · exact viewUpdate Processor.name name i
    · exact atAppendKept rfl shown
  | launches request other replacement brought created =>
    rcases atAppend.mp busy with ⟨_, busy⟩ | busy
    · cases busy
      exact ⟨Nat.lt_succ_self _, by
        simp only [launched, asked, Function.update_self, createName created]⟩
    · obtain ⟨below, name⟩ := named.swaps t swap r busy
      refine ⟨Nat.lt_succ_of_lt below, ?_⟩
      simp only [launched, asked, Function.update_of_ne (Nat.ne_of_lt below), name]
  | moves u old new more goes moved =>
    refine swapsKept named moved.next moved.names (fun v work shown => ?_) t swap r busy
    rw [moved.tasks] at shown
    exact atSetKept moved.found (goesSwapping goes) shown
  | enters u other q entered =>
    refine swapsKept named entered.next entered.names (fun v work shown => ?_) t swap r busy
    have same (work : Swap × Nat)
        (busy : Frame.swapping (.finishing (.swap other q) w.processor) = some work) :
        Frame.swapping (.acquiring (.swap other q)) = some work := busy
    rw [entered.tasks] at shown
    exact atSetKept entered.found same shown
  | leaves u other q target left =>
    refine swapsKept named left.next left.names (fun v work shown => ?_) t swap r busy
    rw [left.tasks] at shown
    exact atSetKept left.found (fun _ none => by contradiction) shown

theorem settleCancels (packet : MediaPacket) (target : Nat) (progress : Processor.Progress)
    (calm : w.cancelRequested = false) :
    (settle env w packet target progress).cancelRequested ≠ true := by
  cases progress <;> exact fun requested => absurd (calm.symm.trans requested) (by decide)

theorem stepCancels {event : Event} (named : Named w) (step : Step env w event w')
    (requested : w'.cancelRequested = true) :
    w'.worker ≠ .finished ∧ ∃ t : Nat, w'.tasks[t]? = some .joining := by
  have cancels := named.cancels
  have appended (frame : Frame) (asked : w.cancelRequested = true) :
      w.worker ≠ .finished ∧ ∃ t : Nat, (w.tasks ++ [frame])[t]? = some .joining :=
    ⟨(cancels asked).1, joiningAppend (cancels asked).2⟩
  have moved {t : Nat} {old : Frame} (new : Frame) (found : w.tasks[t]? = some old)
      (other : old ≠ .joining) (asked : w.cancelRequested = true) :
      w.worker ≠ .finished ∧ ∃ u : Nat, (w.tasks.set t new)[u]? = some .joining :=
    ⟨(cancels asked).1, joiningSet found other (cancels asked).2⟩
  cases step with
  | ingress data host port opened =>
    obtain ⟨queue, metrics, enqueued, received⟩ := datagramKeeps w data host port
    rw [received] at requested ⊢
    exact cancels requested
  | workerCancelled => contradiction
  | workerTakes packet rest idle queue calm =>
    exact absurd (calm.symm.trans requested) (by decide)
  | workerEnters packet waiting free calm => exact absurd requested (settleCancels _ _ _ calm)
  | workerInterrupted => exact absurd requested (settleCancels _ _ _ rfl)
  | workerResumes packet target inside calm => exact absurd requested (settleCancels _ _ _ calm)
  | inference => exact cancels requested
  | refused => exact appended _ requested
  | appliedLive => exact appended _ requested
  | launches => exact appended _ requested
  | asksReset => exact appended _ requested
  | stopIdle => exact appended _ requested
  | stopWaits => exact appended _ requested
  | stopJoins up live =>
    refine ⟨fun complete => ?_, w.tasks.length, List.getElem?_concat_length⟩
    have complete : w.worker = .finished := complete
    simp only [complete] at requested
    exact (cancels requested).1 complete
  | starts t swap r found => exact moved _ found (by simp) requested
  | fails t swap r error found => exact moved _ found (by simp) requested
  | joins t found complete => exact absurd complete (cancels requested).1
  | entersReset t found free => exact moved _ found (by simp) requested
  | flushRaises t job found free => exact moved _ found (by simp) requested
  | entersShutdown t found free => exact moved _ found (by simp) requested
  | entersSwap t swap r found free => cases swap <;> exact moved _ found (by simp) requested
  | leaves t job target found =>
    cases job with
    | reset => exact moved _ found (by simp) requested
    | shutdown => exact moved _ found (by simp) requested
    | swap swap r => cases swap <;> exact moved _ found (by simp) requested

theorem stepNamed {event : Event} (named : Named w) (step : Step env w event w') : Named w' :=
  ⟨stepSwaps named step, stepCancels named step⟩

end Naming

end KaraokeAnything.Service
