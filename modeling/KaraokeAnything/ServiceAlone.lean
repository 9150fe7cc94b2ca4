import KaraokeAnything.ServiceCalls

/-! A settings update with no other call beside it, from its call to its end: what the
settings are at each of its awaits, and that it can go on at each of them. -/
namespace KaraokeAnything.Service
open ByteOrder Config Kany Lifecycle Models Processors Python RuntimeSettings
open HotSwap (atMap)
open Runs

section Stages

inductive Frame.Before (swap : Swap) (r : Nat) : Frame → Prop where
  | starting : Before swap r (.starting swap r)
  | acquiring : Before swap r (.acquiring (.swap swap r))
  | raised (error : PyError) : Before swap r (.raised error)

inductive Frame.After (swap : Swap) (r : Nat) : Frame → Prop where
  | finishing (target : Nat) : After swap r (.finishing (.swap swap r) target)
  | returned : After swap r (.returned swap.reply)

structure Alone (w : World) (updates : Updates) (r t : Nat) (x : World) : Prop where
  startup : x.startupSettings = w.startupSettings
  others : ∀ u frame, x.tasks[u]? = some frame → u ≠ t → frame.complete = true
  stage : ∃ frame, x.tasks[t]? = some frame ∧
    (frame.Before (.update w.settings updates) r ∧ x.settings = w.settings ∧
        x.processor = w.processor ∨
      frame.After (.update w.settings updates) r ∧
        x.settings = Swap.candidate w.settings updates ∧ x.processor = r)

def Unasked (_ : World) (event : Event) : Prop := event.request = []

end Stages

section Steps
variable {env : Environment} {w x y : World} {updates : Updates} {r t : Nat}

theorem othersSet {frame : Frame} (alone : Alone w updates r t x)
    (tasks : y.tasks = x.tasks.set t frame) (u : Nat) (other : Frame)
    (found : y.tasks[u]? = some other) (apart : u ≠ t) : other.complete = true := by
  rw [tasks, List.getElem?_set_ne apart.symm] at found
  exact alone.others u other found apart

theorem setFound {frame new : Frame} (present : x.tasks[t]? = some frame)
    (tasks : y.tasks = x.tasks.set t new) : y.tasks[t]? = some new := by
  rw [tasks, List.getElem?_set_self (List.getElem?_eq_some_iff.mp present).1]

theorem aloneBusy {u : Nat} {old : Frame} (alone : Alone w updates r t x)
    (found : x.tasks[u]? = some old) (busy : old.busy = some ()) : u = t := by
  by_contra apart
  rw [Frame.busy, if_pos (alone.others u old found apart)] at busy
  contradiction

theorem stepAlone {event : Event} (alone : Alone w updates r t x) (quiet : Unasked x event)
    (step : Step env x event y) : Alone w updates r t y := by
  obtain ⟨frame, present, stage⟩ := alone.stage
  cases stepTurns step with
  | aside aside =>
    refine ⟨aside.startup.trans alone.startup, ?_, frame, ?_, ?_⟩
    · rw [aside.tasks]
      exact alone.others
    · rw [aside.tasks, present]
    · rw [aside.settings, aside.processor]
      exact stage
  | arrives request => exact absurd quiet (List.cons_ne_nil _ _)
  | appliedLive request => exact absurd quiet (List.cons_ne_nil _ _)
  | launches request => exact absurd quiet (List.cons_ne_nil _ _)
  | moves u old new more goes moved =>
    cases aloneBusy alone moved.found (goesBusy goes)
    cases Option.some.inj (present.symm.trans moved.found)
    refine ⟨moved.startup.trans alone.startup, othersSet alone moved.tasks, new,
      setFound present moved.tasks, ?_⟩
    rw [moved.settings, moved.processor]
    rcases stage with ⟨before, same⟩ | ⟨after, same⟩
    · refine .inl ⟨?_, same⟩
      cases goes <;> cases before <;> constructor
    · cases goes <;> cases after
  | enters u swap other entered =>
    cases aloneBusy alone entered.found rfl
    cases Option.some.inj (present.symm.trans entered.found)
    refine ⟨entered.startup.trans alone.startup, othersSet alone entered.tasks, _,
      setFound present entered.tasks, .inr ?_⟩
    rcases stage with ⟨before, same⟩ | ⟨after, same⟩
    · cases before
      exact ⟨.finishing _, entered.settings, entered.processor⟩
    · cases after
  | leaves u swap other target left =>
    cases aloneBusy alone left.found rfl
    cases Option.some.inj (present.symm.trans left.found)
    refine ⟨left.startup.trans alone.startup, othersSet alone left.tasks, _,
      setFound present left.tasks, .inr ?_⟩
    rcases stage with ⟨before, same⟩ | ⟨after, same⟩
    · cases before
    · cases after
      exact ⟨.returned, left.settings.trans same.1, left.processor.trans same.2⟩

theorem runAlone {events : List Event} (alone : Alone w updates r t x)
    (quiet : Along (step env) Unasked x events) (ran : run (step env) x events = some y) :
    Alone w updates r t y :=
  runInvariantAlong (Alone w updates r t) alone
    (fun _ _ _ alone quiet stepped => stepAlone alone quiet (stepCases stepped)) quiet ran

structure Idle (x y : World) : Prop where
  startup : y.startupSettings = x.startupSettings
  settings : y.settings = x.settings
  processor : y.processor = x.processor
  tasks : y.tasks = x.tasks

theorem stepIdle {event : Event} (quiescent : Quiescent x) (quiet : Unasked x event)
    (step : Step env x event y) : Idle x y := by
  have done {u : Nat} {old : Frame} (found : x.tasks[u]? = some old) : old.busy ≠ some () := by
    rw [Frame.busy, if_pos (quiescent old (List.mem_of_getElem? found))]
    exact (Option.some_ne_none ()).symm
  cases stepTurns step with
  | aside aside => exact ⟨aside.startup, aside.settings, aside.processor, aside.tasks⟩
  | arrives request => exact absurd quiet (List.cons_ne_nil _ _)
  | appliedLive request => exact absurd quiet (List.cons_ne_nil _ _)
  | launches request => exact absurd quiet (List.cons_ne_nil _ _)
  | moves u old new more goes moved => exact absurd (goesBusy goes) (done moved.found)
  | enters u swap other entered => exact absurd rfl (done entered.found)
  | leaves u swap other target left => exact absurd rfl (done left.found)

theorem runIdle {events : List Event} (quiescent : Quiescent x)
    (quiet : Along (step env) Unasked x events) (ran : run (step env) x events = some y) :
    Idle x y := by
  refine runInvariantAlong (Idle x) ⟨rfl, rfl, rfl, rfl⟩ (fun u event v idle quiet stepped => ?_) quiet ran
  have still : Quiescent u := by
    rw [Quiescent, idle.tasks]
    exact quiescent
  obtain ⟨startup, settings, processor, tasks⟩ := stepIdle still quiet (stepCases stepped)
  exact ⟨startup.trans idle.startup, settings.trans idle.settings, processor.trans idle.processor,
    tasks.trans idle.tasks⟩

end Steps

section Calls
variable {env : Environment} {w x : World} {request : Request} {updates : Updates}

theorem updateCall (brought : request.updates w = some updates) :
    call w request = updateRuntimeSettings (asked w request) updates := by
  cases request <;> cases brought <;> rfl

theorem launchedAlone (quiescent : Quiescent w) (request : Request) (updates : Updates)
    (replacement : Processor) : Alone w updates w.next w.tasks.length
      (launched (asked w request) (.update w.settings updates) replacement) := by
  refine ⟨rfl, fun u frame found apart => ?_, _, List.getElem?_concat_length, .inl ⟨.starting, rfl, rfl⟩⟩
  rcases foundSnoc found with before | last
  · exact quiescent frame (List.mem_of_getElem? before)
  · exact absurd last.1 apart

structure Updated (w : World) (updates : Updates) (reply : Reply) (x : World) : Prop where
  known : updates.unknown = []
  valid : validateRuntimeSettings (Swap.candidate w.settings updates) = .ok ()
  startup : x.startupSettings = w.startupSettings
  settings : x.settings = Swap.candidate w.settings updates
  live : ∀ rule, findLiveApplyRule updates (w.heap w.processor) = some rule →
    reply = .applied false rule.appliesFrom ∧ x.processor = w.processor
  restarts : findLiveApplyRule updates (w.heap w.processor) = none →
    reply = .applied true "immediately" ∧ x.processor = w.next

theorem endedIdle {events : List Event} {frame : Frame} (quiescent : Quiescent w)
    (complete : frame.complete = true) {y : World} (tasks : y.tasks = w.tasks ++ [frame])
    (unasked : Along (step env) Unasked y events) (ran : run (step env) y events = some x) :
    Idle y x ∧ x.tasks[w.tasks.length]? = some frame := by
  have still : Quiescent y := by
    intro other inside
    rw [tasks] at inside
    rcases List.mem_append.mp inside with before | last
    · exact quiescent other before
    · rw [List.mem_singleton.mp last, complete]
  have idle := runIdle still unasked ran
  refine ⟨idle, ?_⟩
  rw [idle.tasks, tasks, List.getElem?_concat_length]

theorem unknownNone {unknown : List String} (known : unknownFailure unknown = .ok ()) :
    unknown = [] := by
  unfold unknownFailure at known
  split at known
  · exact List.isEmpty_iff.mp ‹_›
  · contradiction

theorem updateEnds {later : List Event} {reply : Reply} (quiescent : Quiescent w)
    (brought : request.updates w = some updates)
    (unasked : Along (step env) Unasked (call w request) later)
    (ran : run (step env) (call w request) later = some x)
    (returned : x.tasks[w.tasks.length]? = some (.returned reply)) : Updated w updates reply x := by
  have refused (error : PyError) (refuses : call w request = ended (asked w request) (.raised error)) :
      False := by
    rw [refuses] at unasked ran
    have ends := (endedIdle quiescent rfl rfl unasked ran).2
    cases returned.symm.trans ends
  have calls := updateCall brought
  unfold updateRuntimeSettings at calls
  have settings : (asked w request).settings = w.settings := rfl
  have active : (asked w request).heap (asked w request).processor = w.heap w.processor := rfl
  simp only [settings, active] at calls
  cases known : unknownFailure updates.unknown with
  | error e => exact (refused e (by simp only [calls, known])).elim
  | ok u =>
    cases valid : validateRuntimeSettings (Swap.candidate w.settings updates) with
    | error e => exact (refused e (by simp only [calls, known, valid])).elim
    | ok u =>
      simp only [known, valid] at calls
      cases rules : findLiveApplyRule updates (w.heap w.processor) with
      | some rule =>
        simp only [rules] at calls
        rw [calls] at unasked ran
        obtain ⟨idle, ends⟩ := endedIdle quiescent rfl rfl unasked ran
        cases returned.symm.trans ends
        refine ⟨unknownNone known, valid, idle.startup, idle.settings, fun found same => ?_, fun none => ?_⟩
        · cases rules.symm.trans same
          exact ⟨rfl, idle.processor⟩
        · exact absurd (rules.symm.trans none) nofun
      | none =>
        simp only [rules] at calls
        cases created : create (Swap.candidate w.settings updates)
            (Swap.candidate w.settings updates).processor with
        | error e => exact (refused e (by simp only [calls, created])).elim
        | ok replacement =>
          simp only [created] at calls
          rw [calls] at unasked ran
          have alone := runAlone (launchedAlone quiescent request updates replacement) unasked ran
          obtain ⟨frame, present, stage⟩ := alone.stage
          cases Option.some.inj (present.symm.trans returned)
          rcases stage with ⟨before, _⟩ | ⟨after, same, processor⟩
          · contradiction
          · cases after
            exact ⟨unknownNone known, valid, alone.startup, same,
              fun rule found => absurd (rules.symm.trans found) nofun, fun _ => ⟨rfl, processor⟩⟩

theorem aloneProgresses {r t : Nat} {frame : Frame} (sound : Sound x)
    (alone : Alone w updates r t x) (present : x.tasks[t]? = some frame)
    (busy : frame.complete = false) : ∃ event : Event,
      (event = .resume t ∨ event = .worker) ∧ (step env x event).isSome = true := by
  obtain ⟨same, found, stage⟩ := alone.stage
  cases Option.some.inj (present.symm.trans found)
  cases frame with
  | starting swap r => exact ⟨.resume t, .inl rfl, by simp [step, resume, present]⟩
  | acquiring job =>
    cases free : x.processorLock with
    | false => exact ⟨.resume t, .inl rfl, by simp [step, resume, present, free]⟩
    | true =>
      obtain ⟨holder, holds⟩ := sound.linked.exclusive.taken.mp free
      cases holder with
      | worker =>
        obtain ⟨packet, target, inside⟩ := holds
        refine ⟨.worker, .inr rfl, ?_⟩
        cases worker : x.worker with
        | processing packet target =>
          simp only [step, workerStep, worker]
          split <;> rfl
        | _ =>
          rw [skeleton, worker] at inside
          contradiction
      | client u =>
        obtain ⟨work, inside⟩ := holds
        obtain ⟨other, there, shown⟩ := Option.bind_eq_some_iff.mp (atMap.mp inside)
        have working : other.busy = some () := by cases other <;> first | rfl | contradiction
        cases aloneBusy alone there working
        cases Option.some.inj (present.symm.trans there)
        contradiction
  | finishing job target => exact ⟨.resume t, .inl rfl, by simp [step, resume, present]⟩
  | joining => rcases stage with ⟨before, _⟩ | ⟨after, _⟩ <;> contradiction
  | returned reply => contradiction
  | raised error => contradiction

end Calls

end KaraokeAnything.Service
