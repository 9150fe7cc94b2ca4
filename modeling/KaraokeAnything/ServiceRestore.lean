import KaraokeAnything.ServiceAlone
import KaraokeAnything.ServiceShutdown

/-! The restoration of the startup settings, after any run: it goes through if and only
if they pass the checks that a request of the same values would. -/
namespace KaraokeAnything.Service
open ByteOrder Config Kany Lifecycle Models Processors Python RuntimeSettings
open Rank Runs

section Restoration

structure Undisturbed (x : World) (event : Event) : Prop where
  quiet : event.request = []
  starts : ∀ t error, event ≠ .startFails t error
  flushes : ∀ t job, event = .resume t → x.tasks[t]? = some (.acquiring job) →
    (x.heap x.processor).unharvestable = false

structure Restored (x : World) (t : Nat) : Prop where
  returned : x.tasks[t]? = some (.returned (.applied true "immediately"))
  settings : x.settings = x.startupSettings

structure UnderWay (env : Environment) (x : World) (t : Nat) : Prop where
  pending : ∃ frame, x.tasks[t]? = some frame ∧ frame.complete = false
  progress : ∃ event : Event, (event = .resume t ∨ event = .worker) ∧
    (step env x event).isSome = true

def Event.resumes : Event → Bool
  | .resume _ => true
  | _ => false

/- A restoration called here returns with the startup settings: at each of its awaits it
can go on, or the worker that holds the lock can, and it has three awaits at most. -/
def Restores (env : Environment) (w : World) : Prop :=
  ∀ later x, run (step env) (call w .restoreStartupSettings) later = some x →
    Along (step env) Undisturbed (call w .restoreStartupSettings) later →
    (Restored x w.tasks.length ∨ UnderWay env x w.tasks.length) ∧
      later.countP Event.resumes ≤ 3

end Restoration

section Steps
variable {env : Environment} {settings : Settings} {w x y : World} {updates : Updates} {r t : Nat}

theorem undisturbedKept {event : Event} (undisturbed : Undisturbed x event)
    (alone : Alone w updates r t x) (kept : ∀ error, x.tasks[t]? ≠ some (.raised error))
    (step : Step env x event y) : ∀ error, y.tasks[t]? ≠ some (.raised error) := by
  obtain ⟨frame, present, stage⟩ := alone.stage
  cases stepTurns step with
  | aside aside =>
    rw [aside.tasks]
    exact kept
  | arrives request => exact absurd undisturbed.quiet (List.cons_ne_nil _ _)
  | appliedLive request => exact absurd undisturbed.quiet (List.cons_ne_nil _ _)
  | launches request => exact absurd undisturbed.quiet (List.cons_ne_nil _ _)
  | moves u old new more goes moved =>
    cases aloneBusy alone moved.found (goesBusy goes)
    intro error raised
    cases Option.some.inj ((setFound present moved.tasks).symm.trans raised)
    cases goes with
    | fails swap r => exact undisturbed.starts _ _ rfl
    | flushRaises job error flushes bad =>
      rw [undisturbed.flushes t job rfl moved.found] at bad
      contradiction
  | enters u swap other entered =>
    cases aloneBusy alone entered.found rfl
    rw [setFound present entered.tasks]
    nofun
  | leaves u swap other target left =>
    cases aloneBusy alone left.found rfl
    rw [setFound present left.tasks]
    nofun

def ahead (x : World) : Nat := (x.tasks.map Frame.weight).sum

theorem aheadSet {u : Nat} {old new : Frame} (found : x.tasks[u]? = some old)
    (tasks : y.tasks = x.tasks.set u new) : ahead y + old.weight = ahead x + new.weight := by
  rw [ahead, ahead, tasks]
  exact weighSet Frame.weight found

theorem resumeLowers {u : Nat} (step : Step env x (.resume u) y) : ahead y + 1 ≤ ahead x := by
  have lowers {old new : Frame} (found : x.tasks[u]? = some old)
      (tasks : y.tasks = x.tasks.set u new) (less : new.weight + 1 ≤ old.weight) :
      ahead y + 1 ≤ ahead x := by
    have set := aheadSet found tasks
    omega
  cases step with
  | starts _ swap r found => exact lowers found rfl (by simp [Frame.weight])
  | joins _ found complete => exact lowers found rfl (by simp [Frame.weight])
  | entersReset _ found free => exact lowers found rfl (by simp [Frame.weight])
  | flushRaises _ job found free flushes error self raised =>
    exact lowers found rfl (by simp [Frame.weight])
  | entersShutdown _ found free outputs self drained =>
    exact lowers found rfl (by simp [Frame.weight])
  | entersSwap _ swap r found free outputs self drained =>
    cases swap <;> exact lowers found rfl (by simp [Frame.weight])
  | leaves _ job target found =>
    rcases job with ⟨_ | _, _⟩ | _ | _ <;> exact lowers found rfl (by simp [Frame.weight])

theorem quietLowers {event : Event} (quiet : Unasked x event) (step : Step env x event y) :
    ahead y + event.resumes.toNat ≤ ahead x := by
  cases resumes : event.resumes with
  | true =>
    cases event with
    | resume u => exact resumeLowers step
    | _ => contradiction
  | false =>
    cases stepTurns step with
    | aside aside =>
      rw [ahead, aside.tasks]
      exact Nat.le_refl _
    | arrives request => exact absurd quiet (List.cons_ne_nil _ _)
    | appliedLive request => exact absurd quiet (List.cons_ne_nil _ _)
    | launches request => exact absurd quiet (List.cons_ne_nil _ _)
    | moves u old new more goes moved =>
      have set := aheadSet moved.found moved.tasks
      cases goes with
      | fails swap r error =>
        simp only [Frame.weight, Bool.toNat_false] at set ⊢
        omega
      | _ => contradiction
    | enters u swap other entered => contradiction
    | leaves u swap other target left => contradiction

end Steps

section Runs
variable {env : Environment} {settings : Settings} {w w' x : World} {events : List Event}

theorem startedKeeping (start : started settings = .ok w) : Keeping (SameElsewhere · settings) w := by
  obtain ⟨p, _, rfl⟩ := startedFresh start
  exact ⟨rfl, fun t snapshot updates r shown => absurd shown nobodyAt⟩

theorem runFixed (start : started settings = .ok w) (ran : run (step env) w events = some w') :
    w'.startupSettings = settings ∧ SameElsewhere w'.settings settings := by
  have keeping := runInvariant (Keeping (SameElsewhere · settings)) (startedKeeping start)
    (fun _ _ _ keeping stepped => stepKeeping (fun _ _ fixed => fixed) keeping (stepCases stepped)) ran
  refine ⟨?_, keeping.settings⟩
  rw [runStartup ran]
  obtain ⟨p, _, rfl⟩ := startedFresh start
  rfl

theorem startupRestarts (startup : Settings) (p : Processor) :
    findLiveApplyRule (startupUpdates startup) p = none := by
  have keys : (startupUpdates startup).keys = Field.all := List.filter_true _
  rw [findLiveApplyRule, keys]
  rfl

/- The settings of the start have made a processor once, and nothing but the checks can
keep them from doing so again. -/
theorem restoreLaunches (start : started settings = .ok w)
    (ran : run (step env) w events = some w') (valid : validateRuntimeSettings settings = .ok ()) :
    ∃ p, call w' .restoreStartupSettings = launched (asked w' .restoreStartupSettings)
      (.update w'.settings (startupUpdates settings)) p := by
  obtain ⟨p, created, _⟩ := startedFresh start
  obtain ⟨startup, fixed⟩ := runFixed start ran
  have candidate : Swap.candidate (asked w' .restoreStartupSettings).settings
      (startupUpdates settings) = settings := fixed
  refine ⟨p, ?_⟩
  rw [updateCall rfl, startup, updateRuntimeSettings]
  simp only [candidate, startupRestarts, created, valid]
  rfl

theorem restoreRefused (start : started settings = .ok w) (ran : run (step env) w events = some w')
    {error : PyError} (invalid : validateRuntimeSettings settings = .error error) :
    call w' .restoreStartupSettings = ended (asked w' .restoreStartupSettings) (.raised error) := by
  obtain ⟨startup, fixed⟩ := runFixed start ran
  have candidate : Swap.candidate (asked w' .restoreStartupSettings).settings
      (startupUpdates settings) = settings := fixed
  rw [updateCall rfl, startup, updateRuntimeSettings]
  simp only [candidate, invalid]
  rfl

theorem quiescentAhead (quiescent : Quiescent w) : ahead w = 0 := by
  refine List.sum_eq_zero_iff_forall_eq_nat.mpr (fun weight inside => ?_)
  obtain ⟨frame, among, rfl⟩ := List.mem_map.mp inside
  have complete := quiescent frame among
  cases frame <;> first | rfl | contradiction

theorem restores (start : started settings = .ok w) (ran : run (step env) w events = some w')
    (quiescent : Quiescent w') (valid : validateRuntimeSettings settings = .ok ()) :
    Restores env w' := by
  obtain ⟨p, called⟩ := restoreLaunches start ran valid
  obtain ⟨startup, fixed⟩ := runFixed start ran
  have asks : step env w' (.call .restoreStartupSettings) = some (call w' .restoreStartupSettings) := rfl
  intro later x reached along
  have sound : Sound x :=
    runSound (stepSound (runSound (startedSound start) ran) asks) reached
  rw [called] at reached along
  -- the call is alone, and never given up
  have alone := launchedAlone quiescent .restoreStartupSettings (startupUpdates settings) p
  have tasks : (launched (asked w' .restoreStartupSettings)
      (.update w'.settings (startupUpdates settings)) p).tasks =
        w'.tasks ++ [.starting (.update w'.settings (startupUpdates settings)) w'.next] := rfl
  have kept (error : PyError) : (launched (asked w' .restoreStartupSettings)
      (.update w'.settings (startupUpdates settings)) p).tasks[w'.tasks.length]? ≠
        some (.raised error) := by
    rw [tasks, List.getElem?_concat_length]
    nofun
  obtain ⟨still, unraised⟩ := runInvariantAlong (fun x =>
      Alone w' (startupUpdates settings) w'.next w'.tasks.length x ∧
        ∀ error, x.tasks[w'.tasks.length]? ≠ some (.raised error))
    ⟨alone, kept⟩ (fun u event v holds undisturbed stepped =>
      ⟨stepAlone holds.1 undisturbed.quiet (stepCases stepped),
        undisturbedKept undisturbed holds.1 holds.2 (stepCases stepped)⟩) along reached
  have bound := runRank (fun _ => True) ahead Event.resumes (fun _ => 0) trivial
    (fun _ _ _ _ _ _ => trivial)
    (fun _ _ _ _ undisturbed stepped => quietLowers undisturbed.quiet (stepCases stepped)) along reached
  have first : ahead (launched (asked w' .restoreStartupSettings)
      (.update w'.settings (startupUpdates settings)) p) = 3 := by
    rw [ahead, tasks, weighAppend]
    exact congrArg (· + 3) (quiescentAhead quiescent)
  have none : (later.map fun _ => 0).sum = 0 := by simp
  refine ⟨?_, by omega⟩
  obtain ⟨frame, present, stage⟩ := still.stage
  cases ends : frame.complete with
  | false => exact .inr ⟨⟨frame, present, ends⟩, aloneProgresses sound still present ends⟩
  | true =>
    refine .inl ?_
    rcases stage with ⟨before, _⟩ | ⟨after, same⟩
    · cases before with
      | raised error => exact absurd present (unraised error)
      | _ => contradiction
    · cases after with
      | returned => exact ⟨present, same.1.trans (fixed.trans (startup.symm.trans still.startup.symm))⟩
      | finishing target => contradiction

theorem restoresNot (start : started settings = .ok w) (ran : run (step env) w events = some w')
    {error : PyError} (invalid : validateRuntimeSettings settings = .error error) :
    ¬ Restores env w' := by
  intro all
  have refused : (call w' .restoreStartupSettings).tasks[w'.tasks.length]? = some (.raised error) := by
    rw [restoreRefused start ran invalid]
    exact List.getElem?_concat_length
  obtain ⟨restored | underWay, _⟩ := all [] _ rfl alongNil
  · exact absurd (restored.returned.symm.trans refused) nofun
  · obtain ⟨frame, present, busy⟩ := underWay.pending
    cases Option.some.inj (present.symm.trans refused)
    contradiction

theorem startupRestored (start : started settings = .ok w)
    (ran : run (step env) w events = some w') (quiescent : Quiescent w') :
    Restores env w' ↔ validateRuntimeSettings settings = .ok () := by
  refine ⟨fun all => ?_, restores start ran quiescent⟩
  cases checked : validateRuntimeSettings settings with
  | ok u => rfl
  | error error => exact absurd all (restoresNot start ran checked)

def lessCentre : Updates := .single .centreReduction (0.2 : Float)

theorem startupRestoredLive : ∃ w w', started { processor := "stereo-centre-reduction" } = .ok w ∧
    run (step trial) w [.call (.updateRuntimeSettings lessCentre)] = some w' ∧
    w'.settings.centreReduction = 0.2 ∧ Restores trial w' := by
  refine ⟨_, _, rfl, rfl, by decide +kernel, ?_⟩
  refine (@startupRestored trial { processor := "stereo-centre-reduction" } _ _
    [.call (.updateRuntimeSettings lessCentre)] rfl rfl (fun frame inside => ?_)).mpr
    (by decide +kernel)
  cases List.mem_singleton.mp inside
  rfl

def wideOverlap : Settings := { demucsOverlap := 2.0 }

theorem startupUnrestorable : ¬ ∀ (settings : Settings) (w w' : World) (events : List Event),
    started settings = .ok w → run (step trial) w events = some w' → Quiescent w' →
      Restores trial w' := by
  intro all
  have invalid : validateRuntimeSettings wideOverlap =
      .error (.valueError "Demucs overlap must be between 0.0 and less than 1.0") := by decide +kernel
  have begins : started wideOverlap = .ok (fresh wideOverlap .passthrough) := rfl
  have stays : run (step trial) (fresh wideOverlap .passthrough) [] =
      some (fresh wideOverlap .passthrough) := rfl
  exact restoresNot begins stays invalid (all _ _ _ _ begins stays (fun frame => nofun))

end Runs

end KaraokeAnything.Service
