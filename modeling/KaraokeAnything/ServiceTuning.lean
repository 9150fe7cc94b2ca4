import KaraokeAnything.ServiceCalls
import KaraokeAnything.Tuning

/-! The settings, the registry's copy of them and the parameters of the running
processor, while control calls run one after another. The registry's copy goes stale
when a value is applied live, and `select_processor` builds from it. -/
namespace KaraokeAnything.Service
open ByteOrder Config Kany Lifecycle Models Processors Python RuntimeSettings
open HotSwap (At atAppend atAppendKept atFound atHere atMap atSet atSetKept)
open Processor (Progress)
open Runs

section Conditions

def InSequence (w : World) (event : Event) : Prop :=
  ∀ request, event = .call request → Quiescent w

def RegistryCurrent (w : World) (event : Event) : Prop :=
  ∀ name, event = .call (.selectProcessor name) →
    ∀ key ∈ factoryFields name, get w.processorRegistry key = get w.settings key

def Prescribed (w : World) (s : Settings) (i : Nat) : Prop :=
  ∃ p, create s s.processor = .ok p ∧ (w.heap i).parameters = p.parameters

def Swap.target (w : World) : Swap → Settings
  | .select name => { w.settings with processor := name }
  | .update snapshot updates => Swap.candidate snapshot updates

def Frame.selecting : Frame → Option Unit
  | .finishing (.swap (.select _) _) _ => some ()
  | _ => none

structure Tuned (w : World) : Prop where
  paths : paths w.processorRegistry = paths w.settings
  alone : ∀ t u, At w.tasks Frame.busy t () → At w.tasks Frame.busy u () → t = u
  pending : ∀ t swap r, At w.tasks Frame.swapping t (swap, r) →
    RuntimeSettings.paths (swap.target w) = RuntimeSettings.paths w.settings ∧
      Prescribed w (swap.target w) r
  current : (∀ t, ¬ At w.tasks Frame.selecting t ()) → Prescribed w w.settings w.processor

end Conditions

section Kept
variable {env : Environment} {settings : Settings} {w w' : World} {events : List Event}

theorem quiescentCalm (quiescent : Quiescent w) (t : Nat) : ¬ At w.tasks Frame.selecting t () :=
  quiescentHides quiescent (fun frame complete => by cases frame <;> first | contradiction | rfl) t ()

theorem prescribedKept {s : Settings} {i : Nat}
    (parameters : (w'.heap i).parameters = (w.heap i).parameters) (prescribed : Prescribed w s i) :
    Prescribed w' s i := by
  obtain ⟨p, created, tuned⟩ := prescribed
  exact ⟨p, created, parameters.trans tuned⟩

theorem retainsTuned (tuned : Tuned w) (processor : w'.processor = w.processor)
    (settings : w'.settings = w.settings) (registry : w'.processorRegistry = w.processorRegistry)
    (parameters : ∀ i, (w'.heap i).parameters = (w.heap i).parameters)
    (swapping : ∀ t work, At w'.tasks Frame.swapping t work → At w.tasks Frame.swapping t work)
    (selecting : ∀ t, At w.tasks Frame.selecting t () → At w'.tasks Frame.selecting t ())
    (alone : ∀ t u, At w'.tasks Frame.busy t () → At w'.tasks Frame.busy u () → t = u) :
    Tuned w' where
  paths := by rw [registry, settings, tuned.paths]
  alone := alone
  pending t swap r busy := by
    obtain ⟨same, prescribed⟩ := tuned.pending t swap r (swapping t _ busy)
    have target : swap.target w' = swap.target w := by
      cases swap <;> simp only [Swap.target, settings]
    rw [target, settings]
    exact ⟨same, prescribedKept (parameters r) prescribed⟩
  current early := by
    rw [settings, processor]
    exact prescribedKept (parameters _) (tuned.current fun t inside => early t (selecting t inside))

theorem aloneSet {t : Nat} {old new : Frame} (tuned : Tuned w) (found : w.tasks[t]? = some old)
    (busy : old.busy = some ()) (u v : Nat) (left : At (w.tasks.set t new) Frame.busy u ())
    (right : At (w.tasks.set t new) Frame.busy v ()) : u = v :=
  tuned.alone u v (atSetKept found (fun _ _ => busy) left) (atSetKept found (fun _ _ => busy) right)

theorem aloneAppend {frame : Frame} (quiescent : Quiescent w) (u v : Nat)
    (left : At (w.tasks ++ [frame]) Frame.busy u ())
    (right : At (w.tasks ++ [frame]) Frame.busy v ()) : u = v := by
  rcases atAppend.mp left with ⟨mine, _⟩ | before
  · rcases atAppend.mp right with ⟨yours, _⟩ | before
    · exact mine.trans yours.symm
    · exact absurd before (quiescentIdle quiescent v)
  · exact absurd before (quiescentIdle quiescent u)

theorem arrivedTuned {request : Request} {frame : Frame} (tuned : Tuned w)
    (quiescent : Quiescent w) (idle : frame.swapping = none)
    (arrived : Arrived w request frame w') : Tuned w' := by
  refine retainsTuned tuned arrived.processor arrived.settings arrived.registry arrived.parameters
    ?_ ?_ ?_ <;> rw [arrived.tasks]
  · exact fun _ _ => atAppendKept idle
  · exact fun t inside => atAppend.mpr (.inr inside)
  · exact aloneAppend quiescent

theorem frameTuned {t : Nat} {old new : Frame} (tuned : Tuned w) (found : w.tasks[t]? = some old)
    (busy : old.busy = some ()) (outside : old.selecting = none)
    (swapping : ∀ work, new.swapping = some work → old.swapping = some work)
    (tasks : w'.tasks = w.tasks.set t new) (processor : w'.processor = w.processor)
    (settings : w'.settings = w.settings) (registry : w'.processorRegistry = w.processorRegistry)
    (parameters : ∀ i, (w'.heap i).parameters = (w.heap i).parameters) : Tuned w' := by
  refine retainsTuned tuned processor settings registry parameters ?_ ?_ ?_ <;> rw [tasks]
  · exact fun _ _ => atSetKept found swapping
  · intro u inside
    refine (atSet found).mpr (.inr ⟨fun same => ?_, inside⟩)
    rw [same, atFound found, outside] at inside
    contradiction
  · exact aloneSet tuned found busy

theorem asideTuned (tuned : Tuned w) (aside : Aside w w') : Tuned w' := by
  refine retainsTuned tuned aside.processor aside.settings aside.registry aside.parameters ?_ ?_ ?_ <;>
    rw [aside.tasks]
  · exact fun _ _ same => same
  · exact fun _ same => same
  · exact tuned.alone

/- A replacement is built from current values, for an update because its candidate is
what the settings become, for a selection because the registry is current. -/
theorem launchPrescribes {request : Request} {swap : Swap} {replacement : Processor}
    (tuned : Tuned w) (current : RegistryCurrent w (.call request))
    (brought : request.swap w = some swap)
    (created : create (swap.registry w) swap.name = .ok replacement) :
    RuntimeSettings.paths (swap.target w) = RuntimeSettings.paths w.settings ∧
      create (swap.target w) (swap.target w).processor = .ok replacement := by
  cases request with
  | selectProcessor name =>
    cases brought
    have agrees : create w.processorRegistry name = create w.settings name :=
      createAgrees (current name rfl) tuned.paths
    refine ⟨rfl, ?_⟩
    rw [Swap.target, createChoice, ← agrees]
    exact created
  | updateRuntimeSettings updates =>
    cases brought
    exact ⟨replacePaths _ _, created⟩
  | restoreStartupSettings =>
    cases brought
    exact ⟨replacePaths _ _, created⟩
  | resetProcessor => contradiction
  | stop => contradiction

theorem launchTuned {request : Request} {swap : Swap} {replacement : Processor} (sound : Sound w)
    (tuned : Tuned w) (quiescent : Quiescent w) (current : RegistryCurrent w (.call request))
    (brought : request.swap w = some swap)
    (created : create (swap.registry w) swap.name = .ok replacement) :
    Tuned (launched (asked w request) swap replacement) := by
  have other : w.processor ≠ w.next := Nat.ne_of_lt sound.linked.installed
  refine ⟨tuned.paths, aloneAppend quiescent, fun t found r swapping => ?_, fun early => ?_⟩
  · rcases atAppend.mp swapping with ⟨_, new⟩ | old
    · cases new
      obtain ⟨same, built⟩ := launchPrescribes tuned current brought created
      have target : swap.target (launched (asked w request) swap replacement) = swap.target w := by
        cases swap <;> rfl
      rw [target]
      refine ⟨same, replacement, built, ?_⟩
      simp only [launched, asked, Function.update_self]
    · exact absurd (swappingBusy old) (quiescentIdle quiescent t)
  · have calm (t : Nat) : ¬ At w.tasks Frame.selecting t () :=
      fun inside => early t (atAppend.mpr (.inr inside))
    refine prescribedKept ?_ (tuned.current calm)
    simp only [launched, asked, Function.update_of_ne other]

theorem liveTuned {request : Request} {updates : Updates} {rule : LiveApplyRule} (sound : Sound w)
    (tuned : Tuned w) (quiescent : Quiescent w)
    (valid : validateRuntimeSettings (Swap.candidate w.settings updates) = .ok ())
    (found : findLiveApplyRule updates (w.heap w.processor) = some rule) :
    Tuned (applyLive (asked w request) rule (Swap.candidate w.settings updates)) := by
  have applies := liveApplies found
  have named : w.settings.processor = (w.heap w.processor).name := by
    refine sound.linked.agrees (fun t r target inside => ?_)
    obtain ⟨frame, present, shown⟩ := Option.bind_eq_some_iff.mp (atMap.mp inside)
    have complete := quiescent frame (List.mem_of_getElem? present)
    cases frame <;> contradiction
  obtain ⟨p, created, same⟩ := tuned.current (quiescentCalm quiescent)
  obtain ⟨fresh, built, retuned⟩ := livePrescribed created same applies named valid
  refine ⟨tuned.paths.trans (replacePaths _ _).symm, aloneAppend quiescent,
    fun t swap r swapping => ?_, fun _ => ⟨fresh, built, ?_⟩⟩
  · rcases atAppend.mp swapping with ⟨_, none⟩ | old
    · contradiction
    · exact absurd (swappingBusy old) (quiescentIdle quiescent t)
  · simp only [applyLive, asked, Function.update_self]
    exact retuned

theorem enteredTuned {t : Nat} {swap : Swap} {r : Nat} (tuned : Tuned w)
    (entered : Entered w t swap r w') : Tuned w' := by
  have found := entered.found
  have mine : At w.tasks Frame.swapping t (swap, r) := (atFound found).mpr rfl
  obtain ⟨same, prescribed⟩ := tuned.pending t swap r mine
  have only (u : Nat) (other : Swap) (q : Nat)
      (swapping : At w'.tasks Frame.swapping u (other, q)) : other = swap ∧ q = r := by
    rw [entered.tasks] at swapping
    have before := atSetKept found (fun work (shown : some (swap, r) = some work) => shown) swapping
    have here := tuned.alone u t (swappingBusy before) (swappingBusy mine)
    rw [here] at before
    have shown := (atFound found).mp before
    cases shown
    exact ⟨rfl, rfl⟩
  have alone (u x : Nat) (left : At w'.tasks Frame.busy u ()) (right : At w'.tasks Frame.busy x ()) :
      u = x := by
    rw [entered.tasks] at left right
    exact aloneSet tuned found rfl u x left right
  have settings := entered.settings
  have registry := entered.registry
  cases swap with
  | select name =>
    have settings : w'.settings = w.settings := settings
    have registry : w'.processorRegistry = w.processorRegistry := registry
    refine ⟨?_, alone, fun u other q swapping => ?_, fun early => ?_⟩
    · rw [settings, registry, tuned.paths]
    · obtain ⟨rfl, rfl⟩ := only u other q swapping
      simp only [Swap.target, settings]
      exact ⟨same, prescribedKept (entered.parameters _) prescribed⟩
    · refine absurd ?_ (early t)
      rw [entered.tasks]
      exact (atHere found).mpr rfl
  | update snapshot updates =>
    have settings : w'.settings = Swap.candidate snapshot updates := settings
    have registry : w'.processorRegistry = Swap.candidate snapshot updates := registry
    refine ⟨by rw [settings, registry], alone, fun u other q swapping => ?_, fun _ => ?_⟩
    · obtain ⟨rfl, rfl⟩ := only u other q swapping
      rw [settings]
      exact ⟨rfl, prescribedKept (entered.parameters _) prescribed⟩
    · rw [settings, entered.processor]
      exact prescribedKept (entered.parameters _) prescribed

theorem leftTuned {t : Nat} {swap : Swap} {r target : Nat} (sound : Sound w) (tuned : Tuned w)
    (left : Swapped w t swap r target w') : Tuned w' := by
  have found := left.found
  have settings := left.settings
  cases swap with
  | update snapshot updates =>
    exact frameTuned tuned found rfl rfl (fun _ none => by contradiction) left.tasks left.processor
      settings left.registry left.parameters
  | select name =>
    have mine : At w.tasks Frame.swapping t (.select name, r) := (atFound found).mpr rfl
    have settings : w'.settings = { w.settings with processor := name } := settings
    obtain ⟨same, prescribed⟩ := tuned.pending t _ r mine
    obtain ⟨rfl, _⟩ := sound.linked.swapping t true r target ((atFound (clientFound found)).mpr rfl)
    refine ⟨?_, fun u x one two => ?_, fun u other q swapping => ?_, fun _ => ?_⟩
    · rw [settings, left.registry]
      exact tuned.paths
    · rw [left.tasks] at one two
      exact aloneSet tuned found rfl u x one two
    · rw [left.tasks] at swapping
      rcases (atSet found).mp swapping with ⟨_, none⟩ | ⟨apart, before⟩
      · contradiction
      · exact absurd (tuned.alone u t (swappingBusy before) (swappingBusy mine)) apart
    · rw [settings, left.processor]
      exact prescribedKept (left.parameters _) prescribed

theorem stepTuned {event : Event} (sound : Sound w) (tuned : Tuned w)
    (sequence : InSequence w event) (current : RegistryCurrent w event)
    (step : Step env w event w') : Tuned w' := by
  cases stepTurns step with
  | aside aside => exact asideTuned tuned aside
  | arrives request frame comes arrived =>
    exact arrivedTuned tuned (sequence _ rfl) (comesPlain comes) arrived
  | appliedLive request updates rule brought valid found =>
    exact liveTuned sound tuned (sequence _ rfl) valid found
  | launches request swap replacement brought created =>
    exact launchTuned sound tuned (sequence _ rfl) current brought created
  | moves t old new more goes moved =>
    have outside : old.selecting = none := by cases goes <;> rfl
    exact frameTuned tuned moved.found (goesBusy goes) outside (goesSwapping goes) moved.tasks
      moved.processor moved.settings moved.registry moved.parameters
  | enters t swap r entered => exact enteredTuned tuned entered
  | leaves t swap r target left => exact leftTuned sound tuned left

end Kept

section Runs
variable {env : Environment} {settings : Settings} {w w' : World} {events : List Event}

theorem startedTuned (start : started settings = .ok w) : Tuned w := by
  obtain ⟨p, created, rfl⟩ := startedFresh start
  exact ⟨rfl, fun t u busy => absurd busy nobodyAt, fun t swap r busy => absurd busy nobodyAt,
    fun _ => ⟨p, created, by simp only [fresh, Function.update_self]⟩⟩

theorem sequentialTuned (start : started settings = .ok w)
    (ran : run (step env) w events = some w')
    (sequence : Along (step env) InSequence w events)
    (current : Along (step env) RegistryCurrent w events) (quiescent : Quiescent w') :
    Prescribed w' w'.settings w'.processor := by
  have kept : Sound w' ∧ Tuned w' := by
    refine runInvariantAlong (fun u => Sound u ∧ Tuned u) ⟨startedSound start, startedTuned start⟩
      (fun u event v holds condition stepped => ?_) (alongBoth sequence current) ran
    exact ⟨stepSound holds.1 stepped,
      stepTuned holds.1 holds.2 condition.1 condition.2 (stepCases stepped)⟩
  exact kept.2.current (quiescentCalm quiescent)

def reselection (name : String) : List Event := [
  .call (.updateRuntimeSettings (Updates.single .centreReduction (0.3 : Float))),
  .call (.selectProcessor name), .resume 1, .resume 1, .resume 1]

theorem othersCurrent {name : String} (unread : Field.centreReduction ∉ factoryFields name)
    (s : Settings) (r : Float) : ∀ key ∈ factoryFields name,
      get s key = get (Swap.candidate s (Updates.single .centreReduction r)) key := by
  intro key read
  have differs : Field.centreReduction ≠ key := fun same => unread (same ▸ read)
  have unset : (Updates.single .centreReduction r).value key = none := dif_neg differs
  rw [Swap.candidate, getReplace, unset, Option.getD_none]

theorem sequentialTunedLive : ∃ w w', started { processor := "stereo-centre-reduction" } = .ok w ∧
    run (step trial) w (reselection "htdemucs-vocals") = some w' ∧
    Prescribed w' w'.settings w'.processor := by
  refine ⟨_, _, rfl, rfl, @sequentialTuned trial { processor := "stereo-centre-reduction" } _ _
    (reselection "htdemucs-vocals") rfl rfl ?_ ?_ ?_⟩
  · refine alongCons rfl (fun _ _ => ?_) (alongCons rfl (fun _ _ => ?_) (alongCons rfl ?_
      (alongCons rfl ?_ (alongCons rfl ?_ alongNil))))
    · exact fun frame none => absurd none List.not_mem_nil
    · exact List.forall_mem_singleton.mpr rfl
    all_goals exact fun _ other => by contradiction
  · refine alongCons rfl ?_ (alongCons rfl (fun name same => ?_) (alongCons rfl ?_
      (alongCons rfl ?_ (alongCons rfl ?_ alongNil))))
    · exact fun _ other => by cases other
    · cases same
      exact othersCurrent (by decide) _ _
    all_goals exact fun _ other => by contradiction
  · exact List.forall_mem_cons.mpr ⟨rfl, List.forall_mem_singleton.mpr rfl⟩

/- The reduction is 0.3 live, and 0.7 again once the processor is selected anew: the
registry has a copy of the settings, which the live update leaves alone. -/
theorem staleSelection : ∃ w w', started { processor := "stereo-centre-reduction" } = .ok w ∧
    run (step trial) w (reselection "stereo-centre-reduction") = some w' ∧
    Along (step trial) InSequence w (reselection "stereo-centre-reduction") ∧
    Quiescent w' ∧ ¬ Prescribed w' w'.settings w'.processor := by
  refine ⟨_, _, rfl, rfl, ?_, ?_, ?_⟩
  · refine alongCons rfl (fun _ _ => ?_) (alongCons rfl (fun _ _ => ?_) (alongCons rfl ?_
      (alongCons rfl ?_ (alongCons rfl ?_ alongNil))))
    · exact fun frame none => absurd none List.not_mem_nil
    · exact List.forall_mem_singleton.mpr rfl
    all_goals exact fun _ other => by contradiction
  · exact List.forall_mem_cons.mpr ⟨rfl, List.forall_mem_singleton.mpr rfl⟩
  · intro prescribed
    obtain ⟨p, created, tuned⟩ := prescribed
    cases created
    have apart : (0.7 : Float) ≠ 0.3 := by decide
    exact apart (Processor.Parameters.centre.inj tuned)

end Runs

end KaraokeAnything.Service
