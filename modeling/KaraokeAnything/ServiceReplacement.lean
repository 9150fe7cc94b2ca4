import KaraokeAnything.ServiceCalls
import KaraokeAnything.ServiceRelay

/-! What a call that replaces the processor leaves behind: all of its assignments or
none, and no started processor that nobody will stop. A flush that raises on the way
in drops the replacement its call had started. -/
namespace KaraokeAnything.Service
open ByteOrder Config Kany Lifecycle Models Processors Python RuntimeSettings
open HotSwap (At atAppend atAppendKept atElsewhere atFound atHere atMap atSet atSetKept atSetStays)
open Processor (Progress)
open Runs

section Outcomes

def changesBy (w : World) (t : Nat) : List Assignment :=
  (w.history.changes.filter (·.task == t)).map (·.assignment)

inductive Wrote : Swap → Nat → List Assignment → Prop where
  | select (name : String) (r : Nat) (settings : Settings) (chosen : settings.processor = name) :
    Wrote (.select name) r [.processor r, .settings settings]
  | update (snapshot : Settings) (updates : Updates) (r : Nat) :
    Wrote (.update snapshot updates) r [.processor r, .registry (Swap.candidate snapshot updates),
      .settings (Swap.candidate snapshot updates)]

def Replaced (w : World) (t : Nat) (request : Request) : Prop :=
  ∃ swap r old, swap.Answers w request ∧ Wrote swap r (changesBy w t) ∧
    [old, r] <:+: installs w ∧ ⟨r, .start, .ends⟩ ∈ w.history.calls ∧
    ⟨old, .flush, .ends⟩ ∈ w.history.calls ∧ ⟨old, .stop, .ends⟩ ∈ w.history.calls

def Frame.untouched : Frame → Option Unit
  | .starting _ _ | .acquiring _ | .joining | .raised _ => some ()
  | .finishing .reset _ | .finishing .shutdown _ => some ()
  | _ => none

def Frame.inside : Frame → Option (Swap × Nat × Nat)
  | .finishing (.swap swap r) old => some (swap, r, old)
  | _ => none

def Frame.restarted : Frame → Option Unit
  | .returned .nothing | .returned (.applied true _) => some ()
  | _ => none

structure WrittenAt (w : World) (t : Nat) : Prop where
  fresh : w.tasks.length ≤ t → changesBy w t = []
  untouched : At w.tasks Frame.untouched t () → changesBy w t = []
  entered : ∀ swap r old, At w.tasks Frame.inside t (swap, r, old) →
    changesBy w t = swap.assignments r ∧ [old, r] <:+: installs w ∧
      ⟨r, .start, .ends⟩ ∈ w.history.calls ∧ ⟨old, .flush, .ends⟩ ∈ w.history.calls
  replaced : ∀ request, At w.tasks Frame.restarted t () → w.history.requests[t]? = some request →
    (request.swap w).isSome = true → Replaced w t request

def Written (w : World) : Prop := ∀ t, WrittenAt w t

end Outcomes

section Written
variable {env : Environment} {w w' : World}

theorem changesBySnoc (history : History) (t u : Nat) (assignments : List Assignment) :
    ((history.changed t assignments).changes.filter (·.task == u)).map (·.assignment) =
      (history.changes.filter (·.task == u)).map (·.assignment) ++
        (if u = t then assignments else []) := by
  rw [History.changed, List.filter_append, List.map_append]
  congr 1
  by_cases same : u = t
  · subst same
    simp [List.filter_map, Function.comp_def]
  · have other (change : Change) (mine : change ∈ assignments.map (Change.mk t)) :
        ¬ (change.task == u) = true := by
      obtain ⟨_, _, rfl⟩ := List.mem_map.mp mine
      simpa using Ne.symm same
    rw [List.filter_eq_nil_iff.mpr other, if_neg same]
    rfl

structure Follows (w w' : World) : Prop where
  same : w'.startupSettings = w.startupSettings
  installed : installs w <+: installs w'
  calls : w.history.calls ⊆ w'.history.calls
  requests : ∀ t, t < w.tasks.length → w'.history.requests[t]? = w.history.requests[t]?
  longer : w.tasks.length ≤ w'.tasks.length

theorem replacedKept {t : Nat} {request : Request} (follows : Follows w w')
    (changes : changesBy w' t = changesBy w t) (replaced : Replaced w t request) :
    Replaced w' t request := by
  obtain ⟨swap, r, old, answers, wrote, after, begun, flushed, stopped⟩ := replaced
  exact ⟨swap, r, old, answersKept follows.same answers, changes ▸ wrote,
    after.trans follows.installed.isInfix, follows.calls begun, follows.calls flushed,
    follows.calls stopped⟩

theorem keptAt {t : Nat} (follows : Follows w w') (changes : changesBy w' t = changesBy w t)
    (untouched : At w'.tasks Frame.untouched t () →
      At w.tasks Frame.untouched t () ∨ w.tasks.length ≤ t)
    (inside : ∀ work, At w'.tasks Frame.inside t work → At w.tasks Frame.inside t work)
    (restarted : At w'.tasks Frame.restarted t () → At w.tasks Frame.restarted t () ∨
      ∀ request, w'.history.requests[t]? = some request → request.swap w' = none)
    (written : WrittenAt w t) : WrittenAt w' t := by
  refine ⟨fun late => ?_, fun shown => ?_, fun swap r old shown => ?_,
    fun request shown asks swaps => ?_⟩
  · rw [changes]
    exact written.fresh (follows.longer.trans late)
  · rw [changes]
    rcases untouched shown with before | late
    · exact written.untouched before
    · exact written.fresh late
  · obtain ⟨assigned, after, begun, flushed⟩ := written.entered swap r old (inside _ shown)
    exact ⟨changes.trans assigned, after.trans follows.installed.isInfix, follows.calls begun,
      follows.calls flushed⟩
  · rcases restarted shown with before | bare
    · obtain ⟨_, found, _⟩ := Option.bind_eq_some_iff.mp before
      rw [follows.requests t (List.getElem?_eq_some_iff.mp found).1] at asks
      have swaps : (request.swap w).isSome = true := by
        cases request <;> first | rfl | contradiction
      exact replacedKept follows changes (written.replaced request before asks swaps)
    · rw [bare request asks] at swaps
      contradiction

theorem changesBySame (changes : w'.history.changes = w.history.changes) (t : Nat) :
    changesBy w' t = changesBy w t := by
  rw [changesBy, changesBy, changes]

theorem installsSame (changes : w'.history.changes = w.history.changes) :
    installs w' = installs w := by
  rw [installs, installs, changes]

theorem asideWritten (written : Written w) (aside : Aside w w') : Written w' := by
  intro t
  obtain ⟨more, logged, _⟩ := aside.calls
  have follows : Follows w w' := ⟨aside.startup,
    installsSame aside.changes ▸ List.prefix_refl _, by rw [logged]; exact List.subset_append_left _ _,
    fun _ _ => by rw [aside.requests], by rw [aside.tasks]⟩
  refine keptAt follows (changesBySame aside.changes t) ?_ ?_ ?_ (written t) <;> rw [aside.tasks]
  · exact .inl
  · exact fun _ same => same
  · exact .inl

theorem movedWritten {t : Nat} {event : Event} {old new : Frame} {more : List (Call MediaPacket)}
    (served : Served w) (written : Written w) (goes : Goes w t event old new more)
    (moved : Moved w t old new more w') : Written w' := by
  intro u
  have found := moved.found
  have follows : Follows w w' := ⟨moved.startup,
    installsSame moved.changes ▸ List.prefix_refl _,
    by rw [moved.calls]; exact List.subset_append_left _ _,
    fun _ _ => by rw [moved.requests], by rw [moved.tasks, List.length_set]⟩
  refine keptAt follows (changesBySame moved.changes u) ?_ ?_ ?_ (written u) <;> rw [moved.tasks]
  · refine fun shown => .inl (atSetKept found (fun _ untouched => ?_) shown)
    cases goes <;> first | exact untouched | rfl
  · refine fun _ shown => atSetKept found (fun _ inside => ?_) shown
    cases goes <;> contradiction
  · intro shown
    rcases (atSet found).mp shown with ⟨here, complete⟩ | ⟨_, before⟩
    · refine .inr fun request asks => ?_
      have plain : old.plain = some () := by
        cases goes <;> first | rfl | contradiction
      rw [moved.requests, here] at asks
      exact planless (served.plain t request ((atFound found).mpr plain) asks)
    · exact .inl before

theorem callWritten {frame : Frame} {request : Request} (served : Served w)
    (written : Written w) (inside : frame.inside = none)
    (restarted : frame.restarted = some () → request.swap w = none)
    (same : w'.startupSettings = w.startupSettings)
    (changes : w'.history.changes = w.history.changes) (calls : w.history.calls ⊆ w'.history.calls)
    (tasks : w'.tasks = w.tasks ++ [frame])
    (requests : w'.history.requests = w.history.requests ++ [request]) : Written w' := by
  intro u
  have follows : Follows w w' := ⟨same, installsSame changes ▸ List.prefix_refl _, calls,
    fun t below => by rw [requests, List.getElem?_append_left (served.count ▸ below)],
    by rw [tasks, List.length_append]; exact Nat.le_add_right _ _⟩
  refine keptAt follows (changesBySame changes u) ?_ ?_ ?_ (written u) <;> rw [tasks]
  · intro shown
    rcases atAppend.mp shown with ⟨last, _⟩ | before
    · exact .inr (Nat.le_of_eq last.symm)
    · exact .inl before
  · exact fun _ shown => atAppendKept inside shown
  · intro shown
    rcases atAppend.mp shown with ⟨last, complete⟩ | before
    · refine .inr fun other asks => ?_
      rw [requests, last, served.count, List.getElem?_concat_length] at asks
      exact Option.some.inj asks ▸ planless (restarted complete)
    · exact .inl before

theorem changesByMore {t : Nat} {assignments : List Assignment}
    (changes : w'.history.changes = (w.history.changed t assignments).changes) (u : Nat) :
    changesBy w' u = changesBy w u ++ (if u = t then assignments else []) := by
  rw [changesBy, changes, changesBySnoc]
  rfl

theorem otherAt {t u : Nat} {old new : Frame} (found : w.tasks[t]? = some old) (other : u ≠ t)
    (tasks : w'.tasks = w.tasks.set t new) (follows : Follows w w')
    (changes : changesBy w' u = changesBy w u) (written : WrittenAt w u) : WrittenAt w' u := by
  refine keptAt follows changes ?_ (fun work => ?_) ?_ written <;>
    rw [tasks, atElsewhere found other]
  · exact .inl
  · exact id
  · exact .inl

theorem enteredWritten {t : Nat} {swap : Swap} {r : Nat} (sound : Sound w)
    (succession : Succession w) (written : Written w) (entered : Entered w t swap r w') :
    Written w' := by
  intro u
  have found := entered.found
  have tasks := entered.tasks
  have calls := entered.calls
  have added : installs w' = installs w ++ [r] := installsSwap t swap r entered.changes
  have follows : Follows w w' := ⟨entered.startup, added ▸ List.prefix_append _ _,
    calls ▸ List.subset_append_left _ _, fun _ _ => by rw [entered.requests],
    by rw [tasks, List.length_set]⟩
  have changed := changesByMore entered.changes u
  by_cases here : u = t
  · subst here
    have before : changesBy w u = [] := (written u).untouched ((atFound found).mpr rfl)
    have here : At w'.tasks Frame.inside u (swap, r, w.processor) := by
      rw [tasks]
      exact (atHere found).mpr rfl
    obtain ⟨frame, present, shown⟩ := Option.bind_eq_some_iff.mp here
    refine ⟨fun late => ?_, fun other => ?_, fun swap' r' old inside => ?_, fun _ complete => ?_⟩
    · rw [List.getElem?_eq_none late] at present
      contradiction
    · rw [tasks, atHere found] at other
      contradiction
    · have equal := Option.some.inj (inside.symm.trans here)
      cases equal
      refine ⟨?_, ?_, ?_, ?_⟩
      · rw [changed, before, if_pos rfl, List.nil_append]
      · obtain ⟨first, last⟩ := succession.last
        exact ⟨first, [], by simp [added, last]⟩
      · rw [calls]
        exact List.mem_append_left _ (sound.linked.ready u r (atMap.mpr ((atFound found).mpr rfl)))
      · simp [calls, drainedBy]
    · rw [tasks, atHere found] at complete
      contradiction
  · rw [if_neg here, List.append_nil] at changed
    exact otherAt found here tasks follows changed (written u)

theorem wroteAll (w : World) (swap : Swap) (r : Nat) :
    Wrote swap r (swap.assignments r ++ swap.lastly w) := by
  cases swap with
  | select name => exact .select name r _ rfl
  | update snapshot updates => exact .update snapshot updates r

theorem installsLastly {t : Nat} {swap : Swap}
    (changes : w'.history.changes = (w.history.changed t (swap.lastly w)).changes) :
    installs w' = installs w := by
  cases swap <;> simp [installs, changes, History.changed, Swap.lastly]

theorem leftWritten {t : Nat} {swap : Swap} {r old : Nat} (served : Served w)
    (written : Written w) (left : Swapped w t swap r old w') : Written w' := by
  intro u
  have found := left.found
  have tasks := left.tasks
  have installed := installsLastly left.changes
  have follows : Follows w w' := ⟨left.startup, installed ▸ List.prefix_refl _,
    left.calls ▸ List.subset_append_left _ _, fun _ _ => by rw [left.requests],
    by rw [tasks, List.length_set]⟩
  have changed := changesByMore left.changes u
  by_cases here : u = t
  · subst here
    have mine : At w.tasks Frame.inside u (swap, r, old) := (atFound found).mpr rfl
    obtain ⟨assigned, after, begun, flushed⟩ := (written u).entered swap r old mine
    refine ⟨fun late => ?_, fun shown => ?_, fun _ _ _ shown => ?_, fun request _ asks _ => ?_⟩
    · rw [tasks, List.length_set] at late
      rw [List.getElem?_eq_none late] at found
      contradiction
    · rw [tasks, atHere found] at shown
      contradiction
    · rw [tasks, atHere found] at shown
      contradiction
    · rw [left.requests] at asks
      have answers := served.swaps u swap r request ((atFound found).mpr rfl) asks
      refine ⟨swap, r, old, answersKept left.startup answers, ?_, installed ▸ after,
        follows.calls begun, follows.calls flushed, by simp [left.calls]⟩
      rw [changed, if_pos rfl, assigned]
      exact wroteAll w swap r
  · rw [if_neg here, List.append_nil] at changed
    exact otherAt found here tasks follows changed (written u)

theorem liveWritten {request : Request} {rule : LiveApplyRule} {candidate : Settings}
    (served : Served w) (written : Written w) :
    Written (applyLive (asked w request) rule candidate) := by
  intro u
  have changes : (applyLive (asked w request) rule candidate).history.changes =
      (w.history.changed w.tasks.length [.settings candidate]).changes := rfl
  have installed : installs (applyLive (asked w request) rule candidate) = installs w := by
    simp [installs, applyLive, asked, History.changed]
  have follows : Follows w (applyLive (asked w request) rule candidate) :=
    ⟨rfl, installed ▸ List.prefix_refl _, List.Subset.refl _,
      fun t below => List.getElem?_append_left (served.count ▸ below),
      by simp [applyLive, asked]⟩
  by_cases here : u = w.tasks.length
  · refine ⟨fun late => ?_, fun shown => ?_, fun _ _ _ shown => ?_, fun _ shown => ?_⟩
    · simp only [applyLive, asked, List.length_append, List.length_singleton] at late
      omega
    all_goals
      rcases atAppend.mp shown with ⟨_, none⟩ | before
      · contradiction
      · obtain ⟨_, found, _⟩ := Option.bind_eq_some_iff.mp before
        have below := (List.getElem?_eq_some_iff.mp found).1
        simp only [asked] at below
        omega
  · have changed := changesByMore changes u
    rw [if_neg here, List.append_nil] at changed
    have before {β : Type} {view : Frame → Option β} {v : β}
        (shown : At (applyLive (asked w request) rule candidate).tasks view u v) :
        At w.tasks view u v := (atAppend.mp shown).resolve_left fun last => here last.1
    exact keptAt follows changed (fun shown => .inl (before shown)) (fun _ shown => before shown)
      (fun shown => .inl (before shown)) (written u)

theorem stepWritten {event : Event} (sound : Sound w) (served : Served w)
    (succession : Succession w) (written : Written w) (step : Step env w event w') :
    Written w' := by
  cases stepTurns step with
  | aside aside => exact asideWritten written aside
  | arrives request frame comes arrived =>
    have inside : frame.inside = none := by cases comes <;> rfl
    refine callWritten served written inside (fun restarted => ?_) arrived.startup arrived.changes
      (by rw [arrived.calls]; exact List.Subset.refl _) arrived.tasks arrived.requests
    cases comes <;> first | rfl | contradiction
  | appliedLive request updates rule brought valid found => exact liveWritten served written
  | launches request swap replacement brought created =>
    exact callWritten served written rfl (fun none => by contradiction) rfl rfl
      (List.subset_append_left _ _) rfl rfl
  | moves t old new more goes moved => exact movedWritten served written goes moved
  | enters t swap r entered => exact enteredWritten sound succession written entered
  | leaves t swap r target left => exact leftWritten served written left

end Written

section Owned
variable {env : Environment} {w w' : World}

def Frame.unstarted : Frame → Option Nat
  | .starting _ r => some r
  | _ => none

def Frame.stopping : Frame → Option Nat
  | .finishing (.swap _ _) old => some old
  | _ => none

def Guarded (w : World) (i : Nat) : Prop :=
  i = w.processor ∨ (∃ t, Waits w t i) ∨ ∃ t, At w.tasks Frame.stopping t i

structure Owned (w : World) : Prop where
  known : ∀ call ∈ w.history.calls, call.target < w.next
  unstarted : ∀ t r, At w.tasks Frame.unstarted t r → ⟨r, .start, .ends⟩ ∉ w.history.calls
  owned : ∀ i, ⟨i, .start, .ends⟩ ∈ w.history.calls →
    Guarded w i ∨ ⟨i, .stop, .ends⟩ ∈ w.history.calls

theorem guardedKept {i : Nat} (processor : w'.processor = w.processor)
    (waits : ∀ t, Waits w t i → Waits w' t i)
    (stopping : ∀ t, At w.tasks Frame.stopping t i → At w'.tasks Frame.stopping t i)
    (guarded : Guarded w i) : Guarded w' i := by
  rcases guarded with here | ⟨t, later⟩ | ⟨t, old⟩
  · exact .inl (here.trans processor.symm)
  · exact .inr (.inl ⟨t, waits t later⟩)
  · exact .inr (.inr ⟨t, stopping t old⟩)

theorem keptOwned {more : List (Call MediaPacket)} (owned : Owned w) (next : w'.next = w.next)
    (calls : w'.history.calls = w.history.calls ++ more)
    (known : ∀ call ∈ more, call.target < w.next) (begun : ∀ i, ⟨i, .start, .ends⟩ ∉ more)
    (unstarted : ∀ t r, At w'.tasks Frame.unstarted t r → At w.tasks Frame.unstarted t r)
    (guarded : ∀ i, ⟨i, .start, .ends⟩ ∈ w.history.calls → Guarded w i →
      Guarded w' i ∨ ⟨i, .stop, .ends⟩ ∈ more) : Owned w' := by
  refine ⟨fun call logged => ?_, fun t r starting => ?_, fun i started => ?_⟩
  · rw [next]
    rcases List.mem_append.mp (calls ▸ logged) with old | new
    · exact owned.known call old
    · exact known call new
  · rw [calls, List.mem_append, not_or]
    exact ⟨owned.unstarted t r (unstarted t r starting), begun r⟩
  · rw [calls] at started ⊢
    have before := (List.mem_append.mp started).resolve_right (begun i)
    rcases owned.owned i before with held | stopped
    · exact (guarded i before held).imp id (List.mem_append_right _)
    · exact .inr (List.mem_append_left _ stopped)

theorem asideOwned (sound : Sound w) (owned : Owned w) (aside : Aside w w') : Owned w' := by
  obtain ⟨more, logged, works⟩ := aside.calls
  refine keptOwned owned aside.next logged (fun call inside => ?_) (fun i inside => ?_)
    (fun t r starting => ?_) (fun i _ guarded => .inl (guardedKept aside.processor
      (fun t later => ?_) (fun t old => ?_) guarded))
  · rcases (works call inside).2 with here | ⟨packet, busy⟩
    · exact here ▸ sound.linked.installed
    · have here := sound.linked.worker packet call.target (by rw [skeleton, busy]; rfl)
      exact here ▸ sound.linked.installed
  · obtain ⟨packet, method⟩ := (works _ inside).1
    contradiction
  · rwa [aside.tasks] at starting
  · rwa [Waits, aside.tasks]
  · rwa [aside.tasks]

theorem callOwned {frame : Frame} (owned : Owned w) (unstarted : frame.unstarted = none)
    (processor : w'.processor = w.processor) (next : w'.next = w.next)
    (calls : w'.history.calls = w.history.calls) (tasks : w'.tasks = w.tasks ++ [frame]) :
    Owned w' := by
  refine @keptOwned w w' [] owned next (by rw [calls, List.append_nil]) (by simp) (by simp) ?_
    (fun i _ guarded => .inl (guardedKept processor ?_ ?_ guarded))
  · rw [tasks]
    exact fun _ _ starting => atAppendKept unstarted starting
  · exact fun t later => by
      rw [Waits, tasks]
      exact atAppend.mpr (.inr later)
  · rw [tasks]
    exact fun t old => atAppend.mpr (.inr old)

theorem movedOwned {t : Nat} {old new : Frame} {more : List (Call MediaPacket)} (owned : Owned w)
    (moved : Moved w t old new more w') (unstarted : new.unstarted = none)
    (waits : ∀ r, ⟨r, .start, .ends⟩ ∈ w.history.calls → old.client.replacement = some r →
      new.client.replacement = some r)
    (stopping : old.stopping = none) (known : ∀ call ∈ more, call.target < w.next)
    (begun : ∀ i, ⟨i, .start, .ends⟩ ∉ more) : Owned w' := by
  have found := moved.found
  refine keptOwned owned moved.next moved.calls known begun (fun u r starting => ?_)
    (fun i started guarded => .inl (guardedKept moved.processor (fun u later => ?_)
      (fun u inside => ?_) guarded))
  · rw [moved.tasks] at starting
    exact atSetKept found (fun _ same => by rw [unstarted] at same; contradiction) starting
  · rw [Waits, moved.tasks]
    exact atSetStays found (waits i started) later
  · rw [moved.tasks]
    exact atSetStays found (fun none => by rw [stopping] at none; contradiction) inside

theorem launchedOwned {request : Request} {swap : Swap} {replacement : Processor}
    (owned : Owned w) : Owned (launched (asked w request) swap replacement) := by
  refine ⟨fun call logged => ?_, fun t r starting => ?_, fun i started => ?_⟩
  · rcases List.mem_append.mp logged with old | new
    · exact Nat.lt_succ_of_lt (owned.known call old)
    · rw [List.mem_singleton.mp new]
      exact Nat.lt_succ_self _
  · refine fun started => ?_
    have before : ⟨r, .start, .ends⟩ ∈ w.history.calls := by
      simpa [launched, asked, History.called] using started
    rcases atAppend.mp starting with ⟨_, new⟩ | old
    · cases new
      exact absurd (owned.known _ before) (Nat.lt_irrefl _)
    · exact owned.unstarted t r old before
  · have before : ⟨i, .start, .ends⟩ ∈ w.history.calls := by
      simpa [launched, asked, History.called] using started
    rcases owned.owned i before with guarded | stopped
    · refine .inl (guardedKept ?_ (fun t later => ?_) (fun t old => ?_) guarded)
      · rfl
      · exact atAppend.mpr (.inr later)
      · exact atAppend.mpr (.inr old)
    · exact .inr (List.mem_append_left _ stopped)

theorem begunOwned {t : Nat} {swap : Swap} {r : Nat} (owned : Owned w) (sound : Sound w)
    (moved : Moved w t (.starting swap r) (.acquiring (.swap swap r)) [⟨r, .start, .ends⟩] w') :
    Owned w' := by
  have found := moved.found
  have mine : Waits w t r := (atFound found).mpr rfl
  refine ⟨fun call logged => ?_, fun u q starting => ?_, fun i started => ?_⟩
  · rw [moved.next]
    rcases List.mem_append.mp (moved.calls ▸ logged) with old | new
    · exact owned.known call old
    · rw [List.mem_singleton.mp new]
      exact (waitsElsewhere sound mine).1
  · rw [moved.tasks] at starting
    rcases (atSet found).mp starting with ⟨_, none⟩ | ⟨other, before⟩
    · contradiction
    · rw [moved.calls, List.mem_append, not_or]
      refine ⟨owned.unstarted u q before, fun same => ?_⟩
      have equal : q = r := by simpa using same
      have yours : Waits w u q := by
        obtain ⟨frame, present, shown⟩ := Option.bind_eq_some_iff.mp before
        refine Option.bind_eq_some_iff.mpr ⟨frame, present, ?_⟩
        cases frame <;> first | exact shown | contradiction
      rw [equal] at yours
      exact other (sound.linked.distinct u t r (atMap.mpr yours) (atMap.mpr mine))
  · rw [moved.calls] at started ⊢
    rcases List.mem_append.mp started with before | new
    · rcases owned.owned i before with guarded | stopped
      · refine .inl (guardedKept moved.processor (fun u later => ?_) (fun u old => ?_) guarded)
        · rw [Waits, moved.tasks]
          exact atSetStays found (fun same => same) later
        · rw [moved.tasks]
          exact atSetStays found (fun none => by contradiction) old
      · exact .inr (List.mem_append_left _ stopped)
    · have equal : i = r := by simpa using new
      refine .inl (.inr (.inl ⟨t, ?_⟩))
      rw [Waits, moved.tasks, equal]
      exact (atHere found).mpr rfl

theorem enteredOwned {t : Nat} {swap : Swap} {r : Nat} (owned : Owned w) (sound : Sound w)
    (entered : Entered w t swap r w') : Owned w' := by
  have found := entered.found
  have installed : w.processor < w.next := sound.linked.installed
  refine keptOwned owned entered.next entered.calls (by simpa [drainedBy] using installed)
    (by simp [drainedBy]) (fun u q starting => ?_) (fun i _ guarded => .inl ?_)
  · rw [entered.tasks] at starting
    exact atSetKept found (fun _ none => by contradiction) starting
  · rcases guarded with here | ⟨u, later⟩ | ⟨u, old⟩
    · refine .inr (.inr ⟨t, ?_⟩)
      rw [entered.tasks, here]
      exact (atHere found).mpr rfl
    · by_cases mine : u = t
      · subst mine
        have same : some r = some i := (atFound found).mp later
        exact .inl ((Option.some.inj same).symm.trans entered.processor.symm)
      · refine .inr (.inl ⟨u, ?_⟩)
        rw [Waits, entered.tasks]
        exact (atElsewhere found mine).mpr later
    · refine .inr (.inr ⟨u, ?_⟩)
      rw [entered.tasks]
      exact atSetStays found (fun none => by contradiction) old

theorem leftOwned {t : Nat} {swap : Swap} {r target : Nat} (owned : Owned w) (sound : Sound w)
    (left : Swapped w t swap r target w') : Owned w' := by
  have found := left.found
  obtain ⟨_, _, known, _⟩ :=
    sound.linked.swapping t swap.late r target (atMap.mpr ((atFound found).mpr rfl))
  refine keptOwned owned left.next left.calls
    (fun call stops => by rw [List.mem_singleton.mp stops]; exact known) (by simp)
    (fun u q starting => ?_) (fun i _ guarded => ?_)
  · rw [left.tasks] at starting
    exact atSetKept found (fun _ none => by contradiction) starting
  · rcases guarded with here | ⟨u, later⟩ | ⟨u, old⟩
    · exact .inl (.inl (here.trans left.processor.symm))
    · refine .inl (.inr (.inl ⟨u, ?_⟩))
      rw [Waits, left.tasks]
      exact atSetStays found (fun none => by contradiction) later
    · by_cases mine : u = t
      · subst mine
        have same : some target = some i := (atFound found).mp old
        exact .inr (by simp [Option.some.inj same])
      · refine .inl (.inr (.inr ⟨u, ?_⟩))
        rw [left.tasks]
        exact (atElsewhere found mine).mpr old

def Harvestable (w : World) (event : Event) : Prop :=
  ∀ t swap r, event = .resume t → w.tasks[t]? = some (.acquiring (.swap swap r)) →
    (w.heap w.processor).unharvestable = false

theorem stepOwned {event : Event} (sound : Sound w) (owned : Owned w)
    (harvestable : Harvestable w event) (step : Step env w event w') : Owned w' := by
  have installed : w.processor < w.next := sound.linked.installed
  have last {call : Call MediaPacket} (known : call.target < w.next) (other : Call MediaPacket)
      (inside : other ∈ [call]) : other.target < w.next := by
    rw [List.mem_singleton.mp inside]
    exact known
  cases stepTurns step with
  | aside aside => exact asideOwned sound owned aside
  | arrives request frame comes arrived =>
    have unstarted : frame.unstarted = none := by cases comes <;> rfl
    exact callOwned owned unstarted arrived.processor arrived.next arrived.calls arrived.tasks
  | appliedLive request updates rule brought valid found =>
    exact callOwned owned rfl rfl rfl rfl rfl
  | launches request swap replacement brought created => exact launchedOwned owned
  | enters t swap r entered => exact enteredOwned owned sound entered
  | leaves t swap r target left => exact leftOwned owned sound left
  | moves t old new more goes moved =>
    have found := moved.found
    cases goes with
    | starts swap r => exact begunOwned owned sound moved
    | fails swap r error =>
      have mine : Waits w t r := (atFound found).mpr rfl
      have fresh := owned.unstarted t r ((atFound found).mpr rfl)
      refine movedOwned owned moved rfl (fun q started same => ?_) rfl
        (last (waitsElsewhere sound mine).1) (by simp)
      cases same
      exact absurd started fresh
    | joins =>
      exact movedOwned owned moved rfl (fun _ _ none => by contradiction) rfl (by simp) (by simp)
    | entersReset =>
      exact movedOwned owned moved rfl (fun _ _ none => by contradiction) rfl (last installed)
        (by simp)
    | flushRaises job error flushes bad =>
      cases job with
      | swap swap r =>
        have good := harvestable t swap r rfl found
        exact absurd (bad.symm.trans good) (by decide)
      | reset => exact absurd rfl flushes
      | shutdown =>
        exact movedOwned owned moved rfl (fun _ _ none => by contradiction) rfl
          (by simpa using installed) (by simp)
    | entersShutdown =>
      exact movedOwned owned moved rfl (fun _ _ none => by contradiction) rfl
        (by simpa using installed) (by simp)
    | leavesReset target =>
      have here := sound.linked.resetting t target (atMap.mpr ((atFound found).mpr rfl))
      exact movedOwned owned moved rfl (fun _ _ none => by contradiction) rfl
        (last (here ▸ installed)) (by simp)
    | leavesShutdown target =>
      have here := sound.linked.shutting t target (atMap.mpr ((atFound found).mpr rfl))
      exact movedOwned owned moved rfl (fun _ _ none => by contradiction) rfl
        (last (here ▸ installed)) (by simp)

end Owned

section Runs
variable {env : Environment} {settings : Settings} {w w' : World} {events : List Event}

structure Atomic (w : World) : Prop where
  orderly : Orderly w
  served : Served w
  written : Written w
  owned : Owned w

theorem startedWritten (start : started settings = .ok w) : Written w := by
  obtain ⟨p, _, rfl⟩ := startedFresh start
  exact fun t => ⟨fun _ => rfl, fun _ => rfl, fun _ _ _ shown => absurd shown nobodyAt,
    fun _ shown => absurd shown nobodyAt⟩

theorem startedOwned (start : started settings = .ok w) : Owned w := by
  obtain ⟨p, _, rfl⟩ := startedFresh start
  refine ⟨fun call logged => ?_, fun t r shown => absurd shown nobodyAt, fun i begun => ?_⟩
  · have only : call = ⟨0, .start, .begins⟩ ∨ call = ⟨0, .start, .ends⟩ := by
      simpa [fresh] using logged
    rcases only with rfl | rfl <;> exact Nat.one_pos
  · have only : i = 0 := by simpa [fresh] using begun
    exact .inl (.inl only)

theorem runAtomic (start : started settings = .ok w) (ran : run (step env) w events = some w')
    (harvestable : Along (step env) Harvestable w events) : Atomic w' := by
  refine runInvariantAlong Atomic
    ⟨⟨startedSound start, startedRelayed start, startedSuccession start⟩, startedServed start,
      startedWritten start, startedOwned start⟩
    (fun u event v atomic holds stepped => ?_) harvestable ran
  obtain ⟨orderly, served, written, owned⟩ := atomic
  have cases_of := stepCases stepped
  exact ⟨stepOrderly orderly stepped, stepServed served cases_of,
    stepWritten orderly.sound served orderly.succession written cases_of,
    stepOwned orderly.sound owned holds cases_of⟩

/- A call that raised assigned nothing, one that returned replaced the processor, and
whatever was started is installed, has been stopped, or is in the hands of a call. -/
theorem replacementAtomic (start : started settings = .ok w)
    (ran : run (step env) w events = some w')
    (harvestable : Along (step env) Harvestable w events) :
    (∀ t error, w'.tasks[t]? = some (.raised error) → changesBy w' t = []) ∧
    (∀ t request, w'.history.requests[t]? = some request → (request.swap w').isSome = true →
      At w'.tasks Frame.restarted t () → Replaced w' t request) ∧
    ∀ i, ⟨i, .start, .ends⟩ ∈ w'.history.calls →
      Guarded w' i ∨ ⟨i, .stop, .ends⟩ ∈ w'.history.calls := by
  have atomic := runAtomic start ran harvestable
  refine ⟨fun t error raised => ?_, fun t request asks swaps returned => ?_, atomic.owned.owned⟩
  · exact (atomic.written t).untouched ((atFound raised).mpr rfl)
  · exact (atomic.written t).replaced request returned asks swaps

theorem replacementSelected : ∃ w w', started {} = .ok w ∧
    run (step trial) w selection = some w' ∧
    w'.tasks = [.returned .nothing] ∧ Replaced w' 0 (.selectProcessor "htdemucs-vocals") := by
  have harvestable : ∀ w, started {} = .ok w → Along (step trial) Harvestable w selection := by
    intro w start
    cases start
    refine alongCons rfl ?_ (alongCons rfl ?_ (alongCons rfl ?_ (alongCons rfl ?_ (alongCons rfl ?_
      (alongCons rfl ?_ (alongCons rfl ?_ alongNil))))))
    all_goals
      intro t swap r same found
      rfl
  refine ⟨_, _, rfl, rfl, rfl, ?_⟩
  exact (@replacementAtomic trial {} _ _ selection rfl rfl (harvestable _ rfl)).2.1 0 _ rfl rfl rfl

def failedSegment : List Event := [.datagram SegmentedInference.stereoSilence "a" 1, .worker,
  .worker, .inferenceEnds 0 (.raised "out of memory"), .call (.selectProcessor "null"), .resume 0,
  .resume 0]

set_option maxRecDepth 4000 in
theorem replacementLeaked : ∃ w w', started quickModel = .ok w ∧
    run (step trial) w failedSegment = some w' ∧
    w'.tasks = [.raised (.runtimeError "HTDemucs inference failed: out of memory")] ∧
    ⟨1, .start, .ends⟩ ∈ w'.history.calls ∧ ¬ Guarded w' 1 ∧
    ⟨1, .stop, .ends⟩ ∉ w'.history.calls := by
  refine ⟨_, _, rfl, rfl, rfl, ?_, fun guarded => ?_, ?_⟩
  · decide
  · rcases guarded with here | ⟨t, later⟩ | ⟨t, old⟩
    · cases here
    · cases t <;> cases later
    · cases t <;> cases old
  · decide

end Runs

end KaraokeAnything.Service
