import KaraokeAnything.ServiceCalls

/-! Concurrent requests for different settings. An update writes back the whole record
it computed before it waited for its replacement, so what others wrote since is lost
unless the settings are still the ones it found. -/
namespace KaraokeAnything.Service
open ByteOrder Config Kany Lifecycle Models Processors Python RuntimeSettings
open HotSwap (At atAppend atFound atSet atSetKept)
open Processor (Progress)
open Runs

section Patches

def Request.Disjoint (startup : Settings) (a b : Request) : Prop :=
  ∀ key, a.patch startup key = none ∨ b.patch startup key = none

theorem disjointSymm {startup : Settings} {a b : Request} (apart : a.Disjoint startup b) :
    b.Disjoint startup a := fun key => (apart key).symm

def SnapshotCurrent (w : World) (event : Event) : Prop :=
  ∀ t snapshot updates r, event = .resume t →
    w.tasks[t]? = some (.acquiring (.swap (.update snapshot updates) r)) → w.settings = snapshot

theorem selectWrites (s : Settings) (name : String) (key : Field) :
    get { s with processor := name } key =
      ((Updates.single .processor name).value key).getD (get s key) := by
  cases key <;> rfl

end Patches

section Frames

def Frame.written : Frame → Option Unit
  | .finishing (.swap (.update _ _) _) _ => some ()
  | .returned _ => some ()
  | _ => none

structure Kept (n : Nat) (w : World) : Prop where
  base : n ≤ w.tasks.length
  recent : ∀ t, At w.tasks Frame.busy t () → n ≤ t
  apart : ∀ t u a b, n ≤ t → n ≤ u → t ≠ u → w.history.requests[t]? = some a →
    w.history.requests[u]? = some b → a.Disjoint w.startupSettings b
  written : ∀ t request key value, n ≤ t → At w.tasks Frame.written t () →
    w.history.requests[t]? = some request → request.patch w.startupSettings key = some value →
    get w.settings key = value

end Frames

section Kept
variable {env : Environment} {n : Nat} {w w' : World}

theorem sameKept (kept : Kept n w) (same : w'.startupSettings = w.startupSettings)
    (settings : w'.settings = w.settings) (tasks : w'.tasks = w.tasks)
    (requests : w'.history.requests = w.history.requests) : Kept n w' := by
  obtain ⟨base, recent, apart, written⟩ := kept
  rw [← tasks] at base recent written
  rw [← requests, ← same] at apart written
  rw [← settings] at written
  exact ⟨base, recent, apart, written⟩

theorem frameKept {t : Nat} {old new : Frame} {request : Request} (kept : Kept n w)
    (found : w.tasks[t]? = some old) (busy : old.busy = some ())
    (asks : w.history.requests[t]? = some request)
    (others : ∀ key, request.patch w.startupSettings key = none →
      get w'.settings key = get w.settings key)
    (own : new.written = some () → ∀ key value, request.patch w.startupSettings key = some value →
      get w'.settings key = value)
    (same : w'.startupSettings = w.startupSettings) (tasks : w'.tasks = w.tasks.set t new)
    (requests : w'.history.requests = w.history.requests) : Kept n w' := by
  have late : n ≤ t := kept.recent t ((atFound found).mpr busy)
  refine ⟨?_, ?_, ?_, ?_⟩
  · rw [tasks, List.length_set]
    exact kept.base
  · rw [tasks]
    exact fun u shown => kept.recent u (atSetKept found (fun _ _ => busy) shown)
  · rw [requests, same]
    exact kept.apart
  · rw [tasks, requests, same]
    intro u other key value later shown asked set
    rcases (atSet found).mp shown with ⟨here, writes⟩ | ⟨apart, before⟩
    · rw [here, asks] at asked
      cases asked
      exact own writes key value set
    · have unset : request.patch w.startupSettings key = none := by
        rcases kept.apart u t other request later late apart asked asks key with none | none
        · rw [none] at set
          contradiction
        · exact none
      rw [others key unset]
      exact kept.written u other key value later before asked set

def Apart (n : Nat) (w : World) (event : Event) : Prop :=
  ∀ request, event = .call request → ∀ t a, n ≤ t → w.history.requests[t]? = some a →
    a.Disjoint w.startupSettings request

theorem callKept {frame : Frame} {request : Request} (served : Served w) (kept : Kept n w)
    (fresh : ∀ t a, n ≤ t → w.history.requests[t]? = some a → a.Disjoint w.startupSettings request)
    (others : ∀ key, request.patch w.startupSettings key = none →
      get w'.settings key = get w.settings key)
    (own : frame.written = some () → ∀ key value, request.patch w.startupSettings key = some value →
      get w'.settings key = value)
    (same : w'.startupSettings = w.startupSettings) (tasks : w'.tasks = w.tasks ++ [frame])
    (requests : w'.history.requests = w.history.requests ++ [request]) : Kept n w' := by
  have base := kept.base
  refine ⟨?_, ?_, ?_, ?_⟩
  · rw [tasks, List.length_append]
    omega
  · rw [tasks]
    intro u shown
    rcases atAppend.mp shown with ⟨last, _⟩ | before
    · exact last ▸ base
    · exact kept.recent u before
  · rw [requests, same]
    intro t u a b later after other left right
    rcases foundSnoc left with before | ⟨last, rfl⟩
    · rcases foundSnoc right with earlier | ⟨_, rfl⟩
      · exact kept.apart t u a b later after other before earlier
      · exact fresh t a later before
    · rcases foundSnoc right with earlier | ⟨also, _⟩
      · exact disjointSymm (fresh u b after earlier)
      · exact absurd (last.trans also.symm) other
  · rw [tasks, requests, same]
    intro u other key value later shown asked set
    rcases appendAsked served shown asked with ⟨before, asked⟩ | ⟨_, new, rfl⟩
    · have unset : request.patch w.startupSettings key = none := by
        rcases fresh u other later asked key with none | none
        · rw [none] at set
          contradiction
        · exact none
      rw [others key unset]
      exact kept.written u other key value later before asked set
    · exact own new key value set

theorem silentKept {t : Nat} {old new : Frame} (served : Served w) (kept : Kept n w)
    (found : w.tasks[t]? = some old) (busy : old.busy = some ())
    (written : new.written = some () → old.written = some () ∨ old.plain = some ())
    (settings : w'.settings = w.settings) (same : w'.startupSettings = w.startupSettings)
    (tasks : w'.tasks = w.tasks.set t new)
    (requests : w'.history.requests = w.history.requests) : Kept n w' := by
  obtain ⟨request, asks⟩ := requestFound served found
  refine frameKept kept found busy asks (fun key _ => by rw [settings]) ?_ same tasks requests
  intro writes key value set
  rcases written writes with before | plain
  · rw [settings]
    have late := kept.recent t ((atFound found).mpr busy)
    exact kept.written t request key value late ((atFound found).mpr before) asks set
  · have bare := served.plain t request ((atFound found).mpr plain) asks
    rw [plainPatch bare] at set
    contradiction

theorem stepKept {event : Event} (served : Served w) (kept : Kept n w)
    (current : SnapshotCurrent w event) (apart : Apart n w event) (step : Step env w event w') :
    Kept n w' := by
  cases stepTurns step with
  | aside aside => exact sameKept kept aside.startup aside.settings aside.tasks aside.requests
  | arrives request frame comes arrived =>
    refine callKept served kept (apart request rfl) (fun _ _ => by rw [arrived.settings])
      (fun written key value set => ?_) arrived.startup arrived.tasks arrived.requests
    cases comes <;> contradiction
  | appliedLive request updates rule brought valid found =>
    have patch := updatesPatch brought
    refine callKept served kept (apart request rfl) (fun key unset => ?_) (fun _ key value set => ?_)
      rfl rfl rfl
    · rw [patch] at unset
      simp only [applyLive, Swap.candidate, getReplace, unset, Option.getD_none]
    · rw [patch] at set
      simp only [applyLive, Swap.candidate, getReplace, set, Option.getD_some]
  | launches request swap replacement brought created =>
    exact callKept served kept (apart request rfl) (fun _ _ => rfl) (fun none => by contradiction)
      rfl rfl rfl
  | moves t old new more goes moved =>
    refine silentKept served kept moved.found (goesBusy goes) (fun written => ?_) moved.settings
      moved.startup moved.tasks moved.requests
    cases goes <;> first | exact .inr rfl | contradiction
  | enters t swap r entered =>
    cases swap with
    | select name =>
      exact silentKept served kept entered.found rfl (fun none => by contradiction)
        entered.settings entered.startup entered.tasks entered.requests
    | update snapshot updates =>
      obtain ⟨request, asks⟩ := requestFound served entered.found
      have patch : updates.value = request.patch w.startupSettings :=
        answersPatch (served.swaps t _ r request ((atFound entered.found).mpr rfl) asks)
      have unchanged := current t snapshot updates r rfl entered.found
      refine frameKept kept entered.found rfl asks (fun key unset => ?_) (fun _ key value set => ?_)
        entered.startup entered.tasks entered.requests
      · rw [← patch] at unset
        simp only [entered.settings, install, Swap.candidate, getReplace, unset, Option.getD_none,
          unchanged]
      · rw [← patch] at set
        simp only [entered.settings, install, Swap.candidate, getReplace, set, Option.getD_some]
  | leaves t swap r target left =>
    cases swap with
    | update snapshot updates =>
      exact silentKept served kept left.found rfl (fun _ => .inl rfl) left.settings left.startup
        left.tasks left.requests
    | select name =>
      obtain ⟨request, asks⟩ := requestFound served left.found
      have patch : (Updates.single .processor name).value = request.patch w.startupSettings :=
        answersPatch (served.swaps t _ r request ((atFound left.found).mpr rfl) asks)
      refine frameKept kept left.found rfl asks (fun key unset => ?_) (fun _ key value set => ?_)
        left.startup left.tasks left.requests
      · rw [← patch] at unset
        simp only [left.settings, Swap.settled, selectWrites, unset, Option.getD_none]
      · rw [← patch] at set
        simp only [left.settings, Swap.settled, selectWrites, set, Option.getD_some]

end Kept

section Runs
variable {env : Environment} {settings : Settings} {first w w' : World} {earlier events : List Event}

theorem requestsApart (disjoint : (events.flatMap Event.request).Pairwise
      (Request.Disjoint w.startupSettings)) :
    Along (step env) (Apart w.history.requests.length) w events := by
  intro before event u cut reached request same t a late found
  obtain ⟨rest, rfl⟩ := cut
  subst same
  rw [runRequests reached, List.getElem?_append_right late] at found
  rw [List.flatMap_append, List.flatMap_append, List.append_assoc] at disjoint
  rw [runStartup reached]
  exact (List.pairwise_append.mp disjoint).2.2 a (List.mem_of_getElem? found) request
    (List.mem_append_left _ List.mem_cons_self)

theorem quiescentKept (served : Served w) (quiescent : Quiescent w) :
    Kept w.history.requests.length w := by
  have none {t : Nat} {request : Request} (late : w.history.requests.length ≤ t)
      (found : w.history.requests[t]? = some request) : False := by
    rw [List.getElem?_eq_none late] at found
    contradiction
  exact ⟨served.count ▸ Nat.le_refl _, fun t shown => absurd shown (quiescentIdle quiescent t),
    fun t u a b late _ _ found => (none late found).elim,
    fun t request key value late _ found => (none late found).elim⟩

theorem updatesKept (start : started settings = .ok first)
    (before : run (step env) first earlier = some w) (quiescent : Quiescent w)
    (ran : run (step env) w events = some w') (current : Along (step env) SnapshotCurrent w events)
    (disjoint : (events.flatMap Event.request).Pairwise (Request.Disjoint w.startupSettings))
    {i : Nat} {request : Request} {reply : Reply}
    (asks : (events.flatMap Event.request)[i]? = some request)
    (returned : w'.tasks[w.tasks.length + i]? = some (.returned reply)) (key : Field)
    (value : key.Value) (set : request.patch w.startupSettings key = some value) :
    get w'.settings key = value := by
  have served := runServed start before
  have kept : Served w' ∧ Kept w.history.requests.length w' := by
    refine runInvariantAlong (fun u => Served u ∧ Kept w.history.requests.length u)
      ⟨served, quiescentKept served quiescent⟩ (fun u event v holds condition stepped => ?_)
      (alongBoth current (requestsApart disjoint)) ran
    have cases_of := stepCases stepped
    exact ⟨stepServed holds.1 cases_of,
      stepKept holds.1 holds.2 condition.1 condition.2 cases_of⟩
  have count := served.count
  refine kept.2.written (w.tasks.length + i) request key value (by omega)
    ((atFound returned).mpr rfl) ?_ (runStartup ran ▸ set)
  rw [runRequests ran, count, List.getElem?_append_right (Nat.le_add_right _ _),
    Nat.add_sub_cancel_left, asks]

/- Two calls: while `slow` loads a model in `replacement.start()`, `quick`, which waits for
nothing, runs from end to end. -/
def race (slow quick : Request) : List Event :=
  [.call slow, .call quick, .resume 1, .resume 1, .resume 1, .resume 0, .resume 0, .resume 0]

def retarget : Request := .updateRuntimeSettings (Updates.single .demucsDevice ("cpu" : String))

theorem retargetApart (startup : Settings) (name : String) :
    (Request.selectProcessor name).Disjoint startup retarget := by
  intro key
  cases key <;> first | exact .inl rfl | exact .inr rfl

theorem updatesKeptSelected : ∃ w w', started {} = .ok w ∧
    run (step trial) w (race (.selectProcessor "htdemucs-vocals") retarget) = some w' ∧
    get w'.settings .processor = "htdemucs-vocals" ∧ get w'.settings .demucsDevice = "cpu" := by
  have current (w : World) : started {} = .ok w → Along (step trial) SnapshotCurrent w
      (race (.selectProcessor "htdemucs-vocals") retarget) := by
    rintro ⟨⟩
    refine alongCons rfl ?_ (alongCons rfl ?_ (alongCons rfl ?_ (alongCons rfl ?_ (alongCons rfl ?_
      (alongCons rfl ?_ (alongCons rfl ?_ (alongCons rfl ?_ alongNil)))))))
    all_goals
      intro t snapshot updates r same found
      cases same
    all_goals
      cases found
    rfl
  have apart (w : World) : ((race (.selectProcessor "htdemucs-vocals") retarget).flatMap
      Event.request).Pairwise (Request.Disjoint w.startupSettings) :=
    List.pairwise_pair.mpr (retargetApart _ _)
  have quiescent : Quiescent (fresh {} .passthrough) := fun frame none => absurd none List.not_mem_nil
  refine ⟨_, _, rfl, rfl, ?_, ?_⟩
  · exact @updatesKept trial {} _ _ _ [] _ rfl rfl quiescent rfl (current _ rfl) (apart _) 0 _
      .nothing rfl rfl .processor "htdemucs-vocals" rfl
  · exact @updatesKept trial {} _ _ _ [] _ rfl rfl quiescent rfl (current _ rfl) (apart _) 1 _
      (.applied true "immediately") rfl rfl .demucsDevice "cpu" rfl

/- The model is loaded anew for another device, and `null` is selected meanwhile: the update
brings the processor of its snapshot back. -/
theorem selectionLost : ∃ w w', started { processor := "htdemucs-vocals" } = .ok w ∧ Quiescent w ∧
    run (step trial) w (race retarget (.selectProcessor "null")) = some w' ∧
    ((race retarget (.selectProcessor "null")).flatMap Event.request).Pairwise
      (Request.Disjoint w.startupSettings) ∧
    w'.tasks = [.returned (.applied true "immediately"), .returned .nothing] ∧
    get w'.settings .processor ≠ "null" := by
  refine ⟨_, _, rfl, fun frame none => absurd none List.not_mem_nil, rfl, ?_, rfl, ?_⟩
  · exact List.pairwise_pair.mpr (disjointSymm (retargetApart _ _))
  · exact (by decide : "htdemucs-vocals" ≠ "null")

end Runs

end KaraokeAnything.Service
