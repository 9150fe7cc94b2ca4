import KaraokeAnything.ServiceSwap

/-! Runs of a started service, with any number of calls: what the chosen name says
about the installed processor, and the order of the calls each processor receives. -/
namespace KaraokeAnything.Service
open ByteOrder Config Kany Lifecycle Models Processors Python RuntimeSettings
open HotSwap (At State atAppend atAppendKept atFound atSetKept given)
open Mutex (Exclusive)
open Relation (ReflTransGen)
open Runs

section Started
variable {settings : Settings} {w : World}

theorem startedFresh (start : started settings = .ok w) : ∃ p,
    create settings settings.processor = .ok p ∧ w = fresh settings p := by
  unfold started at start
  cases created : create settings settings.processor with
  | error e =>
    rw [created] at start
    contradiction
  | ok p =>
    rw [created] at start
    cases start
    exact ⟨p, rfl, rfl⟩

theorem nobodyAt {α β : Type} {view : α → Option β} {t : Nat} {v : β} : ¬ At [] view t v := by
  simp [At]

theorem startedLinked (start : started settings = .ok w) : (skeleton w).Linked := by
  obtain ⟨p, created, rfl⟩ := startedFresh start
  have free (holder : State.Holder) : ¬ (skeleton (fresh settings p)).Holds holder := by
    cases holder with
    | worker => exact fun ⟨_, _, inside⟩ => by contradiction
    | client t => exact fun ⟨_, inside⟩ => nobodyAt inside
  exact {
    exclusive := ⟨⟨fun taken => by contradiction, fun ⟨holder, holds⟩ => absurd holds (free holder)⟩,
      fun a _ holds => absurd holds (free a)⟩
    installed := Nat.one_pos
    worker := fun _ _ inside => by contradiction
    pending := fun _ _ waits => absurd waits nobodyAt
    distinct := fun _ _ _ waits => absurd waits nobodyAt
    swapping := fun _ _ _ _ inside => absurd inside nobodyAt
    resetting := fun _ _ inside => absurd inside nobodyAt
    shutting := fun _ _ inside => absurd inside nobodyAt
    agrees := fun _ => (createName created).symm
    running := List.mem_cons_of_mem _ List.mem_cons_self
    ready := fun _ _ waits => absurd waits nobodyAt }

theorem startedNamed (start : started settings = .ok w) : Named w := by
  obtain ⟨p, created, rfl⟩ := startedFresh start
  exact ⟨fun t swap r busy => absurd busy nobodyAt, fun requested => by contradiction⟩

theorem startedOrdered (start : started settings = .ok w) :
    ∃ stage, (skeleton w).Ordered stage := by
  obtain ⟨p, created, rfl⟩ := startedFresh start
  have begun := stagedSnoc ⟨0, .start, .begins⟩ .starting (stagedNil (P := MediaPacket)) rfl
  have ready := stagedSnoc ⟨0, .start, .ends⟩ .ready begun (by simp [advance])
  rw [Function.update_idem] at ready
  exact ⟨_, {
    log := ready
    unborn := fun i later => Function.update_of_ne (Nat.ne_of_gt later) _ _
    starting := fun _ _ waits => absurd waits nobodyAt
    prepared := fun _ _ waits => absurd waits nobodyAt
    swapping := fun _ _ _ _ inside => absurd inside nobodyAt
    processing := fun _ _ inside => by contradiction
    resetting := fun _ _ inside => absurd inside nobodyAt
    resting := fun _ _ => Function.update_self _ _ _
    whole := rfl
    quiet := fun _ none => by contradiction }⟩

end Started

section Runs
variable {env : Environment} {settings : Settings} {w w' : World} {events : List Event}

theorem stepRequests {event : Event} (step : Step env w event w') :
    w'.history.requests = w.history.requests ++ event.request := by
  cases stepTurns step with
  | aside aside unasked => rw [aside.requests, unasked, List.append_nil]
  | arrives request frame comes arrived => exact arrived.requests
  | appliedLive => rfl
  | launches => rfl
  | moves t old new more goes moved =>
    rw [moved.requests]
    cases goes <;> exact (List.append_nil _).symm
  | enters t swap r entered => exact entered.requests.trans (List.append_nil _).symm
  | leaves t swap r target left => exact left.requests.trans (List.append_nil _).symm

theorem runRequests (ran : run (step env) w events = some w') :
    w'.history.requests = w.history.requests ++ events.flatMap Event.request := by
  induction events generalizing w with
  | nil =>
    cases ran
    simp
  | cons event rest ih =>
    obtain ⟨u, first, later⟩ := Option.bind_eq_some_iff.mp ran
    rw [ih later, stepRequests (stepCases first), List.flatMap_cons, List.append_assoc]

structure Sound (w : World) : Prop where
  named : Named w
  linked : (skeleton w).Linked

theorem startedSound (start : started settings = .ok w) : Sound w :=
  ⟨startedNamed start, startedLinked start⟩

theorem stepSound {event : Event} (sound : Sound w) (stepped : step env w event = some w') :
    Sound w' := by
  have cases_of := stepCases stepped
  exact ⟨stepNamed sound.named cases_of,
    State.movesLinked (stepMoves sound.named sound.linked cases_of) sound.linked⟩

theorem runSound (sound : Sound w) (ran : run (step env) w events = some w') : Sound w' :=
  runInvariant Sound sound (fun _ _ _ sound stepped => stepSound sound stepped) ran

structure Keeping (kept : Settings → Prop) (w : World) : Prop where
  settings : kept w.settings
  pending : ∀ t snapshot updates r,
    At w.tasks Frame.swapping t (.update snapshot updates, r) → kept snapshot

section Keeping
variable {kept : Settings → Prop}

theorem keepingSame (keeping : Keeping kept w) (settings : w'.settings = w.settings)
    (pending : ∀ t work, At w'.tasks Frame.swapping t work → At w.tasks Frame.swapping t work) :
    Keeping kept w' :=
  ⟨by rw [settings]; exact keeping.settings,
    fun t snapshot updates r inside => keeping.pending t snapshot updates r (pending t _ inside)⟩

theorem stepKeeping {event : Event}
    (replaces : ∀ s (value : (key : Field) → Option key.Value), kept s → kept (replace s value))
    (keeping : Keeping kept w) (step : Step env w event w') : Keeping kept w' := by
  cases stepTurns step with
  | aside aside unasked => exact keepingSame keeping aside.settings (by rw [aside.tasks]; simp)
  | arrives request frame comes arrived =>
    refine keepingSame keeping arrived.settings ?_
    rw [arrived.tasks]
    exact fun _ _ => atAppendKept (comesPlain comes)
  | appliedLive request updates rule brought valid found =>
    exact ⟨replaces _ _ keeping.settings, fun t snapshot updates r inside =>
      keeping.pending t snapshot updates r (atAppendKept rfl inside)⟩
  | launches request swap replacement brought created =>
    refine ⟨keeping.settings, fun t snapshot updates r inside => ?_⟩
    rcases atAppend.mp inside with ⟨_, new⟩ | old
    · cases new
      cases request <;> cases brought <;> exact keeping.settings
    · exact keeping.pending t snapshot updates r old
  | moves t old new more goes moved =>
    refine keepingSame keeping moved.settings ?_
    rw [moved.tasks]
    exact fun _ _ => atSetKept moved.found (goesSwapping goes)
  | enters t swap r entered =>
    refine ⟨?_, fun u snapshot updates q inside => ?_⟩
    · rw [entered.settings]
      cases swap with
      | select name => exact keeping.settings
      | update snapshot updates =>
        exact replaces _ _ (keeping.pending t snapshot updates r ((atFound entered.found).mpr rfl))
    · rw [entered.tasks] at inside
      have before := atSetKept entered.found
        (fun work (shown : some (swap, r) = some work) => shown) inside
      exact keeping.pending u snapshot updates q before
  | leaves t swap r target left =>
    refine ⟨?_, fun u snapshot updates q inside => ?_⟩
    · rw [left.settings]
      cases swap with
      | select name =>
        have chosen := replaces _ (Updates.single .processor name).value keeping.settings
        exact chosen
      | update snapshot updates => exact keeping.settings
    · rw [left.tasks] at inside
      exact keeping.pending u snapshot updates q
        (atSetKept left.found (fun _ none => by contradiction) inside)

end Keeping

def trial : Environment := ⟨.little, fun _ => false⟩

def selection : List Event := [.call (.selectProcessor "htdemucs-vocals"), .datagram [1] "a" 1,
  .worker, .worker, .resume 0, .resume 0, .resume 0]

def quickModel : Settings := { processor := "htdemucs-vocals", demucsSegmentSeconds := 0.00001 }

/- Replacements may wait, and several calls may race, but the lock is free only when
the chosen name and the installed processor agree. -/
theorem settingsNameInstalled (start : started settings = .ok w)
    (ran : run (step env) w events = some w') (free : w'.processorLock = false) :
    w'.settings.processor = (w'.heap w'.processor).name ∧
      ⟨w'.processor, .start, .ends⟩ ∈ w'.history.calls := by
  have linked := (runSound (startedSound start) ran).linked
  obtain ⟨_, nobody⟩ := State.freeInside linked free
  exact ⟨linked.agrees (fun t r target => nobody t _), linked.running⟩

theorem settingsNameSelected : ∃ w w', started {} = .ok w ∧
    run (step trial) w selection = some w' ∧
    w'.settings.processor = (w'.heap w'.processor).name ∧
      ⟨w'.processor, .start, .ends⟩ ∈ w'.history.calls :=
  ⟨_, _, rfl, rfl, @settingsNameInstalled trial {} _ _ selection rfl rfl rfl⟩

structure Tidy (w : World) : Prop where
  sound : Sound w
  ordered : (skeleton w).asked = false → ∃ stage, (skeleton w).Ordered stage

theorem stepTidy {event : Event} (tidy : Tidy w) (stepped : step env w event = some w') :
    Tidy w' := by
  have moves := stepMoves tidy.sound.named tidy.sound.linked (stepCases stepped)
  exact ⟨stepSound tidy.sound stepped, State.movesOrdered moves tidy.sound.linked tidy.ordered⟩

theorem lifecycleSafe (start : started settings = .ok w)
    (ran : run (step env) w events = some w') (unstopped : ∀ event ∈ events, event ≠ .call .stop) :
    (∀ target, ∃ stage, stageOf w'.history.calls target = some stage) ∧
      given w'.history.calls ++ w'.worker.plain.held = w'.history.taken := by
  have tidy : Tidy w' := by
    refine runInvariant Tidy ⟨startedSound start, fun _ => startedOrdered start⟩ ?_ ran
    exact fun _ _ _ tidy stepped => stepTidy tidy stepped
  have unasked : (skeleton w').asked = false := by
    obtain ⟨p, _, rfl⟩ := startedFresh start
    change w'.history.requests.any Request.stops = false
    rw [runRequests ran, List.any_append, List.any_flatMap]
    refine Bool.or_eq_false_iff.mpr ⟨rfl, List.any_eq_false.mpr fun event taken => ?_⟩
    have other := unstopped event taken
    cases event with
    | call request =>
      cases request with
      | stop => exact absurd rfl other
      | _ => simp [Event.request, Request.stops]
    | _ => simp [Event.request]
  obtain ⟨stage, ordered⟩ := tidy.ordered unasked
  exact ⟨fun target => ⟨stage target, ordered.log target⟩, ordered.whole⟩

theorem lifecycleSelected : ∃ w w', started {} = .ok w ∧
    run (step trial) w selection = some w' ∧
    (∀ target, ∃ stage, stageOf w'.history.calls target = some stage) ∧
      given w'.history.calls ++ w'.worker.plain.held = w'.history.taken :=
  ⟨_, _, rfl, rfl, @lifecycleSafe trial {} _ _ selection rfl rfl (by simp [selection])⟩

end Runs

end KaraokeAnything.Service
