import KaraokeAnything.ServiceRuns

/-! The control calls of the service, each with the request it answers: which of them
are over, and what each may set. -/
namespace KaraokeAnything.Service
open ByteOrder Config Kany Lifecycle Models Processors Python RuntimeSettings
open HotSwap (At atAppend atSetKept)
open Processor (Progress)
open Runs

section Frames
variable {w : World}

def Frame.complete : Frame → Bool
  | .returned _ | .raised _ => true
  | _ => false

def Frame.busy (frame : Frame) : Option Unit := if frame.complete then none else some ()

def Frame.plain : Frame → Option Unit
  | .joining => some ()
  | .acquiring .reset | .acquiring .shutdown => some ()
  | .finishing .reset _ | .finishing .shutdown _ => some ()
  | _ => none

def Quiescent (w : World) : Prop := ∀ frame ∈ w.tasks, frame.complete = true

theorem quiescentHides {β : Type} {view : Frame → Option β} (quiescent : Quiescent w)
    (hidden : ∀ frame, frame.complete = true → view frame = none) (t : Nat) (v : β) :
    ¬ At w.tasks view t v := by
  intro shown
  obtain ⟨frame, found, shown⟩ := Option.bind_eq_some_iff.mp shown
  rw [hidden frame (quiescent frame (List.mem_of_getElem? found))] at shown
  contradiction

theorem quiescentIdle (quiescent : Quiescent w) (t : Nat) : ¬ At w.tasks Frame.busy t () :=
  quiescentHides quiescent (fun _ complete => by rw [Frame.busy, if_pos complete]) t ()

theorem swappingBusy {t : Nat} {work : Swap × Nat} (swapping : At w.tasks Frame.swapping t work) :
    At w.tasks Frame.busy t () := by
  obtain ⟨frame, found, shown⟩ := Option.bind_eq_some_iff.mp swapping
  refine Option.bind_eq_some_iff.mpr ⟨frame, found, ?_⟩
  cases frame <;> first | rfl | contradiction

end Frames

section Patches

def Request.patch (startup : Settings) : Request → (key : Field) → Option key.Value
  | .selectProcessor name => (Updates.single .processor name).value
  | .updateRuntimeSettings updates => updates.value
  | .restoreStartupSettings => (startupUpdates startup).value
  | .resetProcessor | .stop => fun _ => none

def Swap.patch : Swap → (key : Field) → Option key.Value
  | .select name => (Updates.single .processor name).value
  | .update _ updates => updates.value

def Swap.Answers (w : World) : Swap → Request → Prop
  | .select name, request => request = .selectProcessor name
  | .update _ updates, request => request.updates w = some updates

variable {w w' : World} {request : Request} {swap : Swap}

theorem updatesPatch {updates : Updates} (brought : request.updates w = some updates) :
    request.patch w.startupSettings = updates.value := by
  cases request <;> cases brought <;> rfl

theorem answersPatch (answers : swap.Answers w request) :
    swap.patch = request.patch w.startupSettings := by
  cases swap with
  | select name => cases answers; rfl
  | update snapshot updates => exact (updatesPatch answers).symm

theorem plainPatch (bare : request.swap w = none) (startup : Settings) :
    request.patch startup = fun _ => none := by
  cases request <;> first | contradiction | rfl

theorem broughtAnswers (brought : request.swap w = some swap) : swap.Answers w request := by
  cases request <;> cases brought <;> rfl

theorem answersKept (same : w'.startupSettings = w.startupSettings)
    (answers : swap.Answers w request) : swap.Answers w' request := by
  cases swap with
  | select name => exact answers
  | update snapshot updates =>
    cases request <;> simpa only [Swap.Answers, Request.updates, same] using answers

end Patches

section Served
variable {env : Environment} {w w' : World}

structure Served (w : World) : Prop where
  count : w.tasks.length = w.history.requests.length
  swaps : ∀ t swap r request, At w.tasks Frame.swapping t (swap, r) →
    w.history.requests[t]? = some request → swap.Answers w request
  plain : ∀ t request, At w.tasks Frame.plain t () → w.history.requests[t]? = some request →
    request.swap w = none

theorem requestFound {t : Nat} {frame : Frame} (served : Served w)
    (found : w.tasks[t]? = some frame) : ∃ request, w.history.requests[t]? = some request := by
  have below : t < w.history.requests.length :=
    served.count ▸ (List.getElem?_eq_some_iff.mp found).1
  exact ⟨_, List.getElem?_eq_getElem below⟩

theorem appendAsked {β : Type} {frame : Frame} {request other : Request} {view : Frame → Option β}
    {u : Nat} {v : β} (served : Served w) (shown : At (w.tasks ++ [frame]) view u v)
    (asked : (w.history.requests ++ [request])[u]? = some other) :
    (At w.tasks view u v ∧ w.history.requests[u]? = some other) ∨
      (u = w.tasks.length ∧ view frame = some v ∧ other = request) := by
  rcases atAppend.mp shown with ⟨last, shown⟩ | before
  · refine .inr ⟨last, shown, ?_⟩
    rw [last, served.count, List.getElem?_concat_length] at asked
    exact (Option.some.inj asked).symm
  · obtain ⟨present, found, _⟩ := Option.bind_eq_some_iff.mp before
    have below : u < w.history.requests.length :=
      served.count ▸ (List.getElem?_eq_some_iff.mp found).1
    rw [List.getElem?_append_left below] at asked
    exact .inl ⟨before, asked⟩

theorem planless {request : Request} (bare : request.swap w = none) : request.swap w' = none := by
  cases request <;> first | contradiction | rfl

theorem sameServed (served : Served w) (same : w'.startupSettings = w.startupSettings)
    (tasks : w'.tasks = w.tasks) (requests : w'.history.requests = w.history.requests) :
    Served w' := by
  obtain ⟨count, swaps, plain⟩ := served
  rw [← tasks, ← requests] at count swaps plain
  exact ⟨count, fun t swap r request shown asks => answersKept same (swaps t swap r request shown asks),
    fun t request shown asks => planless (plain t request shown asks)⟩

theorem frameServed {t : Nat} {old new : Frame} (served : Served w)
    (found : w.tasks[t]? = some old)
    (swapping : ∀ work, new.swapping = some work → old.swapping = some work)
    (plain : new.plain = some () → old.plain = some ())
    (same : w'.startupSettings = w.startupSettings) (tasks : w'.tasks = w.tasks.set t new)
    (requests : w'.history.requests = w.history.requests) : Served w' := by
  refine ⟨?_, ?_, ?_⟩
  · rw [tasks, requests, List.length_set, served.count]
  · rw [tasks, requests]
    exact fun u swap r request shown asks =>
      answersKept same (served.swaps u swap r request (atSetKept found swapping shown) asks)
  · rw [tasks, requests]
    exact fun u request shown asks =>
      planless (served.plain u request (atSetKept found (fun _ => plain) shown) asks)

theorem callServed {frame : Frame} {request : Request} (served : Served w)
    (swapping : ∀ swap r, frame.swapping = some (swap, r) → swap.Answers w request)
    (plain : frame.plain = some () → request.swap w = none)
    (same : w'.startupSettings = w.startupSettings) (tasks : w'.tasks = w.tasks ++ [frame])
    (requests : w'.history.requests = w.history.requests ++ [request]) : Served w' := by
  refine ⟨?_, ?_, ?_⟩
  · rw [tasks, requests, List.length_append, List.length_append, served.count]
    rfl
  · rw [tasks, requests]
    intro u swap r other shown asks
    rcases appendAsked served shown asks with ⟨before, asks⟩ | ⟨_, new, rfl⟩
    · exact answersKept same (served.swaps u swap r other before asks)
    · exact answersKept same (swapping swap r new)
  · rw [tasks, requests]
    intro u other shown asks
    rcases appendAsked served shown asks with ⟨before, asks⟩ | ⟨_, new, rfl⟩
    · exact planless (served.plain u other before asks)
    · exact planless (plain new)

theorem goesPlain {t : Nat} {event : Event} {old new : Frame} {more : List (Call MediaPacket)}
    (goes : Goes w t event old new more) (plain : new.plain = some ()) : old.plain = some () := by
  cases goes <;> first | exact plain | rfl | contradiction

theorem goesBusy {t : Nat} {event : Event} {old new : Frame} {more : List (Call MediaPacket)}
    (goes : Goes w t event old new more) : old.busy = some () := by
  cases goes <;> rfl

theorem stepServed {event : Event} (served : Served w) (step : Step env w event w') :
    Served w' := by
  cases stepTurns step with
  | aside aside => exact sameServed served aside.startup aside.tasks aside.requests
  | arrives request frame comes arrived =>
    refine callServed served (fun swap r busy => ?_) (fun plain => ?_) arrived.startup arrived.tasks
      arrived.requests
    · rw [comesPlain comes] at busy
      contradiction
    · cases comes <;> first | rfl | contradiction
  | appliedLive request updates rule brought valid found =>
    exact callServed served (fun _ _ none => by contradiction) (fun none => by contradiction)
      rfl rfl rfl
  | launches request swap replacement brought created =>
    refine callServed served (fun other r same => ?_) (fun none => by contradiction) rfl rfl rfl
    cases same
    exact broughtAnswers brought
  | moves t old new more goes moved =>
    exact frameServed served moved.found (goesSwapping goes) (goesPlain goes) moved.startup
      moved.tasks moved.requests
  | enters t swap r entered =>
    have waits (work : Swap × Nat)
        (same : Frame.swapping (.finishing (.swap swap r) w.processor) = some work) :
        Frame.swapping (.acquiring (.swap swap r)) = some work := same
    exact frameServed served entered.found waits (fun none => by contradiction) entered.startup
      entered.tasks entered.requests
  | leaves t swap r target left =>
    exact frameServed served left.found (fun _ none => by contradiction)
      (fun none => by contradiction) left.startup left.tasks left.requests

theorem startedServed {settings : Settings} (start : started settings = .ok w) : Served w := by
  obtain ⟨p, _, rfl⟩ := startedFresh start
  exact ⟨rfl, fun t swap r request shown => absurd shown nobodyAt,
    fun t request shown => absurd shown nobodyAt⟩

theorem runServed {settings : Settings} {events : List Event} (start : started settings = .ok w)
    (ran : run (step env) w events = some w') : Served w' :=
  runInvariant Served (startedServed start)
    (fun _ _ _ served stepped => stepServed served (stepCases stepped)) ran

theorem stepStartup {event : Event} (step : Step env w event w') :
    w'.startupSettings = w.startupSettings := by
  cases stepTurns step with
  | aside aside => exact aside.startup
  | arrives request frame comes arrived => exact arrived.startup
  | appliedLive => rfl
  | launches => rfl
  | moves t old new more goes moved => exact moved.startup
  | enters t swap r entered => exact entered.startup
  | leaves t swap r target left => exact left.startup

theorem runStartup {events : List Event} (ran : run (step env) w events = some w') :
    w'.startupSettings = w.startupSettings :=
  runInvariant (fun u => u.startupSettings = w.startupSettings) rfl
    (fun _ _ _ same stepped => (stepStartup (stepCases stepped)).trans same) ran

end Served

end KaraokeAnything.Service
