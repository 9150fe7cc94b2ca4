import KaraokeAnything.ApiSettings
import KaraokeAnything.Library.Binary64
import KaraokeAnything.ServiceAlone
import KaraokeAnything.Tuning

/-! `PATCH /api/settings` on a running service: what a request that was applied has
changed, what it says of the processor, and which requests change nothing. -/
namespace KaraokeAnything.Api
open Config Overlay Processors Python RuntimeSettings Service
open Binary64 (beqNumber beqSelf leNumber ltNumber)
open Runs

section Handler

structure Shown where
  settings : Snapshot
  startupDefaults : Snapshot

def runtimeSettings (w : World) : Shown :=
  ⟨settingsSnapshot w.settings, settingsSnapshot w.startupSettings⟩

structure Answer where
  status : String
  processorRestarted : Bool
  appliesFrom : Option String
  settings : Shown

def unchanged (w : World) : Answer := ⟨"unchanged", false, none, runtimeSettings w⟩

inductive Response where
  | answer (answer : Answer)
  | httpException (statusCode : Nat) (detail : String)
  | unhandled (error : PyError)

/- `_apply_settings` up to its await: the answer where nothing in the payload differs, or
else the update that it awaits. What follows the await is `applied`. -/
def applySettings (w : World) (payload : RuntimeSettingsUpdate) : Answer ⊕ Updates :=
  let updates := flattenUpdates payload w.settings
  if updates.keys.isEmpty then .inl (unchanged w) else .inr updates

def applied (w : World) : Frame → Option Response
  | .returned (.applied restarted appliesFrom) =>
    some (.answer ⟨"applied", restarted, some appliesFrom, runtimeSettings w⟩)
  | .raised (.valueError message) => some (.httpException 400 message)
  | .raised (.runtimeError message) => some (.httpException 400 message)
  | .raised error => some (.unhandled error)
  | _ => none

inductive Applies (env : Environment) (w : World) (payload : RuntimeSettingsUpdate) :
    Answer → World → Prop where
  | atOnce (answer : Answer) (answers : applySettings w payload = .inl answer) :
    Applies env w payload answer w
  | awaited (updates : Updates) (awaits : applySettings w payload = .inr updates)
    (events : List Event) (x : World)
    (unasked : Along (step env) Unasked (call w (.updateRuntimeSettings updates)) events)
    (ran : run (step env) (call w (.updateRuntimeSettings updates)) events = some x)
    (frame : Frame) (ends : x.tasks[w.tasks.length]? = some frame)
    (answer : Answer) (answers : applied x frame = some (.answer answer)) :
    Applies env w payload answer x

end Handler

section Behaviour

def differing (payload : RuntimeSettingsUpdate) (s : Settings) : List Field :=
  Field.all.filter (fun key => (news same payload.field (get s) key).isSome)

def liveReduction : Processor → Option Field
  | .centreReduction _ => some .centreReduction
  | .htdemucs _ => some .demucsVocalReduction
  | .convTasNet _ => some .convtasnetVocalReduction
  | .mdx23c _ => some .mdx23cVocalReduction
  | .passthrough | .delayPassthrough _ | .null => none

def LiveOnly (payload : RuntimeSettingsUpdate) (w : World) : Prop :=
  differing payload w.settings = [] ∨
    ∃ key, liveReduction (w.heap w.processor) = some key ∧ differing payload w.settings = [key]

structure WellBehaved (verdict : Verdict) (w x : World) (payload : RuntimeSettingsUpdate)
    (answer : Answer) : Prop where
  sets : ∀ key value, payload.field key = some value →
    ∃ shown, (runtimeSettings x).settings.shows key = some ⟨key.kind, shown⟩ ∧
      same key value shown = true
  others : ∀ key, payload.field key = none →
    (runtimeSettings x).settings.shows key = (runtimeSettings w).settings.shows key
  elsewhere : SameElsewhere w.settings x.settings
  startup : x.startupSettings = w.startupSettings
  again : applySettings x payload = .inl (unchanged x)
  itself : ∀ whole, RuntimeSettingsUpdate.read verdict (runtimeSettings x).settings = some whole →
    applySettings x whole = .inl (unchanged x)
  kept : x.processor = w.processor ↔ LiveOnly payload w
  told : answer.processorRestarted = false ↔ LiveOnly payload w

end Behaviour

section Numbers

def number : (kind : Kind) → kind.Value → Bool
  | .real, value => !Float.isNaN value
  | _, _ => true

def AllNumbers (s : Settings) : Prop := ∀ key, number key.kind (get s key) = true

theorem equalItself (kind : Kind) (value : kind.Value) : equal kind value value = number kind value := by
  cases kind with
  | text => exact beq_self_eq_true (α := String) value
  | real => exact beqSelf value
  | whole => exact beq_self_eq_true (α := Int) value

theorem sameItself (key : Field) (value : key.Value) : same key value value = number key.kind value :=
  equalItself key.kind value

theorem numberAbove {x : Float} (less : 0 < x) : number .real x = true := by
  rw [number, (ltNumber less).2]
  rfl

theorem numberBetween {x : Float} {upper : Prop} (bounds : 0 ≤ x ∧ upper) : number .real x = true := by
  rw [number, (leNumber bounds.1).2]
  rfl

theorem numberEqual {x y : Float} (equal : (y == x) = true) : number .real x = true := by
  rw [number, (beqNumber equal).2]
  rfl

/- Each check compares its field with a bound, and nothing compares to a float that is no
number: a settings record that validates has none. -/
theorem validNumbers {s : Settings} (valid : validateRuntimeSettings s = .ok ()) : AllNumbers s := by
  obtain ⟨demucs, tasnet, mdx, centre⟩ := validChecks valid
  have demucs := raiseFirstFailureOk.mp demucs
  have tasnet := raiseFirstFailureOk.mp tasnet
  have mdx := raiseFirstFailureOk.mp mdx
  simp only [List.mem_cons, List.not_mem_nil, or_false, forall_eq_or_imp, forall_eq,
    decide_eq_true_eq] at demucs tasnet mdx
  intro key
  cases key with
  | demucsSegmentSeconds => exact numberAbove demucs.2.1
  | demucsOverlap => exact numberBetween demucs.2.2.1
  | demucsVocalReduction => exact numberBetween demucs.2.2.2.2
  | convtasnetSegmentSeconds => exact numberAbove tasnet.2.1
  | convtasnetVocalReduction => exact numberBetween tasnet.2.2.1
  | mdx23cSegmentSeconds =>
    obtain ⟨_, _, supported⟩ := List.any_eq_true.mp mdx.1
    exact numberEqual supported
  | mdx23cOverlap => exact numberBetween mdx.2.1
  | mdx23cVocalReduction => exact numberBetween mdx.2.2.2.1
  | centreReduction => exact numberBetween centre
  | _ => rfl

end Numbers

section Requests
variable {payload : RuntimeSettingsUpdate} {s : Settings} {w x : World} {p : Processor}

theorem differingNone : differing payload s = [] ↔ ∀ key, news same payload.field (get s) key = none := by
  rw [differing, List.filter_eq_nil_iff]
  refine ⟨fun none key => ?_, fun none key _ => by rw [none key]; nofun⟩
  simpa using none key (Field.memAll key)

theorem differingKeys (payload : RuntimeSettingsUpdate) (s : Settings) :
    (flattenUpdates payload s).keys = differing payload s := by
  rw [Updates.keys, differing]
  exact congrArg (fun test => Field.all.filter test) (funext fun key => by rw [flattenValue])

theorem unchangedExactly :
    applySettings w payload = .inl (unchanged w) ↔ differing payload w.settings = [] := by
  simp only [applySettings, differingKeys]
  cases differing payload w.settings <;> simp

theorem candidateGet (key : Field) : get (Swap.candidate s (flattenUpdates payload s)) key =
    overlay (get s) (news same payload.field (get s)) key := by
  rw [Swap.candidate, getReplace, flattenValue]
  rfl

theorem ruleFound (key : Field) (p : Processor) :
    (liveApplyRules.find? (·.matches key p)).isSome = decide (liveReduction p = some key) := by
  cases p <;> cases key <;> rfl

theorem liveExactly {updates : Updates} (known : updates.unknown = []) :
    (findLiveApplyRule updates p).isSome = true ↔
      ∃ key, liveReduction p = some key ∧ updates.keys = [key] := by
  rw [findLiveApplyRule, known]
  cases updates.keys with
  | nil => simp
  | cons key rest =>
    cases rest with
    | nil =>
      rw [ruleFound, decide_eq_true_eq]
      refine ⟨fun takes => ⟨key, takes, rfl⟩, fun ⟨other, takes, same⟩ => ?_⟩
      rw [takes, List.head_eq_of_cons_eq same]
    | cons second rest => simp

theorem itselfUnchanged {verdict : Verdict} (numbers : AllNumbers w.settings)
    {whole : RuntimeSettingsUpdate}
    (reads : RuntimeSettingsUpdate.read verdict (runtimeSettings w).settings = some whole) :
    applySettings w whole = .inl (unchanged w) := by
  refine unchangedExactly.mpr (differingNone.mpr (fun key => ?_))
  exact (newsItself (settingsRead reads key)).mpr ((sameItself ..).trans (numbers key))

theorem itselfExactly (verdict : Verdict) (w : World) :
    (∀ whole, RuntimeSettingsUpdate.read verdict (runtimeSettings w).settings = some whole →
      applySettings w whole = .inl (unchanged w)) ↔
    RuntimeSettingsUpdate.read verdict (runtimeSettings w).settings = none ∨ AllNumbers w.settings := by
  constructor
  · intro all
    cases reads : RuntimeSettingsUpdate.read verdict (runtimeSettings w).settings with
    | none => exact .inl rfl
    | some whole =>
      refine .inr (fun key => (sameItself ..).symm.trans ?_)
      exact (newsItself (settingsRead reads key)).mp
        (differingNone.mp (unchangedExactly.mp (all whole reads)) key)
  · rintro (refused | numbers) whole reads
    · exact absurd (refused.symm.trans reads) nofun
    · exact itselfUnchanged numbers reads

theorem liveOnlyRule (some : differing payload w.settings ≠ []) :
    (findLiveApplyRule (flattenUpdates payload w.settings) (w.heap w.processor)).isSome = true ↔
      LiveOnly payload w := by
  rw [liveExactly (flattenKnown ..), differingKeys]
  exact ⟨.inr, fun only => only.resolve_left some⟩

end Requests

section Updates
variable {env : Environment} {verdict : Verdict} {payload : RuntimeSettingsUpdate} {w x : World}
  {reply : Reply} {answer : Answer}

theorem updatedFields (updated : Updated w (flattenUpdates payload w.settings) reply x) :
    get x.settings = overlay (get w.settings) (news same payload.field (get w.settings)) :=
  funext fun key => by rw [updated.settings, candidateGet]

theorem updatedItself (updated : Updated w (flattenUpdates payload w.settings) reply x) {key : Field}
    {value : key.Value} (brought : news same payload.field (get w.settings) key = some value) :
    same key value value = true := by
  have numbers := validNumbers updated.valid key
  rw [candidateGet, overlay, brought] at numbers
  exact (sameItself ..).trans numbers

theorem updatedProcessor {restarted : Bool} {appliesFrom : String} (sound : Sound w)
    (some : differing payload w.settings ≠ [])
    (updated : Updated w (flattenUpdates payload w.settings) (.applied restarted appliesFrom) x) :
    (x.processor = w.processor ↔ LiveOnly payload w) ∧ (restarted = false ↔ LiveOnly payload w) := by
  rw [← liveOnlyRule some]
  cases found : findLiveApplyRule (flattenUpdates payload w.settings) (w.heap w.processor) with
  | some rule =>
    obtain ⟨told, kept⟩ := updated.live rule found
    cases told
    exact ⟨iff_of_true kept rfl, iff_of_true rfl rfl⟩
  | none =>
    obtain ⟨told, fresh⟩ := updated.restarts found
    cases told
    have earlier : w.processor < w.next := sound.linked.installed
    exact ⟨iff_of_false (by omega) nofun, iff_of_false nofun nofun⟩

theorem updatedBehaves (sound : Sound w) (some : differing payload w.settings ≠ [])
    {restarted : Bool} {appliesFrom : String} (tells : answer.processorRestarted = restarted)
    (updated : Updated w (flattenUpdates payload w.settings) (.applied restarted appliesFrom) x) :
    WellBehaved verdict w x payload answer := by
  have fields := updatedFields updated
  obtain ⟨kept, told⟩ := updatedProcessor sound some updated
  exact {
    sets := fun key value offered => by
      refine ⟨get x.settings key, snapshotShows x.settings key, ?_⟩
      rw [fields]
      exact overlaySet offered (updatedItself updated)
    others := fun key absent => by
      refine (snapshotShows ..).trans (Eq.trans ?_ (snapshotShows ..).symm)
      rw [fields, overlayKept absent]
    elsewhere := by
      rw [updated.settings]
      exact elsewhereReplace ..
    startup := updated.startup
    again := by
      refine unchangedExactly.mpr (differingNone.mpr (fun key => ?_))
      rw [fields]
      exact newsAgain (fun value brought => updatedItself updated brought)
    itself := fun whole reads => by
      refine itselfUnchanged ?_ reads
      rw [updated.settings]
      exact validNumbers updated.valid
    kept
    told := by rw [tells, told] }

/- A request that changes nothing is well behaved if the settings are the same as
themselves: a float that is no number differs from itself, so a service that started with
one sees a change in its own snapshot. -/
theorem idleBehaves (idle : differing payload w.settings = []) :
    WellBehaved verdict w w payload (unchanged w) ↔
      RuntimeSettingsUpdate.read verdict (runtimeSettings w).settings = none ∨ AllNumbers w.settings := by
  refine ⟨fun behaves => (itselfExactly verdict w).mp behaves.itself, fun numbers => ?_⟩
  have only : LiveOnly payload w := .inl idle
  exact {
    sets := fun key value offered =>
      ⟨get w.settings key, snapshotShows w.settings key, newsNone.mp (differingNone.mp idle key) value offered⟩
    others := fun _ _ => rfl
    elsewhere := elsewhereItself w.settings
    startup := rfl
    again := unchangedExactly.mpr idle
    itself := (itselfExactly verdict w).mpr numbers
    kept := iff_of_true rfl only
    told := iff_of_true rfl only }

end Updates

section Applications
variable {env : Environment} {verdict : Verdict} {payload : RuntimeSettingsUpdate}
  {settings : Settings} {w w' x : World} {events : List Event} {answer : Answer}

theorem answeredAtOnce (answers : applySettings w payload = .inl answer) :
    differing payload w.settings = [] ∧ answer = unchanged w := by
  simp only [applySettings, differingKeys] at answers
  split at answers
  · rename_i idle
    cases answers
    exact ⟨List.isEmpty_iff.mp idle, rfl⟩
  · contradiction

theorem updateAwaited {updates : Updates} (awaits : applySettings w payload = .inr updates) :
    differing payload w.settings ≠ [] ∧ updates = flattenUpdates payload w.settings := by
  simp only [applySettings, differingKeys] at awaits
  split at awaits
  · contradiction
  · rename_i some
    cases awaits
    exact ⟨fun idle => some (List.isEmpty_iff.mpr idle), rfl⟩

theorem answerReturned {frame : Frame} (answers : applied x frame = some (.answer answer)) :
    ∃ restarted appliesFrom, frame = .returned (.applied restarted appliesFrom) ∧
      answer.processorRestarted = restarted := by
  unfold applied at answers
  split at answers <;> cases answers
  exact ⟨_, _, rfl, rfl⟩

theorem requestsBehave (start : started settings = .ok w) (ran : run (step env) w events = some w')
    (quiescent : Quiescent w') (applies : Applies env w' payload answer x) :
    WellBehaved verdict w' x payload answer ↔ differing payload w'.settings ≠ [] ∨
      RuntimeSettingsUpdate.read verdict (runtimeSettings w').settings = none ∨
        AllNumbers w'.settings := by
  cases applies with
  | atOnce _ answers =>
    obtain ⟨idle, rfl⟩ := answeredAtOnce answers
    exact (idleBehaves idle).trans (or_iff_right (not_not_intro idle)).symm
  | awaited updates awaits later _ unasked reached frame ends _ answers =>
    obtain ⟨some, rfl⟩ := updateAwaited awaits
    obtain ⟨restarted, appliesFrom, rfl, tells⟩ := answerReturned answers
    have updated := updateEnds quiescent rfl unasked reached ends
    exact iff_of_true (updatedBehaves (runSound (startedSound start) ran) some tells updated) (.inl some)

def compares : Verdict
  | .gt limit, value => limit < value
  | .ge limit, value => limit ≤ value
  | .lt limit, value => value < limit
  | .le limit, value => value ≤ limit

def requestedCentre : RuntimeSettingsUpdate := { centreReduction := some { reduction := some 0.2 } }

def centred : Settings := { processor := "stereo-centre-reduction" }

theorem requestedCentreDiffers : differing requestedCentre centred = [.centreReduction] := by
  decide +kernel

theorem requestsBehaveLive : ∃ w x answer, started centred = .ok w ∧
    Applies trial w requestedCentre answer x ∧ x.settings.centreReduction = 0.2 ∧
      answer.appliesFrom = some "next packet" ∧ WellBehaved compares w x requestedCentre answer := by
  have begins : started centred = .ok (fresh centred (.centreReduction 0.7)) := rfl
  have awaits : applySettings (fresh centred (.centreReduction 0.7)) requestedCentre =
      .inr (flattenUpdates requestedCentre centred) := by
    have settings : (fresh centred (.centreReduction 0.7)).settings = centred := rfl
    simp only [applySettings, settings, differingKeys, requestedCentreDiffers]
    rfl
  have applies := @Applies.awaited trial _ _ _ awaits [] _ alongNil rfl
    (.returned (.applied false "next packet")) rfl _ rfl
  refine ⟨_, _, _, begins, applies, by decide +kernel, rfl, ?_⟩
  refine (requestsBehave begins (rfl : run (step trial) _ [] = _) (fun frame => nofun) applies).mpr (.inl ?_)
  have settings : (fresh centred (.centreReduction 0.7)).settings = centred := rfl
  rw [settings, requestedCentreDiffers]
  nofun

def unbounded : Settings := { mdx23cSegmentSeconds := 0.0 / 0.0 }

theorem requestsMisbehave : ¬ ∀ (settings : Settings) (w w' x : World) (events : List Event)
    (payload : RuntimeSettingsUpdate) (answer : Answer), started settings = .ok w →
      run (step trial) w events = some w' → Quiescent w' → Applies trial w' payload answer x →
        WellBehaved compares w' x payload answer := by
  intro all
  have begins : started unbounded = .ok (fresh unbounded .passthrough) := rfl
  have idle : differing {} (fresh unbounded .passthrough).settings = [] := rfl
  have applies : Applies trial (fresh unbounded .passthrough) {} (unchanged (fresh unbounded .passthrough))
      (fresh unbounded .passthrough) := .atOnce _ (unchangedExactly.mpr idle)
  have behaves := all unbounded _ (fresh unbounded .passthrough) _ [] {} _ begins rfl
    (fun frame => nofun) applies
  have admitted : (RuntimeSettingsUpdate.read compares (settingsSnapshot unbounded)).isSome = true := by
    decide +kernel
  rcases (idleBehaves idle).mp behaves with refused | numbers
  · have refused : RuntimeSettingsUpdate.read compares (settingsSnapshot unbounded) = none := refused
    rw [refused] at admitted
    contradiction
  · exact absurd (numbers .mdx23cSegmentSeconds) (by decide +kernel)

end Applications

end KaraokeAnything.Api
