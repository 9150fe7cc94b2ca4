import KaraokeAnything.Mdx23cAgreement
import KaraokeAnything.SegmentErrors

/-! What a reset leaves behind in both copies of the segment machinery: the later calls
end as on an object that was just built. -/
namespace KaraokeAnything.Mdx23cVocals
open ByteOrder Kany Lockstep Models Python Stateful
open SegmentedInference (InferenceOutcome SegmentModel)

section Turns
variable {σ : Type}

/- A call, or the end of an inference on its thread. The threads are counted with the
segments; a thread of another object has no number. -/
inductive Turn where
  | process (payload : Bytes)
  | flush
  | reset
  | threadEnds (thread : Option Nat) (outcome : InferenceOutcome)

/- A thread sets the future its own task awaits: that of an older segment is gone. -/
def threaded (started : σ → Nat) (next : σ → Event → Option (List ProcessedPacket) × σ) (s : σ) :
    Turn → Option (List ProcessedPacket) × σ
  | .process payload => next s (.process payload)
  | .flush => next s .flush
  | .reset => next s .reset
  | .threadEnds thread outcome =>
    if thread = some (started s) then next s (.inferenceEnds outcome) else (some [], s)

def Turn.since (before : Nat) : Turn → Turn
  | .threadEnds thread outcome =>
    .threadEnds (thread.bind fun n => if n ≤ before then none else some (n - before)) outcome
  | turn => turn

/- Objects that answer every call alike answer every turn alike: what a thread of before
brings finds no task. -/
theorem turnsAlike {started : σ → Nat} {next : σ → Event → Option (List ProcessedPacket) × σ}
    {R : σ → σ → Prop} {before : Nat}
    (counts : ∀ s t, R s t → started s = before + started t)
    (alike : ∀ s t event, R s t → (next s event).1 = (next t event).1 ∧
      R (next s event).2 (next t event).2)
    (stale : ∀ s t outcome, R s t → started t = 0 →
      next s (.inferenceEnds outcome) = (some [], s))
    {s t : σ} (related : R s t) (turns : List Turn) : answers (threaded started next) s turns =
      answers (threaded started next) t (turns.map (Turn.since before)) := by
  refine answersRelated (R := R) (Turn.since before) (fun s t turn related => ?_) related
  cases turn with
  | process payload => exact alike s t (.process payload) related
  | flush => exact alike s t .flush related
  | reset => exact alike s t .reset related
  | threadEnds thread outcome =>
    have count := counts s t related
    cases thread with
    | none =>
      simp only [threaded, Turn.since, Option.bind_none, reduceCtorEq, if_false]
      exact ⟨trivial, related⟩
    | some n =>
      simp only [threaded, Turn.since, Option.bind_some, Option.some.injEq]
      by_cases older : n ≤ before
      · simp only [older, if_true, reduceCtorEq, if_false]
        by_cases here : n = started s
        · rw [if_pos here, stale s t outcome related (by omega)]
          exact ⟨rfl, related⟩
        · rw [if_neg here]
          exact ⟨rfl, related⟩
      · have both : n - before = started t ↔ n = started s := by omega
        simp only [older, if_false, Option.some.injEq, both]
        by_cases here : n = started s
        · simp only [here, if_true]
          exact alike s t (.inferenceEnds outcome) related
        · simp only [here, if_false]
          exact ⟨trivial, related⟩

end Turns

end KaraokeAnything.Mdx23cVocals

namespace KaraokeAnything.SegmentedInference
open ByteOrder Kany Models Python Stateful

def seen (s : State) : State := { s with segmentsCompleted := 0 }

def shifted (before : Nat) (s : State) : State :=
  { s with segmentsStarted := before + s.segmentsStarted, segmentsCompleted := 0 }

structure SameSince (before : Nat) (s t : State) : Prop where
  view : seen s = shifted before t
  idle : t.segmentsStarted = 0 → t.inferenceTask = none

section Rules
variable {before : Nat} {α : Type}

theorem sameModify {f : State → State} (first : ∀ s, seen (f s) = seen (f (seen s)))
    (second : ∀ t, shifted before (f t) = seen (f (shifted before t)))
    (idle : ∀ t, (t.segmentsStarted = 0 → t.inferenceTask = none) →
      (f t).segmentsStarted = 0 → (f t).inferenceTask = none) :
    Indifferent (SameSince before) (modify f : Method Unit) :=
  indifferentModify (fun s t same => ⟨by rw [first, second, same.view], idle t same.idle⟩)

theorem sameGet {next : State → Method α} (first : ∀ s, next s = next (seen s))
    (second : ∀ t, next t = next (shifted before t))
    (tail : ∀ s, Indifferent (SameSince before) (next s)) :
    Indifferent (SameSince before) (get >>= next) :=
  indifferentGet
    (fun s t same => (first s).trans ((congrArg next same.view).trans (second t).symm)) tail

theorem sameTarget : Indifferent (SameSince before) targetSegmentFrames := by
  refine sameGet (fun _ => rfl) (fun _ => rfl) (fun s => ?_)
  cases s.streamSampleRate with
  | none => exact indifferentThrow _
  | some rate => exact indifferentBind (indifferentOfExcept _) (fun _ => indifferentPure _)

theorem sameLaunch : Indifferent (SameSince before) launchWhenReady := by
  refine sameGet (fun _ => rfl) (fun _ => rfl) (fun s => ?_)
  split
  · refine indifferentBind (indifferentBind sameTarget fun _ => sameGet (fun _ => rfl) (fun _ => rfl)
      fun _ => indifferentPure _) (fun ready => ?_)
    split
    · refine indifferentBind sameTarget (fun target => ?_)
      exact sameModify (fun _ => rfl) (fun _ => rfl) (fun _ _ => nofun)
    · exact indifferentPure _
  · exact indifferentPure _

theorem sameFormat (packet : KanyPacket) :
    Indifferent (SameSince before) (acceptStreamFormat packet) := by
  refine sameGet (fun _ => rfl) (fun _ => rfl) (fun s => ?_)
  split
  · exact sameModify (fun _ => rfl) (fun _ => rfl) (fun _ => id)
  · split
    · exact indifferentThrow _
    · exact indifferentPure _

variable (host : HostOrder) (model : SegmentModel)

theorem samePackets (separated : List UInt32) (packets : List KanyPacket) (offset : Nat) :
    Indifferent (SameSince before) (distributePackets host separated packets offset) := by
  induction packets generalizing offset with
  | nil => exact indifferentPure _
  | cons original rest ih =>
    refine indifferentBind (indifferentOfExcept _) (fun payload => ?_)
    exact indifferentBind (sameModify (fun _ => rfl) (fun _ => rfl) (fun _ => id)) (fun _ => ih _)

theorem sameResult (outcome : InferenceOutcome) :
    Indifferent (SameSince before) (awaitSegmentResult model outcome) := by
  cases outcome with
  | returned separated => exact indifferentPure _
  | raised text | cancelled =>
    exact indifferentBind (sameModify (fun _ => rfl) (fun _ => rfl) (fun _ => id))
      (fun _ => indifferentThrow _)

theorem sameDistribute (separated : List UInt32) :
    Indifferent (SameSince before) (distributeSegmentOutput host model separated) := by
  refine sameGet (fun _ => rfl) (fun _ => rfl) (fun s => ?_)
  extract_lets expected
  split
  · exact indifferentBind (sameModify (fun _ => rfl) (fun _ => rfl) (fun _ => id))
      (fun _ => indifferentThrow _)
  · exact samePackets host separated _ 0

theorem sameHarvest : Indifferent (SameSince before) (harvestInference host model) := by
  refine sameGet (fun _ => rfl) (fun _ => rfl) (fun s => ?_)
  split
  · exact indifferentPure _
  · refine indifferentBind (sameModify (fun _ => rfl) (fun _ => rfl) (fun _ _ _ => rfl)) (fun _ => ?_)
    refine indifferentBind (sameResult model _) (fun separated => ?_)
    exact indifferentBind (sameDistribute host model separated)
      (fun _ => sameModify (fun _ => rfl) (fun _ => rfl) (fun _ => id))

theorem sameProcess (payload : Bytes) :
    Indifferent (SameSince before) (process host model payload) := by
  refine indifferentBind (sameHarvest host model) (fun _ => ?_)
  refine indifferentBind (indifferentOfExcept _) (fun decoded => ?_)
  refine indifferentBind (sameFormat decoded) (fun _ => ?_)
  refine indifferentBind (sameModify (fun _ => rfl) (fun _ => rfl) (fun _ => id)) (fun _ => ?_)
  refine indifferentBind sameLaunch (fun _ => sameGet (fun _ => rfl) (fun _ => rfl) (fun s => ?_))
  split
  · exact indifferentPure _
  · exact indifferentBind (sameModify (fun _ => rfl) (fun _ => rfl) (fun _ => id))
      (fun _ => indifferentPure _)

theorem sameFlush : Indifferent (SameSince before) (flush host model) := by
  refine indifferentBind (sameHarvest host model) (fun _ => ?_)
  refine sameGet (fun _ => rfl) (fun _ => rfl) (fun s => ?_)
  exact indifferentBind (sameModify (fun _ => rfl) (fun _ => rfl) (fun _ => id))
    (fun _ => indifferentPure _)

end Rules

section Turns
variable {before : Nat} {s t : State}

theorem sameStarted (same : SameSince before s t) :
    s.segmentsStarted = before + t.segmentsStarted := congrArg State.segmentsStarted same.view

theorem sameTask (same : SameSince before s t) : s.inferenceTask = t.inferenceTask := by
  have task := congrArg State.inferenceTask same.view
  exact task

theorem sameEnds (same : SameSince before s t) (outcome : InferenceOutcome) :
    SameSince before ((inferenceEnds outcome s).getD s) ((inferenceEnds outcome t).getD t) := by
  have task := sameTask same
  rw [inferenceEnds, inferenceEnds, task]
  cases known : t.inferenceTask with
  | none => exact same
  | some running =>
    rcases running with ⟨segment, _ | done⟩
    · have ended := congrArg
        (fun u : State => { u with inferenceTask := some ⟨segment, some outcome⟩ }) same.view
      refine ⟨ended, fun zero => ?_⟩
      rw [same.idle zero] at known
      contradiction
    · exact same

theorem sameNext (host : HostOrder) (model : SegmentModel) (same : SameSince before s t)
    (event : Mdx23cVocals.Event) : let next := Mdx23cVocals.baseNext host model
    (next s event).1 = (next t event).1 ∧ SameSince before (next s event).2 (next t event).2 := by
  intro next
  cases event with
  | process payload =>
    obtain ⟨result, after⟩ := sameProcess host model payload s t same
    exact ⟨congrArg Except.toOption result, after⟩
  | flush =>
    obtain ⟨result, after⟩ := sameFlush host model s t same
    exact ⟨congrArg Except.toOption result, after⟩
  | reset => exact ⟨rfl, congrArg clear same.view, fun _ => rfl⟩
  | inferenceEnds outcome => exact ⟨rfl, sameEnds same outcome⟩

theorem clearForgets (host : HostOrder) (model : SegmentModel) (s : State)
    (later : List Mdx23cVocals.Turn) :
    let next := Mdx23cVocals.threaded State.segmentsStarted (Mdx23cVocals.baseNext host model)
    Lockstep.answers next (clear s) later = Lockstep.answers next
      { segmentSeconds := s.segmentSeconds } (later.map (Mdx23cVocals.Turn.since s.segmentsStarted)) := by
  refine Mdx23cVocals.turnsAlike (R := SameSince s.segmentsStarted) (fun _ _ => sameStarted)
    (fun _ _ event same => sameNext host model same event) (fun u t outcome same none => ?_)
    ⟨rfl, fun _ => rfl⟩ later
  have idle := (sameTask same).trans (same.idle none)
  rw [Mdx23cVocals.baseNext, inferenceEnds, idle]
  rfl

end Turns

end KaraokeAnything.SegmentedInference

namespace KaraokeAnything.Mdx23cVocals
open ByteOrder Kany Lockstep Models Python Stateful
open Processors (MDX23CVocalsConfig)
open SegmentedInference (InferenceOutcome SegmentModel)

def seen (s : State) : State := { s with segmentsCompleted := 0, droppedPackets := 0, underruns := 0 }

def shifted (before : Nat) (s : State) : State :=
  { s with
    segmentsStarted := before + s.segmentsStarted
    segmentsCompleted := 0
    droppedPackets := 0
    underruns := 0 }

structure SameSince (before : Nat) (s t : State) : Prop where
  view : seen s = shifted before t
  idle : t.segmentsStarted = 0 → t.inferenceTask = none

section Rules
variable {before : Nat} {α : Type}

theorem sameModify {f : State → State} (first : ∀ s, seen (f s) = seen (f (seen s)))
    (second : ∀ t, shifted before (f t) = seen (f (shifted before t)))
    (idle : ∀ t, (t.segmentsStarted = 0 → t.inferenceTask = none) →
      (f t).segmentsStarted = 0 → (f t).inferenceTask = none) :
    Indifferent (SameSince before) (modify f : Method Unit) :=
  indifferentModify (fun s t same => ⟨by rw [first, second, same.view], idle t same.idle⟩)

theorem sameGet {next : State → Method α} (first : ∀ s, next s = next (seen s))
    (second : ∀ t, next t = next (shifted before t))
    (tail : ∀ s, Indifferent (SameSince before) (next s)) :
    Indifferent (SameSince before) (get >>= next) :=
  indifferentGet
    (fun s t same => (first s).trans ((congrArg next same.view).trans (second t).symm)) tail

theorem sameTarget : Indifferent (SameSince before) targetSegmentFrames := by
  refine sameGet (fun _ => rfl) (fun _ => rfl) (fun s => ?_)
  cases s.streamSampleRate with
  | none => exact indifferentThrow _
  | some rate => exact indifferentOfExcept _

theorem sameLaunch : Indifferent (SameSince before) launchWhenReady := by
  refine sameGet (fun _ => rfl) (fun _ => rfl) (fun s => ?_)
  split
  · refine indifferentBind sameTarget (fun target => ?_)
    split
    · refine indifferentBind sameTarget (fun target => ?_)
      exact sameModify (fun _ => rfl) (fun _ => rfl) (fun _ _ => nofun)
    · exact indifferentPure _
  · exact indifferentPure _

theorem sameBuffer (packet : StereoPacket) :
    Indifferent (SameSince before) (bufferPacket packet) := by
  refine indifferentBind (sameModify (fun _ => rfl) (fun _ => rfl) (fun _ => id)) (fun _ => ?_)
  refine sameGet (fun _ => rfl) (fun _ => rfl) (fun s => ?_)
  refine indifferentBind (indifferentOfExcept _) (fun segments => ?_)
  refine indifferentBind (indifferentOfExcept _) (fun maximum => ?_)
  exact sameModify (fun _ => rfl) (fun _ => rfl) (fun _ => id)

theorem sameFormat (packet : StereoPacket) :
    Indifferent (SameSince before) (trackStreamFormat packet) := by
  refine sameGet (fun _ => rfl) (fun _ => rfl) (fun s => ?_)
  split
  · exact indifferentBind (sameModify (fun _ => rfl) (fun _ => rfl) (fun _ => id))
      (fun _ => indifferentPure _)
  · split
    · split
      · refine indifferentBind (sameModify (fun _ => rfl) (fun _ => rfl) (fun t idle zero => ?_))
          (fun _ => indifferentPure _)
        rw [cancelInference, idle zero]
        rfl
      · exact indifferentBind (sameModify (fun _ => rfl) (fun _ => rfl) (fun _ _ _ => rfl))
          (fun _ => indifferentThrow _)
    · exact indifferentPure _

theorem samePop : Indifferent (SameSince before) popReady := by
  refine sameGet (fun _ => rfl) (fun _ => rfl) (fun s => ?_)
  split
  · exact indifferentBind (sameModify (fun _ => rfl) (fun _ => rfl) (fun _ => id))
      (fun _ => indifferentPure _)
  · split
    · exact indifferentBind (sameModify (fun _ => rfl) (fun _ => rfl) (fun _ => id))
        (fun _ => indifferentPure _)
    · exact indifferentPure _

theorem sameCrossfade (output : List UInt32) :
    Indifferent (SameSince before) (crossfade output) := by
  refine sameGet (fun _ => rfl) (fun _ => rfl) (fun s => ?_)
  refine indifferentBind (indifferentOfExcept _) (fun wanted => ?_)
  exact indifferentBind (sameModify (fun _ => rfl) (fun _ => rfl) (fun _ => id))
    (fun _ => indifferentPure _)

variable (host : HostOrder)

theorem samePackets (output : List UInt32) (packets : List StereoPacket) (offset : Nat) :
    Indifferent (SameSince before) (distributePackets host output packets offset) := by
  induction packets generalizing offset with
  | nil => exact indifferentPure _
  | cons original rest ih =>
    refine indifferentBind (indifferentOfExcept _) (fun payload => ?_)
    exact indifferentBind (sameModify (fun _ => rfl) (fun _ => rfl) (fun _ => id)) (fun _ => ih _)

theorem sameResult (outcome : InferenceOutcome) :
    Indifferent (SameSince before) (awaitSegmentResult outcome) := by
  cases outcome with
  | returned output => exact indifferentPure _
  | cancelled => exact indifferentThrow _
  | raised text =>
    exact indifferentBind (sameModify (fun _ => rfl) (fun _ => rfl) (fun _ => id))
      (fun _ => indifferentThrow _)

theorem sameDistribute (output : List UInt32) :
    Indifferent (SameSince before) (distributeSegmentOutput host output) := by
  refine sameGet (fun _ => rfl) (fun _ => rfl) (fun s => ?_)
  extract_lets expected
  split
  · exact indifferentBind (sameModify (fun _ => rfl) (fun _ => rfl) (fun _ => id))
      (fun _ => indifferentThrow _)
  · exact indifferentBind (sameCrossfade output) (fun faded => samePackets host faded _ 0)

theorem sameHarvest : Indifferent (SameSince before) (harvestInference host) := by
  refine sameGet (fun _ => rfl) (fun _ => rfl) (fun s => ?_)
  split
  · exact indifferentPure _
  · refine indifferentBind (sameModify (fun _ => rfl) (fun _ => rfl) (fun _ _ _ => rfl)) (fun _ => ?_)
    refine indifferentBind (sameResult _) (fun output => ?_)
    exact indifferentBind (sameDistribute host output)
      (fun _ => sameModify (fun _ => rfl) (fun _ => rfl) (fun _ => id))

theorem sameProcess (payload : Bytes) : Indifferent (SameSince before) (process host payload) := by
  refine indifferentBind (sameHarvest host) (fun _ => ?_)
  refine indifferentBind (indifferentOfExcept _) (fun decoded => ?_)
  refine indifferentBind (sameFormat decoded) (fun steady => ?_)
  cases steady with
  | false => exact indifferentPure _
  | true =>
    refine indifferentBind (sameBuffer decoded) (fun _ => ?_)
    exact indifferentBind sameLaunch (fun _ => indifferentBind samePop (fun _ => indifferentPure _))

theorem sameFlush : Indifferent (SameSince before) (flush host) := by
  refine indifferentBind (sameHarvest host) (fun _ => ?_)
  refine sameGet (fun _ => rfl) (fun _ => rfl) (fun s => ?_)
  exact indifferentBind (sameModify (fun _ => rfl) (fun _ => rfl) (fun _ => id))
    (fun _ => indifferentPure _)

end Rules

section Turns
variable {host : HostOrder} {before : Nat} {s t : State}

theorem sameStarted (same : SameSince before s t) :
    s.segmentsStarted = before + t.segmentsStarted := congrArg State.segmentsStarted same.view

theorem sameTask (same : SameSince before s t) : s.inferenceTask = t.inferenceTask := by
  have task := congrArg State.inferenceTask same.view
  exact task

theorem sameClear (same : SameSince before s t) : SameSince before (clear s) (clear t) :=
  ⟨congrArg clear same.view, fun _ => rfl⟩

theorem sameEnds (same : SameSince before s t) (outcome : InferenceOutcome) :
    SameSince before ((inferenceEnds outcome s).getD s) ((inferenceEnds outcome t).getD t) := by
  have task := sameTask same
  rw [inferenceEnds, inferenceEnds, task]
  cases known : t.inferenceTask with
  | none => exact same
  | some running =>
    rcases running with ⟨segment, _ | done⟩
    · have ended := congrArg
        (fun u : State => { u with inferenceTask := some ⟨segment, some outcome⟩ }) same.view
      refine ⟨ended, fun zero => ?_⟩
      rw [same.idle zero] at known
      contradiction
    · exact same

theorem sameNext (host : HostOrder) (same : SameSince before s t) (event : Event) :
    (next host s event).1 = (next host t event).1 ∧
      SameSince before (next host s event).2 (next host t event).2 := by
  cases event with
  | process payload =>
    obtain ⟨result, after⟩ := sameProcess host payload s t same
    rw [next, next, callProcess, callProcess]
    generalize exec (process host payload) s = first at result after
    generalize exec (process host payload) t = second at result after
    obtain ⟨ends, u⟩ := first
    obtain ⟨_, v⟩ := second
    cases result
    rcases ends with e | _ | outputs
    · exact ⟨rfl, after⟩
    · exact ⟨rfl, sameClear after⟩
    · exact ⟨rfl, after⟩
  | flush =>
    obtain ⟨result, after⟩ := sameFlush host s t same
    rw [next, next, callFlush, callFlush]
    generalize exec (flush host) s = first at result after
    generalize exec (flush host) t = second at result after
    obtain ⟨ends, u⟩ := first
    obtain ⟨_, v⟩ := second
    cases result
    cases ends <;> exact ⟨rfl, after⟩
  | reset => exact ⟨rfl, congrArg clear same.view, fun _ => rfl⟩
  | inferenceEnds outcome => exact ⟨rfl, sameEnds same outcome⟩

def fresh (s : State) : State where
  segmentSeconds := s.segmentSeconds
  overlap := s.overlap
  maxBufferedSegments := s.maxBufferedSegments

theorem clearForgets (host : HostOrder) (s : State) (later : List Turn) :
    answers (threaded State.segmentsStarted (next host)) (clear s) later =
      answers (threaded State.segmentsStarted (next host)) (fresh s)
        (later.map (Turn.since s.segmentsStarted)) := by
  refine turnsAlike (R := SameSince s.segmentsStarted) (fun _ _ => sameStarted)
    (fun _ _ event same => sameNext host same event) (fun u t outcome same none => ?_)
    ⟨rfl, fun _ => rfl⟩ later
  have idle := (sameTask same).trans (same.idle none)
  rw [next, inferenceEnds, idle]
  rfl

theorem formatClears {payload : Bytes} (resets : formatResets host s payload = true) :
    ∃ t, (next host s (.process payload)).2 = clear t ∧ Settles s t := by
  have cases := callCases host payload s
  rw [formatResets] at resets
  rw [next]
  generalize callProcess host payload s = call at cases
  cases cases with
  | harvestRaised e t raised => simp [raised] at resets
  | invalid e t harvest refused => simp [harvest, refused] at resets
  | formatChanged t packet harvest decoded differs => exact ⟨t, rfl, harvestedSettles harvest⟩
  | limitRaised t packet harvest decoded fits infinite => simp [harvest, decoded, fits] at resets
  | admits t packet maximum frames harvest decoded fits room length =>
    simp [harvest, decoded, fits] at resets

end Turns

theorem resetForgets (host : HostOrder) (model : SegmentModel) (later : List Turn) :
    (∀ s : SegmentedInference.State,
      let next := threaded SegmentedInference.State.segmentsStarted (baseNext host model)
      answers next (next s .reset).2 later = answers next { segmentSeconds := s.segmentSeconds }
        (later.map (Turn.since s.segmentsStarted))) ∧
    (∀ s : State,
      let next := threaded State.segmentsStarted (next host)
      answers next (next s .reset).2 later = answers next (fresh s)
        (later.map (Turn.since s.segmentsStarted))) ∧
    ∀ (s : State) (payload : Bytes), formatResets host s payload = true →
      let next := threaded State.segmentsStarted (next host)
      let t := (next s (.process payload)).2
      answers next t later = answers next (fresh s)
        (later.map (Turn.since t.segmentsStarted)) := by
  refine ⟨fun s => ?_, fun s => ?_, fun s payload resets => ?_⟩
  · exact SegmentedInference.clearForgets host model (SegmentedInference.cancelInference s) later
  · exact clearForgets host (cancelInference s) later
  · obtain ⟨t, cleared, settles⟩ := formatClears resets
    have same : fresh t = fresh s := by
      rw [fresh, settles.segmentSeconds, settles.overlap, settles.maxBufferedSegments]
      rfl
    have forgets := clearForgets host t later
    rw [same] at forgets
    simp only [threaded, cleared]
    exact forgets

def inFlight : State := run .little (newState quarterSecond) [.process slowFrame]

def rateChanged : State := (next .little inFlight (.process SegmentedInference.stereoSilence)).2

def threadsEnd : List Turn :=
  [.threadEnds (some 1) (.returned [0, 0]), .process slowFrame, .threadEnds (some 2) (.raised ""),
    .flush]

theorem resetForgetsFormat :
    answers (threaded State.segmentsStarted (next .little)) rateChanged threadsEnd =
      answers (threaded State.segmentsStarted (next .little)) (fresh inFlight)
        (threadsEnd.map (Turn.since rateChanged.segmentsStarted)) := by
  have resets : formatResets .little inFlight SegmentedInference.stereoSilence = true := by
    decide +kernel
  have forgets := (resetForgets .little SegmentedInference.htdemucs threadsEnd).2.2 inFlight
    SegmentedInference.stereoSilence resets
  simp only [threaded] at forgets
  rw [rateChanged]
  exact forgets

end KaraokeAnything.Mdx23cVocals
