import Mathlib.Data.List.Induction
import Mathlib.Tactic.IntervalCases
import KaraokeAnything.Mdx23cSteps
import KaraokeAnything.Processors
import KaraokeAnything.SegmentedLedger

/-! The audio MDX23C holds: the limit of the input, and what pacing makes of it for
the input, the active segment and the ready outputs together. -/
namespace KaraokeAnything.Mdx23cVocals
open Binary64
open ByteOrder Kany Models Python Stateful
open SegmentedInference (InferenceOutcome slices stereoSilence takeSegment takenSegment)
open Processors (MDX23CVocalsConfig)

section Parameters

structure Parameters (s : State) : Prop where
  seconds : NotNegative s.segmentSeconds.toModel.unpack
  twoSeconds : Below 2 s.segmentSeconds.toModel.unpack
  overlap : Below 0 s.overlap.toModel.unpack

def newState (config : MDX23CVocalsConfig) : State where
  segmentSeconds := config.segmentSeconds
  overlap := config.overlap
  maxBufferedSegments := config.maxBufferedSegments

theorem supportedShape : ∀ seconds ∈ supportedSegments, ∃ mantissa exponent some,
    seconds.toModel.unpack = .finite .positive mantissa exponent some ∧
      Below 2 (.finite .positive mantissa exponent some) := by
  simp only [supportedSegments, List.forall_mem_cons, List.not_mem_nil, false_implies,
    implies_true, and_true]
  refine ⟨⟨_, _, _, rfl, ?_⟩, ⟨_, _, _, rfl, ?_⟩, ⟨_, _, _, rfl, ?_⟩, ⟨_, _, _, rfl, ?_⟩,
    ⟨_, _, _, rfl, ?_⟩, ⟨_, _, _, rfl, ?_⟩⟩ <;> decide

theorem checkedParameters {config checked : MDX23CVocalsConfig} (ok : config.checked = .ok checked) :
    Parameters (newState config) := by
  obtain ⟨_, passed, _⟩ := okBind.mp ok
  have passed := Processors.raiseFirstFailureOk.mp passed
  simp only [List.mem_cons, List.not_mem_nil, or_false, forall_eq_or_imp, forall_eq,
    List.any_eq_true, decide_eq_true_eq] at passed
  obtain ⟨⟨seconds, listed, equal⟩, overlap, _⟩ := passed
  obtain ⟨mantissa, exponent, some, finite, below⟩ := supportedShape seconds listed
  have same := beqUnpack finite equal
  refine ⟨?_, ?_, ltBelow 0.5 rfl overlap.1 overlap.2⟩
  · rw [newState, same]
    rfl
  · rw [newState, same]
    exact below

theorem limitPositive {s : State} (parameters : Parameters s) (some : 1 ≤ s.maxBufferedSegments)
    {rate : Nat} {maximum : Int} (rounded : round (limit s rate) = .ok maximum) : 0 ≤ maximum :=
  roundPositive (mulNotNegative (mulNotNegative (ofNatNotNegative rate) parameters.seconds)
    (ofIntNotNegative (by omega))) rounded

theorem targetPositive {s : State} (parameters : Parameters s) {rate : Nat} {frames : Int}
    (length : target s rate = .ok frames) : 0 ≤ frames :=
  roundPositive (mulNotNegative (ofNatNotNegative rate) parameters.seconds) length

/- The code rounds a float of its own for the limit; it is the float of `maximumFrames`. -/
theorem maximumExact {s : State} {packet : StereoPacket} {maximum : Int}
    (room : maximumFrames s packet = .ok maximum) :
    round (limit s packet.val.sampleRate) = .ok maximum := by
  obtain ⟨segments, converted, rounded⟩ := okBind.mp room
  unfold intToFloat at converted
  split at converted
  · cases converted
    exact rounded
  · contradiction

end Parameters

section Sizes

def held (s : State) : Nat :=
  s.inputPackets.length + s.activePackets.length + s.readyOutput.length

theorem lengthFrames (packets : List StereoPacket) : packets.length ≤ frameTotal packets := by
  induction packets with
  | nil => exact Nat.le_refl 0
  | cons packet rest ih =>
    have some := packet.val.framesRange.1
    simp only [frameTotal, List.map_cons, List.sum_cons, List.length_cons] at ih ⊢
    omega

theorem frameTotalAppend (front back : List StereoPacket) :
    frameTotal (front ++ back) = frameTotal front + frameTotal back := by
  simp [frameTotal]

theorem takenLength (target : Int) (packets : List StereoPacket) (frames : Int) :
    (takeSegment (·.val.frames) target packets frames).1.length ≤ (target - frames).toNat := by
  induction packets generalizing frames with
  | nil => exact Nat.zero_le _
  | cons packet rest ih =>
    have some := packet.val.framesRange.1
    have more := ih (frames + packet.val.frames)
    simp only [takeSegment]
    split
    · simp only [List.length_cons]
      omega
    · exact Nat.zero_le _

theorem slicesLength (output : List UInt32) (packets : List KanyPacket) (offset : Nat) :
    (slices output packets offset).length = packets.length := by
  induction packets generalizing offset with
  | nil => rfl
  | cons packet rest ih => simp [slices, ih]

structure Settles (s t : State) : Prop where
  inputPackets : t.inputPackets = s.inputPackets
  inputFrames : t.inputFrames = s.inputFrames
  droppedPackets : t.droppedPackets = s.droppedPackets
  streamSampleRate : t.streamSampleRate = s.streamSampleRate
  segmentSeconds : t.segmentSeconds = s.segmentSeconds
  overlap : t.overlap = s.overlap
  maxBufferedSegments : t.maxBufferedSegments = s.maxBufferedSegments
  active : t.activePackets = s.activePackets ∨ t.activePackets = []
  moved : t.activePackets.length + t.readyOutput.length ≤
    s.activePackets.length + s.readyOutput.length

theorem settlesSame (s : State) : Settles s s :=
  ⟨rfl, rfl, rfl, rfl, rfl, rfl, rfl, .inl rfl, Nat.le_refl _⟩

theorem harvestSettles (host : HostOrder) (s : State) :
    Settles s (exec (harvestInference host) s).2 := by
  have went := harvestCases host s
  generalize exec (harvestInference host) s = call at went ⊢
  cases went with
  | idle running => exact settlesSame s
  | cut output done size finite =>
    refine ⟨rfl, rfl, rfl, rfl, rfl, rfl, rfl, .inr rfl, ?_⟩
    simp only [harvested, List.length_nil, List.length_append, slicesLength, items, List.length_map]
    omega
  | lost outcome e done failed =>
    exact ⟨rfl, rfl, rfl, rfl, rfl, rfl, rfl, .inr rfl, by simp [afterFailure]⟩
  | stuck outcome e done kept infinite =>
    exact ⟨rfl, rfl, rfl, rfl, rfl, rfl, rfl, .inl rfl, Nat.le_refl _⟩

theorem drainedSettles (s : State) : Settles s { s with readyOutput := [] } :=
  ⟨rfl, rfl, rfl, rfl, rfl, rfl, rfl, .inl rfl, by simp⟩

theorem poppedSettles (s : State) : Settles s (popped s) :=
  ⟨rfl, rfl, rfl, rfl, rfl, rfl, rfl, .inl rfl, by simp [popped]⟩

theorem endedSettles (outcome : InferenceOutcome) (s : State) :
    Settles s ((inferenceEnds outcome s).getD s) := by
  cases ends : inferenceEnds outcome s with
  | none => exact settlesSame s
  | some t =>
    obtain ⟨segment, _, rfl⟩ := inferenceEnded ends
    exact ⟨rfl, rfl, rfl, rfl, rfl, rfl, rfl, .inl rfl, Nat.le_refl _⟩

end Sizes

section Bounds

structure Bounded (s : State) : Prop where
  empty : s.streamSampleRate = none →
    s.inputPackets = [] ∧ s.activePackets = [] ∧ s.readyOutput = []
  frames : s.inputFrames = frameTotal s.inputPackets
  limits : ∀ rate, s.streamSampleRate = some rate → ∃ maximum frames,
    round (limit s rate) = .ok maximum ∧ target s rate = .ok frames ∧
      s.inputFrames ≤ maximum ∧ (held s : Int) ≤ maximum + frames

structure Invariant (s : State) : Prop extends Bounded s where
  parameters : Parameters s
  segments : 1 ≤ s.maxBufferedSegments
  active : ∀ rate frames, s.streamSampleRate = some rate → target s rate = .ok frames →
    (s.activePackets.length : Int) ≤ frames

theorem parametersSettle {s t : State} (settles : Settles s t) (parameters : Parameters s) :
    Parameters t := by
  refine ⟨?_, ?_, ?_⟩
  · rw [settles.segmentSeconds]
    exact parameters.seconds
  · rw [settles.segmentSeconds]
    exact parameters.twoSeconds
  · rw [settles.overlap]
    exact parameters.overlap

theorem invariantSettles {s t : State} (settles : Settles s t) (invariant : Invariant s) :
    Invariant t where
  empty unset := by
    obtain ⟨input, active, ready⟩ := invariant.empty (settles.streamSampleRate ▸ unset)
    have none := settles.moved
    rw [active, ready] at none
    refine ⟨settles.inputPackets.trans input, ?_, ?_⟩ <;>
      exact List.eq_nil_of_length_eq_zero (by simp only [List.length_nil] at none; omega)
  frames := by rw [settles.inputFrames, settles.inputPackets, invariant.frames]
  limits rate known := by
    obtain ⟨maximum, frames, room, length, input, total⟩ :=
      invariant.limits rate (settles.streamSampleRate ▸ known)
    have moved := settles.moved
    refine ⟨maximum, frames, ?_, ?_, ?_, ?_⟩
    · rwa [limit, settles.segmentSeconds, settles.maxBufferedSegments]
    · rwa [target, settles.segmentSeconds]
    · rwa [settles.inputFrames]
    · rw [held] at total ⊢
      rw [settles.inputPackets]
      omega
  parameters := parametersSettle settles invariant.parameters
  segments := settles.maxBufferedSegments ▸ invariant.segments
  active rate frames known length := by
    rw [target, settles.segmentSeconds] at length
    have before := invariant.active rate frames (settles.streamSampleRate ▸ known) length
    rcases settles.active with same | none
    · rwa [same]
    · rw [none]
      exact (Int.natCast_nonneg _).trans before

theorem invariantClear {s : State} (parameters : Parameters s)
    (segments : 1 ≤ s.maxBufferedSegments) : Invariant (clear s) where
  empty _ := ⟨rfl, rfl, rfl⟩
  frames := rfl
  limits := nofun
  parameters := ⟨parameters.seconds, parameters.twoSeconds, parameters.overlap⟩
  segments := segments
  active := nofun

structure Fewest (line : List StereoPacket) (maximum : Int) (count : Nat) : Prop where
  restores : (frameTotal (line.drop count) : Int) ≤ maximum
  fewest : ∀ fewer < count, maximum < frameTotal (line.drop fewer)

theorem dropsFewest (maximum : Int) (line : List StereoPacket) :
    let cut := dropOldest maximum line (frameTotal line)
    cut.1 = line.drop cut.2.2 ∧ cut.2.2 ≤ line.length ∧ cut.2.1 = frameTotal cut.1 ∧
      (0 ≤ maximum → Fewest line maximum cut.2.2) := by
  obtain ⟨kept, inside, left, fits, fewest⟩ := dropOldestExact maximum line (frameTotal line)
  have rest (count : Nat) : (frameTotal line : Int) - frameTotal (line.take count) =
      frameTotal (line.drop count) := by
    have split := frameTotalAppend (line.take count) (line.drop count)
    rw [List.take_append_drop] at split
    omega
  have total : (dropOldest maximum line (frameTotal line)).2.1 =
      frameTotal (dropOldest maximum line (frameTotal line)).1 := by
    rw [left, rest, kept]
  refine ⟨kept, inside, total, fun positive => ⟨?_, fun fewer less => rest fewer ▸ fewest fewer less⟩⟩
  rw [← kept]
  rcases fits with restored | emptied
  · rwa [← total]
  · rw [emptied]
    exact positive

theorem admittedExact {t : State} (packet : StereoPacket) (maximum : Int)
    (frames : t.inputFrames = frameTotal t.inputPackets) :
    let u := admitted t packet maximum
    ∃ count ≤ t.inputPackets.length + 1,
      u.inputPackets = (t.inputPackets ++ [packet]).drop count ∧
      u.droppedPackets = t.droppedPackets + count ∧
      u.inputFrames = frameTotal u.inputPackets ∧
      (0 ≤ maximum → Fewest (t.inputPackets ++ [packet]) maximum count) := by
  have total : t.inputFrames + packet.val.frames = frameTotal (t.inputPackets ++ [packet]) := by
    rw [frames, frameTotalAppend]
    simp [frameTotal]
  obtain ⟨kept, inside, left, fewest⟩ := dropsFewest maximum (t.inputPackets ++ [packet])
  rw [List.length_append, List.length_singleton] at inside
  simp only [admitted, trimmed, pushed, withFormat, total]
  exact ⟨_, inside, kept, rfl, left, fewest⟩

theorem launchExactly {u : State} {frames : Int} (total : u.inputFrames = frameTotal u.inputPackets)
    (positive : 0 ≤ frames) (active : (u.activePackets.length : Int) ≤ frames) :
    let v := launchedWhenReady u frames
    v.inputFrames = frameTotal v.inputPackets ∧ v.inputFrames ≤ u.inputFrames ∧
      (v.activePackets.length : Int) ≤ frames ∧
      v.inputPackets.length + v.activePackets.length ≤
        u.inputPackets.length + u.activePackets.length ∧
      (v.inputPackets = u.inputPackets ∨ v.activePackets ++ v.inputPackets = u.inputPackets) := by
  unfold launchedWhenReady
  split
  · obtain ⟨split, sum⟩ := takenSegment (·.val.frames) frames u.inputPackets 0
    have count := takenLength frames u.inputPackets 0
    have both := congrArg List.length split
    have whole := congrArg frameTotal split
    rw [List.length_append] at both
    rw [frameTotalAppend] at whole
    simp only [launched]
    generalize takeSegment (·.val.frames) frames u.inputPackets 0 = cut at *
    have taken : cut.2.1 = frameTotal cut.1 := by
      rw [sum, Int.zero_add]
      rfl
    refine ⟨?_, ?_, ?_, ?_, .inr split.symm⟩
    · rw [total, whole, taken]
      omega
    · rw [taken]
      omega
    · omega
    · omega
  · exact ⟨total, Int.le_refl _, active, Nat.le_refl _, .inl rfl⟩

theorem launchKeeps (u : State) (frames : Int) :
    let v := launchedWhenReady u frames
    v.readyOutput = u.readyOutput ∧ v.streamSampleRate = u.streamSampleRate ∧
      v.segmentSeconds = u.segmentSeconds ∧ v.overlap = u.overlap ∧
      v.maxBufferedSegments = u.maxBufferedSegments ∧ v.droppedPackets = u.droppedPackets := by
  unfold launchedWhenReady
  split <;> exact ⟨rfl, rfl, rfl, rfl, rfl, rfl⟩

structure Answers (t : State) (packet : StereoPacket) (maximum frames : Int) (w : State) :
    Prop where
  total : w.inputFrames = frameTotal w.inputPackets
  restored : w.inputFrames ≤ maximum
  segment : (w.activePackets.length : Int) ≤ frames
  fewer : w.inputPackets.length + w.activePackets.length ≤
    t.inputPackets.length + 1 + t.activePackets.length
  ready : w.readyOutput = t.readyOutput.drop 1
  drops : ∃ count, Fewest (t.inputPackets ++ [packet]) maximum count ∧
    w.droppedPackets = t.droppedPackets + count ∧
    (w.inputPackets = (t.inputPackets ++ [packet]).drop count ∨
      w.activePackets ++ w.inputPackets = (t.inputPackets ++ [packet]).drop count)

section Answered
variable {t : State} {packet : StereoPacket} {maximum frames : Int}

theorem answeredExact (invariant : Invariant t) (fits : FormatFits t packet)
    (room : maximumFrames t packet = .ok maximum)
    (length : target t packet.val.sampleRate = .ok frames) :
    Answers t packet maximum frames (answered (admitted t packet maximum) frames).2 := by
  have positive := limitPositive invariant.parameters invariant.segments (maximumExact room)
  have longest := targetPositive invariant.parameters length
  obtain ⟨count, _, input, dropped, total, fewest⟩ :=
    admittedExact packet maximum invariant.frames
  have fewest := fewest positive
  have active : (t.activePackets.length : Int) ≤ frames := by
    cases known : t.streamSampleRate with
    | none =>
      rw [(invariant.empty known).2.1]
      exact longest
    | some rate =>
      obtain ⟨rfl, _⟩ := fits rate known
      exact invariant.active _ frames known length
  obtain ⟨left, less, segment, fewer, line⟩ := launchExactly total longest active
  obtain ⟨ready, _, _, _, _, kept⟩ := launchKeeps (admitted t packet maximum) frames
  rw [input] at fewer line
  refine ⟨left, less.trans ?_, segment, fewer.trans ?_, congrArg (List.drop 1) ready,
    count, fewest, kept.trans dropped, line⟩
  · rw [total, input]
    exact fewest.restores
  · have size := List.length_drop (i := count) (l := t.inputPackets ++ [packet])
    rw [List.length_append, List.length_singleton] at size
    change _ + t.activePackets.length ≤ _
    omega

theorem answeredHeld (invariant : Invariant t) (fits : FormatFits t packet)
    (rounded : round (limit t packet.val.sampleRate) = .ok maximum)
    (length : target t packet.val.sampleRate = .ok frames) {w : State}
    (answers : Answers t packet maximum frames w) : (held w : Int) ≤ maximum + frames := by
  have ready := congrArg List.length answers.ready
  rw [List.length_drop] at ready
  by_cases none : t.readyOutput = []
  · have input := lengthFrames w.inputPackets
    have restored := answers.restored
    have segment := answers.segment
    rw [answers.total] at restored
    rw [none, List.length_nil] at ready
    simp only [held]
    omega
  · cases known : t.streamSampleRate with
    | none => exact absurd (invariant.empty known).2.2 none
    | some rate =>
      obtain ⟨rfl, _⟩ := fits rate known
      obtain ⟨maximum', frames', rounded', length', _, total⟩ := invariant.limits _ known
      cases Except.ok.inj (rounded'.symm.trans rounded)
      cases Except.ok.inj (length'.symm.trans length)
      have fewer := answers.fewer
      have some := List.length_pos_iff.mpr none
      simp only [held] at total ⊢
      omega

theorem invariantAnswers (invariant : Invariant t) (fits : FormatFits t packet)
    (room : maximumFrames t packet = .ok maximum)
    (length : target t packet.val.sampleRate = .ok frames) :
    Invariant (answered (admitted t packet maximum) frames).2 := by
  have rounded := maximumExact room
  have answers := answeredExact invariant fits room length
  have total := answeredHeld invariant fits rounded length answers
  obtain ⟨_, rate, seconds, overlap, segments, _⟩ :=
    launchKeeps (admitted t packet maximum) frames
  have fresh : (answered (admitted t packet maximum) frames).2.streamSampleRate =
      some packet.val.sampleRate := rate
  have sameSeconds : (answered (admitted t packet maximum) frames).2.segmentSeconds =
      t.segmentSeconds := seconds
  have sameOverlap : (answered (admitted t packet maximum) frames).2.overlap = t.overlap := overlap
  have sameSegments : (answered (admitted t packet maximum) frames).2.maxBufferedSegments =
      t.maxBufferedSegments := segments
  generalize (answered (admitted t packet maximum) frames).2 = w at *
  have sameLimit (rate : Nat) : limit w rate = limit t rate := by
    rw [limit, sameSeconds, sameSegments, limit]
  have sameTarget (rate : Nat) : target w rate = target t rate := by
    rw [target, sameSeconds, target]
  exact {
    empty := fun unset => by rw [fresh] at unset; contradiction
    frames := answers.total
    limits := fun known same => by
      cases Option.some.inj (fresh.symm.trans same)
      rw [sameLimit, sameTarget]
      exact ⟨maximum, frames, rounded, length, answers.restored, total⟩
    parameters := ⟨sameSeconds ▸ invariant.parameters.seconds,
      sameSeconds ▸ invariant.parameters.twoSeconds, sameOverlap ▸ invariant.parameters.overlap⟩
    segments := sameSegments ▸ invariant.segments
    active := fun known other same again => by
      cases Option.some.inj (fresh.symm.trans same)
      rw [sameTarget] at again
      cases Except.ok.inj (again.symm.trans length)
      exact answers.segment }

end Answered

end Bounds

section Runs
variable {host : HostOrder} {s : State}

def LimitFinite (host : HostOrder) (s : State) : Event → Prop
  | .process payload => ∀ packet, decodeAndValidate host payload = .ok packet →
    s.streamSampleRate = none → (limit s packet.val.sampleRate).isFinite = true
  | _ => True

def DropsFewest (host : HostOrder) (s : State) (payload : Bytes) : Prop :=
  ∀ outputs packet, (callProcess host payload s).1 = some outputs →
    decodeAndValidate host payload = .ok packet →
    let t := (callProcess host payload s).2
    ∃ maximum count, round (limit s packet.val.sampleRate) = .ok maximum ∧
      Fewest (s.inputPackets ++ [packet]) maximum count ∧
      t.droppedPackets = s.droppedPackets + count ∧
      (t.inputPackets = (s.inputPackets ++ [packet]).drop count ∨
        t.activePackets ++ t.inputPackets = (s.inputPackets ++ [packet]).drop count)

theorem settledLimit {t : State} (settles : Settles s t) (rate : Nat) : limit t rate = limit s rate := by
  rw [limit, settles.segmentSeconds, settles.maxBufferedSegments, limit]

theorem harvestedSettles {t : State} {result : Except PyError Unit}
    (harvest : exec (harvestInference host) s = (result, t)) : Settles s t := by
  have settles := harvestSettles host s
  rwa [harvest] at settles

theorem processInvariant (invariant : Invariant s) {payload : Bytes}
    (finite : LimitFinite host s (.process payload)) :
    Invariant (callProcess host payload s).2 := by
  have cases := callCases host payload s
  generalize callProcess host payload s = call at cases
  cases cases with
  | harvestRaised e t raised => exact invariantSettles (harvestedSettles raised) invariant
  | invalid e t harvest refused => exact invariantSettles (harvestedSettles harvest) invariant
  | formatChanged t packet harvest decoded differs =>
    have settled := invariantSettles (harvestedSettles harvest) invariant
    exact invariantClear settled.parameters settled.segments
  | limitRaised t packet harvest decoded fits infinite =>
    have settles := harvestedSettles harvest
    rw [settledLimit settles] at infinite
    cases known : s.streamSampleRate with
    | none => exact absurd (finite packet decoded known) (by simp [infinite])
    | some rate =>
      obtain ⟨rfl, _⟩ := fits rate (settles.streamSampleRate.trans known)
      obtain ⟨maximum, _, rounded, _⟩ := invariant.limits _ known
      exact absurd ((roundDefined _).mp ⟨maximum, rounded⟩) (by simp [infinite])
  | admits t packet maximum frames harvest decoded fits room length =>
    exact invariantAnswers (invariantSettles (harvestedSettles harvest) invariant) fits room length

theorem processDrops (invariant : Invariant s) (payload : Bytes) : DropsFewest host s payload := by
  have cases := callCases host payload s
  unfold DropsFewest
  generalize callProcess host payload s = call at cases
  cases cases with
  | harvestRaised e t raised => nofun
  | invalid e t harvest refused => nofun
  | formatChanged t packet harvest decoded differs => nofun
  | limitRaised t packet harvest decoded fits infinite => nofun
  | admits t packet maximum frames harvest decoded fits room length =>
    intro outputs other answered again
    cases Except.ok.inj (again.symm.trans decoded)
    have settles := harvestedSettles harvest
    have settled := invariantSettles settles invariant
    obtain ⟨count, fewest, dropped, line⟩ := (answeredExact settled fits room length).drops
    have rounded := maximumExact room
    rw [settledLimit settles] at rounded
    rw [settles.inputPackets] at fewest line
    rw [settles.droppedPackets] at dropped
    exact ⟨maximum, count, rounded, fewest, dropped, line⟩

theorem nextInvariant (invariant : Invariant s) {event : Event}
    (finite : LimitFinite host s event) : Invariant (next host s event).2 := by
  cases event with
  | process payload => exact processInvariant invariant finite
  | flush =>
    rcases flushCases host s with ⟨e, t, raised, call⟩ | ⟨t, harvest, call⟩
    · rw [next, call]
      exact invariantSettles (harvestedSettles raised) invariant
    · have settled := invariantSettles (harvestedSettles harvest) invariant
      rw [next, call]
      exact invariantSettles (drainedSettles t) settled
  | reset =>
    have cleared : clear (cancelInference s) = clear s := rfl
    rw [next, cleared]
    exact invariantClear invariant.parameters invariant.segments
  | inferenceEnds outcome => exact invariantSettles (endedSettles outcome s) invariant

theorem runSnoc (host : HostOrder) (s : State) (events : List Event) (event : Event) :
    run host s (events ++ [event]) = (next host (run host s events) event).2 := by
  rw [run, List.foldl_append]
  rfl

theorem runInvariant (initial : Invariant s) {events : List Event}
    (finite : ∀ before event, before ++ [event] <+: events →
      LimitFinite host (run host s before) event) : Invariant (run host s events) := by
  induction events using List.reverseRecOn with
  | nil => exact initial
  | append_singleton events event ih =>
    rw [runSnoc]
    refine nextInvariant (ih (fun before event cut => ?_)) (finite events event (List.prefix_refl _))
    exact finite before event (cut.trans (List.prefix_append _ _))

def Unset (s : State) : Prop := s.streamSampleRate = none → s.inferenceTask = none

theorem harvestUnset {t : State} {result : Except PyError Unit} (unset : Unset s)
    (harvest : exec (harvestInference host) s = (result, t)) : Unset t := by
  intro none
  have free := unset ((harvestedSettles harvest).streamSampleRate ▸ none)
  rw [harvestIdle host (by rw [free]; rfl)] at harvest
  cases harvest
  exact free

theorem nextUnset (unset : Unset s) (event : Event) : Unset (next host s event).2 := by
  cases event with
  | process payload =>
    have cases := callCases host payload s
    change Unset (callProcess host payload s).2
    generalize callProcess host payload s = call at cases
    cases cases with
    | harvestRaised e t raised => exact harvestUnset unset raised
    | invalid e t harvest refused => exact harvestUnset unset harvest
    | formatChanged t packet harvest decoded differs => exact fun _ => rfl
    | limitRaised t packet harvest decoded fits infinite => nofun
    | admits t packet maximum frames harvest decoded fits room length =>
      intro none
      have fresh := (launchKeeps (admitted t packet maximum) frames).2.1
      exact absurd (fresh.symm.trans none) nofun
  | flush =>
    rcases flushCases host s with ⟨e, t, raised, call⟩ | ⟨t, harvest, call⟩
    · rw [next, call]
      exact harvestUnset unset raised
    · have kept : Unset t := harvestUnset unset harvest
      rw [next, call]
      exact kept
  | reset => exact fun _ => rfl
  | inferenceEnds outcome =>
    rw [next]
    unfold inferenceEnds
    split
    · rename_i segment running
      intro none
      rw [unset none] at running
      contradiction
    · exact unset

theorem runUnset (unset : Unset s) (events : List Event) : Unset (run host s events) := by
  induction events using List.reverseRecOn with
  | nil => exact unset
  | append_singleton events event ih =>
    rw [runSnoc]
    exact nextUnset ih event

/- The first valid packet of a stream, where its limit is infinite: the call raises with the
packet in the buffer. -/
theorem firstCallRaises (unset : Unset s) (fresh : s.streamSampleRate = none) {payload : Bytes}
    {packet : StereoPacket} (decoded : decodeAndValidate host payload = .ok packet)
    (infinite : (limit s packet.val.sampleRate).isFinite = false) :
    callProcess host payload s = (none, pushed (withFormat s packet) packet) := by
  have idle : exec (harvestInference host) s = (.ok (), s) :=
    harvestIdle host (by rw [unset fresh]; rfl)
  have cases := callCases host payload s
  generalize callProcess host payload s = call at cases
  cases cases with
  | harvestRaised e t raised =>
    rw [idle] at raised
    cases raised
  | invalid e t harvest refused =>
    rw [decoded] at refused
    contradiction
  | formatChanged t other harvest again differs =>
    rw [idle] at harvest
    cases harvest
    exact absurd (fun known same => by rw [fresh] at same; contradiction) differs
  | limitRaised t other harvest again fits unbounded =>
    rw [idle] at harvest
    cases harvest
    cases Except.ok.inj (again.symm.trans decoded)
    rfl
  | admits t other maximum frames harvest again fits room length =>
    rw [idle] at harvest
    cases harvest
    cases Except.ok.inj (again.symm.trans decoded)
    rw [(limitDefined s packet).mp ⟨maximum, room⟩] at infinite
    contradiction

theorem unlimited (unset : Unset s) {payload : Bytes} {packet : StereoPacket}
    (decoded : decodeAndValidate host payload = .ok packet) (fresh : s.streamSampleRate = none)
    (infinite : (limit s packet.val.sampleRate).isFinite = false) :
    ¬ Bounded (callProcess host payload s).2 := by
  rw [firstCallRaises unset fresh decoded infinite]
  intro bounded
  obtain ⟨maximum, _, rounded, _⟩ := bounded.limits _ rfl
  have finite := (roundDefined _).mp ⟨maximum, rounded⟩
  change (limit s packet.val.sampleRate).isFinite = true at finite
  rw [finite] at infinite
  contradiction

theorem audioBounded (host : HostOrder) (config : MDX23CVocalsConfig)
    (checked : config.checked = .ok config) (segments : 1 ≤ config.maxBufferedSegments)
    (events : List Event) :
    (∀ before, before <+: events → Bounded (run host (newState config) before) ∧
      ∀ payload, DropsFewest host (run host (newState config) before) payload) ↔
    ∀ before event, before ++ [event] <+: events →
      LimitFinite host (run host (newState config) before) event := by
  have initial : Invariant (newState config) := {
    empty := fun _ => ⟨rfl, rfl, rfl⟩
    frames := rfl
    limits := nofun
    parameters := checkedParameters checked
    segments := segments
    active := nofun }
  constructor
  · intro bounded before event cut
    cases event with
    | process payload =>
      intro packet decoded fresh
      by_contra infinite
      rw [Bool.not_eq_true] at infinite
      have after := (bounded _ cut).1
      rw [runSnoc] at after
      exact unlimited (runUnset (fun _ => rfl) before) decoded fresh infinite after
    | flush => trivial
    | reset => trivial
    | inferenceEnds outcome => trivial
  · intro finite before cut
    have invariant := runInvariant initial (fun head event inside => finite head event (inside.trans cut))
    exact ⟨invariant.toBounded, processDrops invariant⟩

def slowFrame : Bytes :=
  magic ++ [1, 0, 2, 1, 0, 0, 0, 3] ++ List.replicate 12 0 ++ [0, 1, 0, 0] ++ List.replicate 8 0

theorem slowRate {packet : StereoPacket} (decoded : decodeAndValidate .little slowFrame = .ok packet) :
    packet.val.sampleRate = 3 := by
  cases Except.ok.inj decoded
  rfl

def quarterSecond : MDX23CVocalsConfig := { segmentSeconds := 0.25 }

def answeredSegment : List Event :=
  [.process slowFrame, .inferenceEnds (.returned [0, 0]), .process slowFrame]

theorem prefixAt {α : Type} {items before : List α} {item : α} (cut : before ++ [item] <+: items) :
    before = items.take before.length ∧ items[before.length]? = some item := by
  obtain ⟨rest, rfl⟩ := cut
  simp

theorem audioBoundedAnswered :
    Bounded (run .little (newState quarterSecond) answeredSegment) ∧
      ∀ payload, DropsFewest .little (run .little (newState quarterSecond) answeredSegment) payload := by
  refine (audioBounded .little quarterSecond rfl (by decide) answeredSegment).mpr
    (fun before event cut => ?_) _ (List.prefix_refl _)
  obtain ⟨same, there⟩ := prefixAt cut
  have short : before.length < 3 := (List.getElem?_eq_some_iff.mp there).1
  rw [same]
  generalize before.length = i at there short
  interval_cases i
  · cases there
    intro packet decoded _
    cases Except.ok.inj decoded
    decide +kernel
  · cases there
    trivial
  · cases there
    intro packet decoded fresh
    exact absurd fresh (by decide +kernel)

/- `10 ** 308`, which the constructor lets pass. -/
def hugeConfig : MDX23CVocalsConfig := { maxBufferedSegments := 10 ^ 154 * 10 ^ 154 }

theorem audioUnbounded : ¬ ∀ (config : MDX23CVocalsConfig), config.checked = .ok config →
    1 ≤ config.maxBufferedSegments → ∀ events,
      Bounded (run .little (newState config) events) := by
  intro bounded
  have decoded : decodeAndValidate .little stereoSilence = .ok _ := rfl
  refine unlimited (s := newState hugeConfig) (fun _ => rfl) decoded rfl (by decide +kernel) ?_
  exact bounded hugeConfig rfl (by decide) [.process stereoSilence]

end Runs

end KaraokeAnything.Mdx23cVocals
