import Mathlib.Algebra.Order.Ring.Rat
import Mathlib.Data.Rat.Floor
import Mathlib.Tactic.NormNum
import KaraokeAnything.Library.Crossfade
import KaraokeAnything.SegmentErrors

/-! The crossfade of MDX23C over whole runs: what every segment harvested since the last
reset becomes, in the arithmetic of the floats and in exact arithmetic. -/
namespace KaraokeAnything.Mdx23cVocals
open ByteOrder Crossfade Kany Models Python Stateful
open Processors (MDX23CVocalsConfig)
open SegmentedInference (InferenceOutcome sampleTotal slices slicesFrom)

structure Numbers (K α : Type) where
  one : K
  ofNat : Nat → K
  round : K → Option Int
  read : α → K
  write : K → α

def floats : Numbers Float UInt32 where
  one := 1.0
  ofNat := Float.ofNat
  round x := (Python.round x).toOption
  read := itemToFloat
  write := floatToItem

def exact (K : Type) [Field K] [LinearOrder K] [FloorRing K] : Numbers K K where
  one := 1
  ofNat := Nat.cast
  round x := some (roundEven x)
  read := id
  write := id

section Arithmetic
variable {K α : Type} [Add K] [Sub K] [Mul K] [Div K]

def Numbers.mix (numbers : Numbers K α) (frame overlapFrames : Nat) (tail sample : α) : α :=
  let alpha := numbers.ofNat (frame + 1) / numbers.ofNat (overlapFrames + 1)
  numbers.write (blend numbers.one alpha (numbers.read tail) (numbers.read sample))

def Numbers.fading (numbers : Numbers K α) (overlap : K) : Fading α where
  channels := 2
  overlap frames := match numbers.round (numbers.ofNat frames * overlap) with
    | some wanted => (min wanted (frames / 2 : Nat)).toNat
    | none => 0
  mix := numbers.mix
  positive := Nat.two_pos
  halves frames := by split <;> omega

end Arithmetic

section Code
variable {s : State} {output : List UInt32}

theorem overlapExact (s : State) (output : List UInt32) :
    (floats.fading s.overlap).overlapFrames output = overlapFrames s output := by
  change (match (Python.round (fadeLength s output)).toOption with
    | some wanted => (min wanted (output.length / 2 / 2 : Nat)).toNat
    | none => 0) = _
  rw [overlapFrames]
  cases Python.round (fadeLength s output) <;> rfl

theorem crossfadeFramesAt {overlapFrames frame : Nat} {tail output : List UInt32}
    (room : 2 * (overlapFrames - frame) ≤ output.length)
    (enough : 2 * (overlapFrames - frame) ≤ tail.length) (j : Nat) :
    (crossfadeFrames overlapFrames frame tail output)[j]? =
      output[j]?.map (fun sample => match tail[j]? with
        | some old => if frame + j / 2 < overlapFrames then
            floats.mix (frame + j / 2) overlapFrames old sample else sample
        | none => sample) := by
  have behind {frame j : Nat} {tail output : List UInt32} (after : overlapFrames ≤ frame) :
      output[j]? = output[j]?.map (fun sample => match tail[j]? with
        | some old => if frame + j / 2 < overlapFrames then
            floats.mix (frame + j / 2) overlapFrames old sample else sample
        | none => sample) := by
    have outside : ¬ frame + j / 2 < overlapFrames := by omega
    simp only [outside, if_false]
    cases output[j]? <;> cases tail[j]? <;> rfl
  fun_induction crossfadeFrames overlapFrames frame tail output generalizing j with
  | case1 frame tailLeft tailRight tail left right rest inside alpha mix ih =>
    rcases j with _ | _ | j
    · simp [inside]
      rfl
    · simp [inside]
      rfl
    · have next : frame + 1 + j / 2 = frame + (j + 2) / 2 := by omega
      simp only [List.length_cons] at room enough
      rw [List.getElem?_cons_succ, List.getElem?_cons_succ, ih (by omega) (by omega), next]
      rfl
  | case2 frame tailLeft tailRight tail left right rest outside =>
    exact behind (Nat.not_lt.mp outside)
  | case3 tail frame output short =>
    refine behind ?_
    rcases tail with _ | ⟨first, _ | ⟨second, tail⟩⟩
    · simp only [List.length_nil] at enough
      omega
    · simp only [List.length_cons, List.length_nil] at enough
      omega
    · rcases output with _ | ⟨left, _ | ⟨right, rest⟩⟩
      · simp only [List.length_nil] at room
        omega
      · simp only [List.length_cons, List.length_nil] at room
        omega
      · exact absurd rfl (short _ _ _ _ _ _ rfl)

theorem overlapTwofold (s : State) (output : List UInt32) :
    overlapFrames s output * 2 + overlapFrames s output * 2 ≤ output.length := by
  have twice := overlapTwice (floats.fading s.overlap) output
  rw [Fading.overlapSamples, overlapExact] at twice
  exact (Nat.two_mul _).symm.le.trans twice

theorem crossfadeNone (tail output : List UInt32) : crossfadeFrames 0 0 tail output = output := by
  unfold crossfadeFrames
  split <;> rfl

theorem mixHeadExact {tail : List UInt32} (enough : overlapFrames s output * 2 ≤ tail.length) :
    crossfadeFrames (overlapFrames s output) 0 tail output =
      (floats.fading s.overlap).mixHead tail output := by
  have twice := overlapTwofold s output
  refine List.ext_getElem? (fun j => ?_)
  rw [crossfadeFramesAt (by omega) (by omega), Fading.mixHead, List.getElem?_mapIdx, overlapExact]
  simp only [Nat.zero_add]
  cases output[j]? <;> cases tail[j]? <;> rfl

theorem fadeExact (s : State) (output : List UInt32) :
    crossfaded s output = (floats.fading s.overlap).fadeIn s.previousTail output := by
  have samples : (floats.fading s.overlap).overlapSamples output = overlapFrames s output * 2 :=
    congrArg (· * 2) (overlapExact s output)
  cases known : s.previousTail with
  | none => simp only [crossfaded, fade, usableTail, known, Fading.fadeIn]
  | some tail =>
    simp only [crossfaded, fade, usableTail, known, Fading.fadeIn, samples]
    by_cases short : tail.length < overlapFrames s output * 2
    · simp only [short, or_true, if_true]
    · rw [if_neg short, ← mixHeadExact (Nat.not_lt.mp short)]
      by_cases none : overlapFrames s output * 2 = 0
      · have zero : overlapFrames s output = 0 := by omega
        rw [if_pos (.inl none), zero, crossfadeNone]
      · rw [if_neg (not_or.mpr ⟨none, short⟩)]

theorem tailExact (s : State) (output : List UInt32) :
    tailOf s output = (floats.fading s.overlap).lastFrames (crossfaded s output) := by
  rw [Fading.lastFrames, fadeExact, fadedOverlap, Fading.overlapSamples, overlapExact, ← fadeExact]
  rfl

end Code

section Journal
variable (host : HostOrder)

/- What happened since the last reset: the inference results harvested, the outputs cut
from each of them, and the outputs the calls have yielded. -/
structure Fades where
  self : State
  raws : List (List UInt32) := []
  released : List (List ProcessedPacket) := []
  yielded : List ProcessedPacket := []

def harvestedOutput (s : State) : Option (List UInt32) :=
  match s.inferenceTask.bind (·.outcome), exec (harvestInference host) s with
  | some (.returned output), (.ok _, _) => some output
  | _, _ => none

def harvestFades (w : Fades) : Fades :=
  let t := (exec (harvestInference host) w.self).2
  match harvestedOutput host w.self with
  | some output => { w with
      self := t
      raws := w.raws ++ [output]
      released := w.released ++ [t.readyOutput.drop w.self.readyOutput.length] }
  | none => { w with self := t }

def fadesNext (w : Fades) (event : Event) : Fades :=
  let call := next host w.self event
  let harvested := harvestFades host w
  let yielded := harvested.yielded ++ call.1.getD []
  match event with
  | .process payload =>
    if formatResets host w.self payload then { self := call.2 }
    else { harvested with self := call.2, yielded }
  | .flush => { harvested with self := call.2, yielded }
  | .reset => { self := call.2 }
  | .inferenceEnds _ => { w with self := call.2 }

def fadesRun (config : MDX23CVocalsConfig) (events : List Event) : Fades :=
  events.foldl (fadesNext host) { self := newState config }

def samplesOf (outputs : List ProcessedPacket) : List UInt32 :=
  outputs.flatMap (fun output => readSamples host output.payload)

structure Crossfades (overlap : Float) (w : Fades) : Prop where
  sound : Sound w.self
  constant : w.self.overlap = overlap
  whole : ∀ raw ∈ w.raws, 2 ∣ raw.length
  tail : w.self.previousTail = w.raws.getLast?.bind (floats.fading overlap).lastFrames
  samples : w.released.map (samplesOf host) = (floats.fading overlap).outputs none w.raws
  yielded : w.yielded ++ w.self.readyOutput = w.released.flatten

end Journal

section Steps
variable {host : HostOrder} {overlap : Float} {w : Fades} {t u : State}

theorem crossfadesFresh (sound : Sound t) (same : t.overlap = overlap) (none : t.previousTail = none)
    (ready : t.readyOutput = []) : Crossfades host overlap { self := t } :=
  ⟨sound, same, nofun, none, rfl, ready⟩

theorem crossfadesRest (h : Crossfades host overlap w) (sound : Sound u)
    (same : u.overlap = w.self.overlap) (tail : u.previousTail = w.self.previousTail)
    {outputs : List ProcessedPacket} (yields : outputs ++ u.readyOutput = w.self.readyOutput) :
    Crossfades host overlap { w with self := u, yielded := w.yielded ++ outputs } where
  sound := sound
  constant := same.trans h.constant
  whole := h.whole
  tail := tail.trans h.tail
  samples := h.samples
  yielded := by rw [List.append_assoc, yields, h.yielded]

theorem harvestedSelf : (harvestFades host w).self = (exec (harvestInference host) w.self).2 := by
  rw [harvestFades]
  split <;> rfl

theorem slicesSamples (host : HostOrder) (s : State) {output : List UInt32}
    (size : output.length = Mdx23cVocals.sampleTotal s.activePackets) :
    samplesOf host (slices (crossfaded s output) (items s.activePackets) 0) = crossfaded s output := by
  rw [sampleTotalItems, ← crossfadedLength s output] at size
  obtain ⟨_, _, samples⟩ := slicesFrom host (crossfaded s output) (items s.activePackets) 0
    ((Nat.zero_add _).trans size.symm).le
  rw [samplesOf, samples, List.drop_zero, ← size, List.take_length]

theorem harvestCrossfades (h : Crossfades host overlap w) :
    Crossfades host overlap (harvestFades host w) := by
  have sound := soundSettles (harvestSettles host w.self) h.sound
  have went := harvestCases host w.self
  rw [harvestFades, harvestedOutput]
  generalize exec (harvestInference host) w.self = call at went sound
  cases went with
  | idle running =>
    rw [running]
    exact ⟨sound, h.constant, h.whole, h.tail, h.samples, h.yielded⟩
  | cut output done size finite =>
    have fades : crossfaded w.self output = (floats.fading overlap).fadeIn
        (w.raws.getLast?.bind (floats.fading overlap).lastFrames) output := by
      rw [fadeExact, h.constant, h.tail]
    have tail : tailOf w.self output = (floats.fading overlap).lastFrames output := by
      rw [tailExact, fadeExact, h.constant, lastUnmixed]
    have even : 2 ∣ output.length := by
      rw [size, sampleTotalFrames]
      exact Nat.dvd_mul_left 2 _
    rw [done]
    refine ⟨sound, h.constant, ?_, ?_, ?_, ?_⟩
    · intro raw inside
      rcases List.mem_append.mp inside with before | last
      · exact h.whole raw before
      · rwa [List.mem_singleton.mp last]
    · simp only [harvested, List.getLast?_concat, tail, Option.bind_some]
    · have added := slicesSamples host w.self size
      rw [fades] at added
      simp only [harvested, List.drop_left, List.map_append, List.map_cons, List.map_nil,
        h.samples, outputsSnoc, fades, added]
    · simp only [harvested, List.drop_left, List.flatten_append, List.flatten_cons,
        List.flatten_nil, List.append_nil, ← h.yielded, List.append_assoc]
  | lost outcome e done failed =>
    rw [done]
    cases outcome <;> exact ⟨sound, h.constant, h.whole, h.tail, h.samples, h.yielded⟩
  | stuck outcome e done kept infinite =>
    rw [done]
    cases outcome <;> exact ⟨sound, h.constant, h.whole, h.tail, h.samples, h.yielded⟩

theorem harvestedCrossfades {result : Except PyError Unit} (h : Crossfades host overlap w)
    (harvest : exec (harvestInference host) w.self = (result, t)) : Crossfades host overlap
      { harvestFades host w with self := t, yielded := (harvestFades host w).yielded ++ [] } := by
  have taken := harvestCrossfades h
  have self : (harvestFades host w).self = t := by rw [harvestedSelf, harvest]
  exact crossfadesRest taken (self ▸ taken.sound) (by rw [self]) (by rw [self]) (by rw [self]; rfl)

theorem answeredCrossfades (h : Crossfades host overlap w) (packet : StereoPacket)
    (maximum : Int) {frames : Int} (length : target w.self packet.val.sampleRate = .ok frames) :
    let call := answered (admitted w.self packet maximum) frames
    Crossfades host overlap { w with self := call.2, yielded := w.yielded ++ call.1.getD [] } := by
  have small := targetSmall h.sound.parameters packet.val.sampleRateRange.2 length
  have sound := soundSettles (poppedSettles _)
    (soundLaunched (soundAdmitted h.sound packet maximum) small)
  have same : (launchedWhenReady (admitted w.self packet maximum) frames).overlap =
      w.self.overlap ∧ (launchedWhenReady (admitted w.self packet maximum) frames).previousTail =
      w.self.previousTail ∧ (launchedWhenReady (admitted w.self packet maximum) frames).readyOutput =
      w.self.readyOutput := by
    rw [launchedWhenReady]
    split <;> exact ⟨rfl, rfl, rfl⟩
  refine crossfadesRest h sound same.1 same.2.1 ?_
  exact (List.take_append_drop 1 _).trans same.2.2

theorem nextCrossfades (h : Crossfades host overlap w) (event : Event) :
    Crossfades host overlap (fadesNext host w event) := by
  have taken := harvestCrossfades h
  cases event with
  | process payload =>
    have cases := callCases host payload w.self
    rw [fadesNext, next, formatResets]
    generalize callProcess host payload w.self = call at cases
    cases cases with
    | harvestRaised e t raised =>
      simp only [raised]
      exact harvestedCrossfades h raised
    | invalid e t harvest refused =>
      simp only [harvest, refused]
      exact harvestedCrossfades h harvest
    | formatChanged t packet harvest decoded differs =>
      simp only [harvest, decoded, differs, decide_false, Bool.not_false, if_true]
      have settled := harvestedSettles harvest
      exact crossfadesFresh (soundClear (soundSettles settled h.sound))
        (settled.overlap.trans h.constant) rfl rfl
    | limitRaised t packet harvest decoded fits infinite =>
      simp only [harvest, decoded, fits, decide_true, Bool.not_true]
      have self : (harvestFades host w).self = t := by rw [harvestedSelf, harvest]
      rw [← self]
      exact crossfadesRest taken (soundPushed taken.sound packet) rfl rfl rfl
    | admits t packet maximum frames harvest decoded fits room length =>
      simp only [harvest, decoded, fits, decide_true, Bool.not_true]
      have self : (harvestFades host w).self = t := by rw [harvestedSelf, harvest]
      rw [← self] at length
      have answers := answeredCrossfades taken packet maximum length
      rwa [self] at answers
  | flush =>
    rw [fadesNext, next]
    rcases flushCases host w.self with ⟨e, t, raised, call⟩ | ⟨t, harvest, call⟩
    · rw [call]
      exact harvestedCrossfades h raised
    · rw [call]
      have self : (harvestFades host w).self = t := by rw [harvestedSelf, harvest]
      have sound := soundSettles (drainedSettles t) (soundSettles (harvestedSettles harvest) h.sound)
      exact crossfadesRest taken sound (by rw [self]) (by rw [self]) (by simp [self])
  | reset => exact crossfadesFresh (nextSound h.sound .reset) h.constant rfl rfl
  | inferenceEnds outcome =>
    have sound : Sound (next host w.self (.inferenceEnds outcome)).2 := nextSound h.sound _
    rw [next] at sound
    rw [fadesNext, next]
    cases ends : inferenceEnds outcome w.self with
    | none => exact h
    | some t =>
      rw [ends] at sound
      obtain ⟨segment, _, rfl⟩ := inferenceEnded ends
      exact ⟨sound, h.constant, h.whole, h.tail, h.samples, h.yielded⟩

theorem runCrossfades (host : HostOrder) {config : MDX23CVocalsConfig} (checked : config.checked = .ok config)
    (events : List Event) : Crossfades host config.overlap (fadesRun host config events) := by
  induction events using List.reverseRecOn with
  | nil =>
    exact crossfadesFresh ⟨checkedParameters checked, rfl, Nat.two_pow_pos 40⟩ rfl rfl rfl
  | append_singleton events event ih =>
    rw [fadesRun, List.foldl_append]
    exact nextCrossfades ih event

end Steps

/- Every index of the loop is one of the tail and of the output, so no read of the loop
raises. -/
theorem loopInside {s : State} {output tail : List UInt32}
    (usable : usableTail s (overlapFrames s output * 2) = some tail) :
    ∀ frame < overlapFrames s output, ∀ channel < 2,
      frame * 2 + channel < tail.length ∧ frame * 2 + channel < output.length := by
  intro frame inside channel stereo
  have twice := overlapTwofold s output
  have long : overlapFrames s output * 2 ≤ tail.length := by
    rw [usableTail] at usable
    split at usable
    · contradiction
    · split at usable
      · contradiction
      · rename_i enough
        cases Option.some.inj usable
        exact Nat.not_lt.mp (not_or.mp enough).2
  omega

section Exact
variable {K : Type} [Field K] [LinearOrder K] [IsStrictOrderedRing K] [FloorRing K]

theorem exactBounded (overlap : K) {raws : List (List K)}
    (given : ∀ raw ∈ raws, ∀ sample ∈ raw, |sample| ≤ 1) :
    ∀ out ∈ ((exact K).fading overlap).outputs none raws, ∀ sample ∈ out, |sample| ≤ 1 :=
  outputsKeep (fun sample => |sample| ≤ 1) (fun inside first second => fadeBounded inside first second)
    nofun given

end Exact

theorem segmentsCrossfaded (host : HostOrder) (config : MDX23CVocalsConfig)
    (checked : config.checked = .ok config) (events : List Event) :
    let w := fadesRun host config events
    (∀ output tail, usableTail w.self (overlapFrames w.self output * 2) = some tail →
      ∀ frame < overlapFrames w.self output, ∀ channel < 2,
        frame * 2 + channel < tail.length ∧ frame * 2 + channel < output.length) ∧
    w.self.previousTail = w.raws.getLast?.bind (floats.fading config.overlap).lastFrames ∧
    w.yielded ++ w.self.readyOutput = w.released.flatten ∧
    AllFaded (floats.fading config.overlap) w.raws (w.released.map (samplesOf host)) ∧
    ∀ (K : Type) [Field K] [LinearOrder K] [IsStrictOrderedRing K] [FloorRing K] (overlap : K),
      0 ≤ overlap → overlap < 1 / 2 → ∀ value : UInt32 → K,
        let raws := w.raws.map (·.map value)
        let outs := ((exact K).fading overlap).outputs none raws
        AllFaded ((exact K).fading overlap) raws outs ∧
          ((∀ raw ∈ raws, ∀ sample ∈ raw, |sample| ≤ 1) →
            ∀ out ∈ outs, ∀ sample ∈ out, |sample| ≤ 1) := by
  have h := runCrossfades host checked events
  refine ⟨fun output tail usable => loopInside usable, h.tail, h.yielded, ?_, ?_⟩
  · rw [h.samples]
    exact outputsFaded h.whole
  · intro K _ _ _ _ overlap _ _ value
    refine ⟨outputsFaded (fun raw inside => ?_), exactBounded overlap⟩
    obtain ⟨items, known, rfl⟩ := List.mem_map.mp inside
    rw [List.length_map]
    exact h.whole items known

def quarterFrames : Bytes :=
  magic ++ [1, 0, 2, 1, 0, 0, 0, 16] ++ List.replicate 12 0 ++ [0, 4, 0, 0] ++ List.replicate 32 0

def quarterOverlap : MDX23CVocalsConfig := { segmentSeconds := 0.25, overlap := 0.25 }

def twoSegments : List Event :=
  [.process quarterFrames, .inferenceEnds (.returned (List.replicate 8 0)), .process quarterFrames,
    .inferenceEnds (.returned (List.replicate 8 0x3f800000)), .flush]

theorem segmentsCrossfadedTwo :
    let w := fadesRun .little quarterOverlap twoSegments
    w.released.map (samplesOf .little) = [List.replicate 8 0,
      [0x3f000000, 0x3f000000] ++ List.replicate 6 0x3f800000] ∧
    AllFaded (floats.fading 0.25) w.raws (w.released.map (samplesOf .little)) ∧
    AllFaded ((exact ℚ).fading (1 / 4)) (w.raws.map (·.map (fun _ => (1 : ℚ))))
      (((exact ℚ).fading (1 / 4)).outputs none (w.raws.map (·.map (fun _ => (1 : ℚ))))) := by
  have faded := segmentsCrossfaded .little quarterOverlap (by rfl) twoSegments
  refine ⟨by decide +kernel, faded.2.2.2.1, ?_⟩
  exact (faded.2.2.2.2 ℚ (1 / 4) (by norm_num) (by norm_num) (fun _ => 1)).1

end KaraokeAnything.Mdx23cVocals
