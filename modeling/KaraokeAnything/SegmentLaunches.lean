import KaraokeAnything.SegmentFailures
import KaraokeAnything.SegmentRuns

/-! What a `process` call launches, in both copies of the segment machinery: the shortest
front of the buffer that is long enough, whose inference finds a packet and a duration.
MDX23C also launches nothing, where its length rounds to no frames. -/
namespace KaraokeAnything.SegmentedInference
open Binary64
open ByteOrder Kany Models Python Stateful

section Background

/- The background task of a segment, `infer()` here and `run()` in MDX23C: what it returns,
with the real-time factor it leaves. `channels` is what the copies pass for a packet. -/
def Segment.infer (channels : KanyPacket → Nat)
    (runInference : List UInt32 → Nat → Nat → Except PyError (List UInt32)) (elapsed : Float)
    (self : Segment) : Except PyError (List UInt32 × Float) :=
  match self.packets with
  | [] => .error (.exception "list index out of range")
  | first :: _ => do
    let result ← runInference self.samples first.sampleRate (channels first)
    let duration ← divide self.frames first.sampleRate
    let realTimeFactor ← divideFloats elapsed duration
    pure (result, realTimeFactor)

/- Nothing but the inference itself can fail. -/
def Infers (channels : KanyPacket → Nat) (segment : Segment) : Prop :=
  ∀ runInference elapsed, ∃ first realTimeFactor, segment.packets.head? = some first ∧
    segment.infer channels runInference elapsed =
      (runInference segment.samples first.sampleRate (channels first)).map (·, realTimeFactor)

end Background

section Prefixes
variable {α : Type} {target : Int} {buffer : List α}

structure ShortestPrefix (framesOf : α → Nat) (target : Int) (buffer packets left : List α) :
    Prop where
  some : packets ≠ []
  whole : packets ++ left = buffer
  reaches : target ≤ ((packets.map framesOf).sum : Nat)
  shortest : ∀ fewer, fewer <+: packets → fewer ≠ packets →
    ((fewer.map framesOf).sum : Nat) < target

theorem takenReaches (framesOf : α → Nat) (frames : Int) (enough : target ≤ frames + ((buffer.map framesOf).sum : Nat)) :
    target ≤ (takeSegment framesOf target buffer frames).2.1 := by
  induction buffer generalizing frames with
  | nil => simpa [takeSegment] using enough
  | cons current rest ih =>
    simp only [takeSegment]
    split
    · refine ih (frames + framesOf current) ?_
      simp only [List.map_cons, List.sum_cons] at enough
      omega
    · rename_i reached
      exact Int.not_lt.mp reached

theorem takenShortest (framesOf : α → Nat) (frames : Int) {fewer more : List α} {current : α}
    (split : fewer ++ current :: more = (takeSegment framesOf target buffer frames).1) :
    frames + ((fewer.map framesOf).sum : Nat) < target := by
  induction buffer generalizing frames fewer with
  | nil => simp [takeSegment] at split
  | cons head rest ih =>
    simp only [takeSegment] at split
    split at split
    · rename_i short
      cases fewer with
      | nil => simpa using short
      | cons first fewer =>
        obtain ⟨rfl, inside⟩ := List.cons.inj split
        have less := ih (frames + framesOf first) inside
        simp only [List.map_cons, List.sum_cons]
        omega
    · simp at split

theorem takenPrefix (framesOf : α → Nat) (positive : 1 ≤ target)
    (enough : target ≤ ((buffer.map framesOf).sum : Nat)) :
    let cut := takeSegment framesOf target buffer 0
    ShortestPrefix framesOf target buffer cut.1 cut.2.2 := by
  obtain ⟨split, total⟩ := takenSegment framesOf target buffer 0
  have reaches := takenReaches framesOf 0 (by simpa using enough)
  rw [total, Int.zero_add] at reaches
  refine ⟨fun none => ?_, split.symm, reaches, fun fewer ⟨more, whole⟩ proper => ?_⟩
  · rw [none, List.map_nil, List.sum_nil] at reaches
    omega
  · cases more with
    | nil => exact absurd (by simpa using whole) proper
    | cons current more => simpa using takenShortest framesOf 0 whole

end Prefixes

section Launches

structure Formed (channels : KanyPacket → Nat) (target : Int) (buffer : List KanyPacket)
    (buffered : Int) (segment : Segment) (left : List KanyPacket) (leftFrames : Int) : Prop
    extends ShortestPrefix (·.frames) target buffer segment.packets left where
  frames : segment.frames = frameTotal segment.packets
  samples : segment.samples = segment.packets.flatMap (·.samples)
  conserved : leftFrames + segment.frames = buffered
  infers : Infers channels segment

theorem prefixFrames {target : Int} {buffer packets left : List KanyPacket}
    (shortest : ShortestPrefix (·.frames) target buffer packets left) :
    (frameTotal packets : Int) < target + 2 ^ 16 := by
  obtain ⟨fewer, last, rfl⟩ : ∃ fewer last, packets = fewer ++ [last] :=
    ⟨_, _, (List.dropLast_concat_getLast shortest.some).symm⟩
  have less := shortest.shortest fewer (List.prefix_append _ _) (by simp)
  have most := last.framesRange.2
  simp only [frameTotal, List.map_append, List.sum_append, List.map_cons, List.map_nil,
    List.sum_singleton]
  omega

theorem formedInfers (channels : KanyPacket → Nat) {target : Int} {segment : Segment}
    {buffer left : List KanyPacket}
    (shortest : ShortestPrefix (·.frames) target buffer segment.packets left)
    (frames : segment.frames = frameTotal segment.packets) (room : target + 2 ^ 16 ≤ overflow) :
    Infers channels segment := by
  have most := prefixFrames shortest
  obtain ⟨packets, total, samples⟩ := segment
  obtain ⟨first, rest, rfl⟩ := List.exists_cons_of_ne_nil shortest.some
  have low := first.framesRange.1
  have rate := first.sampleRateRange
  have some : 0 < frameTotal (first :: rest) := by
    simp only [frameTotal, List.map_cons, List.sum_cons]
    omega
  obtain ⟨duration, divided, nonzero⟩ := dividePositive some rate.1
    (Int.ofNat_lt.mp (Int.lt_of_lt_of_le most room)) (Nat.lt_trans rate.2 (by decide))
  intro runInference elapsed
  have quotient : divideFloats elapsed duration = .ok (elapsed / duration) :=
    if_neg (by simp [nonzero])
  refine ⟨first, elapsed / duration, rfl, ?_⟩
  simp only at frames
  simp only [Segment.infer, frames, divided]
  cases runInference samples first.sampleRate (channels first) with
  | error e => rfl
  | ok result =>
    simp only [bind, Except.bind, quotient]
    rfl

theorem targetRoom {x : Float} {rounded : Int} (known : round x = .ok rounded) :
    max 1 rounded + 2 ^ 16 ≤ overflow := by
  have room := roundRoom known
  have one : (1 : Int) + 2 ^ 16 ≤ overflow := roundRoom (x := 1.0) rfl
  omega

variable (host : HostOrder) (model : SegmentModel)

def LaunchFormed (s : State) (payload : Bytes) : Prop :=
  let t := (exec (process host model payload) s).2
  t.segmentsStarted ≠ s.segmentsStarted → ∃ packet rounded segment,
    model.decodeAndValidate host payload = .ok packet ∧
    round (Float.ofNat packet.sampleRate * s.segmentSeconds) = .ok rounded ∧
    t.inferenceTask = some ⟨segment, none⟩ ∧ t.activePackets = segment.packets ∧
    Formed (·.channels) (max 1 rounded) (s.inputPackets ++ [packet])
      (s.inputFrames + packet.frames) segment t.inputPackets t.inputFrames

theorem processFormed {s : State} (counted : Counted s) (payload : Bytes) :
    LaunchFormed host model s payload := by
  have cases := callCases host model payload s
  unfold LaunchFormed
  generalize exec (process host model payload) s = call at cases
  intro after started
  cases cases with
  | harvestRaised e t raised => exact absurd (harvestTouches raised).segmentsStarted started
  | invalid e t harvest refused => exact absurd (harvestTouches harvest).segmentsStarted started
  | formatChanged e t packet harvest decoded differs =>
    exact absurd (harvestTouches harvest).segmentsStarted started
  | targetRaised e t packet harvest decoded fits free raises =>
    exact absurd (harvestTouches harvest).segmentsStarted started
  | waits t packet harvest decoded fits waiting =>
    exact absurd (harvestTouches harvest).segmentsStarted started
  | launches t packet frames harvest decoded fits free known ready =>
    have untouched := harvestTouches harvest
    have total := queuedCounted (untouchedCounted untouched counted) packet
    have computed : (round (Float.ofNat packet.sampleRate * t.segmentSeconds)).map (max 1) =
      .ok frames := known
    cases rounding : round (Float.ofNat packet.sampleRate * t.segmentSeconds) with
    | error e =>
      rw [rounding] at computed
      contradiction
    | ok rounded =>
      rw [rounding] at computed
      cases computed
      rw [untouched.segmentSeconds] at rounding
      rw [total] at ready
      have shortest := takenPrefix (fun packet : KanyPacket => packet.frames) (Int.le_max_left 1 rounded)
        ready
      obtain ⟨split, sum⟩ := takenSegment (·.frames) (max 1 rounded) (queued t packet).inputPackets 0
      rw [Int.zero_add] at sum
      refine ⟨packet, rounded, _, decoded, rounding, rfl, rfl, ?_⟩
      have buffer : (queued t packet).inputPackets = s.inputPackets ++ [packet] := by
        rw [queued, untouched.inputPackets]
      rw [← buffer]
      refine ⟨shortest, sum, rfl, ?_, formedInfers _ shortest sum (targetRoom rounding)⟩
      have left : after.inputFrames = (queued t packet).inputFrames -
        (takeSegment (·.frames) (max 1 rounded) (queued t packet).inputPackets 0).2.1 := rfl
      rw [left, Int.sub_add_cancel, queued, untouched.inputFrames]

end Launches

end KaraokeAnything.SegmentedInference

namespace KaraokeAnything.Mdx23cVocals
open ByteOrder Kany Models Python Stateful
open Processors (MDX23CVocalsConfig)
open SegmentedInference (Formed SegmentModel ShortestPrefix formedInfers takeSegment takenPrefix
  takenSegment targetRoom)

variable {host : HostOrder} {s t : State}

def LaunchFormed (host : HostOrder) (s : State) (payload : Bytes) : Prop :=
  let t := (callProcess host payload s).2
  t.segmentsStarted ≠ s.segmentsStarted → ∃ packet rounded segment buffer,
    decodeAndValidate host payload = .ok packet ∧
    round (Float.ofNat packet.val.sampleRate * s.segmentSeconds) = .ok rounded ∧
    buffer = (s.inputPackets ++ [packet]).drop (t.droppedPackets - s.droppedPackets) ∧
    t.inferenceTask = some ⟨segment, none⟩ ∧ items t.activePackets = segment.packets ∧
    Formed (fun _ => 2) (max 1 rounded) (items buffer) (frameTotal buffer) segment
      (items t.inputPackets) t.inputFrames

def Idle (s : State) : Prop := s.inferenceTask = none ∨
  ∃ output, s.inferenceTask.bind (·.outcome) = some (.returned output) ∧
    output.length = sampleTotal s.activePackets

def EmptyTarget (host : HostOrder) (s : State) (payload : Bytes) : Prop :=
  ∃ packet maximum, decodeAndValidate host payload = .ok packet ∧ Idle s ∧
    FormatFits s packet ∧ maximumFrames s packet = .ok maximum ∧
    target s packet.val.sampleRate = .ok 0

structure Untouched (s t : State) : Prop extends Settles s t where
  streamChannels : t.streamChannels = s.streamChannels
  segmentsStarted : t.segmentsStarted = s.segmentsStarted

theorem harvestTouches {result : Except PyError Unit}
    (harvest : exec (harvestInference host) s = (result, t)) : Untouched s t := by
  refine ⟨harvestedSettles harvest, ?_, ?_⟩
  all_goals
    have cases := harvestCases host s
    rw [harvest] at cases
    cases cases <;> rfl

theorem harvestFree (sound : Sound s) :
    (∃ t, exec (harvestInference host) s = (.ok (), t) ∧ t.inferenceTask = none) ↔ Idle s := by
  constructor
  · rintro ⟨t, harvest, free⟩
    have cases := harvestCases host s
    rw [harvest] at cases
    cases cases with
    | idle running => exact .inl free
    | cut output done size finite => exact .inr ⟨output, done, size⟩
  · rintro (none | ⟨output, done, size⟩)
    · exact ⟨s, harvestIdle host (by rw [none]; rfl), none⟩
    · exact ⟨_, harvestReady host done size (fadeFinite sound.parameters sound.short size), rfl⟩

theorem untouchedFits (untouched : Untouched s t) (packet : StereoPacket) :
    FormatFits t packet ↔ FormatFits s packet := by
  rw [FormatFits, untouched.streamSampleRate, untouched.streamChannels, FormatFits]

theorem untouchedTarget (untouched : Untouched s t) (rate : Nat) : target t rate = target s rate := by
  rw [target, untouched.segmentSeconds, target]

theorem untouchedMaximum (untouched : Untouched s t) (packet : StereoPacket) :
    maximumFrames t packet = maximumFrames s packet := by
  rw [maximumFrames, untouched.segmentSeconds, untouched.maxBufferedSegments, maximumFrames]

theorem itemFrames (packets : List StereoPacket) :
    SegmentedInference.frameTotal (items packets) = frameTotal packets := by
  rw [SegmentedInference.frameTotal, items, List.map_map, frameTotal]
  rfl

theorem itemsPrefix {target : Int} {buffer packets left : List StereoPacket}
    (shortest : ShortestPrefix (·.val.frames) target buffer packets left) :
    ShortestPrefix (·.frames) target (items buffer) (items packets) (items left) where
  some none := shortest.some (List.map_eq_nil_iff.mp none)
  whole := by rw [← shortest.whole, items, items, items, List.map_append]
  reaches := by
    rw [items, List.map_map]
    exact shortest.reaches
  shortest fewer cut proper := by
    obtain ⟨front, inside, rfl⟩ := List.prefix_map_iff.mp cut
    rw [List.map_map]
    exact shortest.shortest front inside (fun same => proper (by rw [same, items]))

section Calls
variable {payload : Bytes} {packet : StereoPacket} {maximum frames : Int}

theorem emptyExact (sound : Sound s) (harvest : exec (harvestInference host) s = (.ok (), t))
    (decoded : decodeAndValidate host payload = .ok packet) (fits : FormatFits t packet)
    (room : maximumFrames t packet = .ok maximum)
    (length : target t packet.val.sampleRate = .ok frames) :
    EmptyTarget host s payload ↔ t.inferenceTask = none ∧ frames = 0 := by
  have untouched := harvestTouches harvest
  constructor
  · rintro ⟨other, _, again, idle, _, _, zero⟩
    cases Except.ok.inj (again.symm.trans decoded)
    obtain ⟨_, also, free⟩ := (harvestFree sound).mpr idle
    cases harvest.symm.trans also
    rw [← untouchedTarget untouched, length] at zero
    exact ⟨free, Except.ok.inj zero⟩
  · rintro ⟨free, rfl⟩
    refine ⟨packet, maximum, decoded, (harvestFree sound).mp ⟨t, harvest, free⟩,
      (untouchedFits untouched packet).mp fits, ?_, ?_⟩
    · rw [← untouchedMaximum untouched, room]
    · rw [← untouchedTarget untouched, length]

theorem launchedFormed (sound : Sound t) {u : State} (admits : u = admitted t packet maximum)
    (length : target t packet.val.sampleRate = .ok frames) (positive : 1 ≤ frames)
    (ready : frames ≤ u.inputFrames) :
    let cut := takeSegment (·.val.frames) frames u.inputPackets 0
    Formed (fun _ => 2) frames (items u.inputPackets) (frameTotal u.inputPackets)
      ⟨items cut.1, cut.2.1, (items cut.1).flatMap (·.samples)⟩ (items cut.2.2)
      (u.inputFrames - cut.2.1) := by
  have total : u.inputFrames = frameTotal u.inputPackets := by
    rw [admits]
    exact (soundAdmitted sound packet maximum).frames
  rw [total] at ready
  have shortest := itemsPrefix
    (takenPrefix (fun packet : StereoPacket => packet.val.frames) positive ready)
  obtain ⟨_, sum⟩ := takenSegment (·.val.frames) frames u.inputPackets 0
  have room := targetRoom length
  rw [Int.max_eq_right positive] at room
  have counted : (takeSegment (·.val.frames) frames u.inputPackets 0).2.1 =
      SegmentedInference.frameTotal (items (takeSegment (·.val.frames) frames u.inputPackets 0).1) := by
    rw [itemFrames, sum, Int.zero_add, frameTotal]
  refine ⟨shortest, counted, rfl, ?_, formedInfers _ shortest counted room⟩
  rw [Int.sub_add_cancel, total]

theorem takenNothing {α : Type} (framesOf : α → Nat) (packets : List α) :
    (takeSegment framesOf 0 packets 0).1 = [] := by
  cases packets <;> simp [takeSegment]

theorem admitsFormed (sound : Sound s) (harvest : exec (harvestInference host) s = (.ok (), t))
    (decoded : decodeAndValidate host payload = .ok packet)
    (length : target t packet.val.sampleRate = .ok frames)
    (call : (callProcess host payload s).2 =
      popped (launchedWhenReady (admitted t packet maximum) frames)) :
    LaunchFormed host s payload ↔ ¬ (t.inferenceTask = none ∧ frames = 0) := by
  have untouched := harvestTouches harvest
  have settled := soundSettles untouched.toSettles sound
  obtain ⟨count, _, line, dropped, _⟩ := admittedExact packet maximum settled.frames
  have longest := targetPositive settled.parameters length
  have same : (admitted t packet maximum).segmentsStarted = s.segmentsStarted :=
    untouched.segmentsStarted
  have buffered := (soundAdmitted settled packet maximum).frames
  unfold LaunchFormed
  simp only [call]
  by_cases launches : (admitted t packet maximum).inferenceTask.isNone ∧
      frames ≤ (admitted t packet maximum).inputFrames
  · rw [launchedWhenReady, if_pos launches]
    have free : t.inferenceTask = none := Option.isNone_iff_eq_none.mp launches.1
    constructor
    · rintro formed ⟨_, rfl⟩
      obtain ⟨_, _, segment, _, _, _, _, _, active, form⟩ := formed (by
        change (admitted t packet maximum).segmentsStarted + 1 ≠ _
        omega)
      refine form.some (active.symm.trans ?_)
      change items (takeSegment _ 0 _ 0).1 = []
      rw [takenNothing]
      rfl
    · intro some _
      have positive : 1 ≤ frames := by
        have nonzero : frames ≠ 0 := fun zero => some ⟨free, zero⟩
        omega
      have form := launchedFormed settled rfl length positive launches.2
      refine ⟨packet, frames, _, (admitted t packet maximum).inputPackets, decoded, ?_, ?_, rfl, rfl, ?_⟩
      · rw [← untouched.segmentSeconds]
        exact length
      · have less : (admitted t packet maximum).droppedPackets - s.droppedPackets = count := by
          rw [dropped, untouched.droppedPackets]
          omega
        change _ = (s.inputPackets ++ [packet]).drop
          ((admitted t packet maximum).droppedPackets - s.droppedPackets)
        rw [less, line, untouched.inputPackets]
      · rw [Int.max_eq_right positive]
        exact form
  · rw [launchedWhenReady, if_neg launches]
    refine ⟨?_, fun _ started => absurd same started⟩
    rintro - ⟨free, rfl⟩
    refine launches ⟨Option.isNone_iff_eq_none.mpr free, ?_⟩
    rw [buffered]
    exact Int.natCast_nonneg _

theorem processFormed (sound : Sound s) (payload : Bytes) :
    LaunchFormed host s payload ↔ ¬ EmptyTarget host s payload := by
  have cases := callCases host payload s
  have quiet {call : Option (List ProcessedPacket) × State} (going : callProcess host payload s = call)
      (same : call.2.segmentsStarted = s.segmentsStarted) : LaunchFormed host s payload := by
    intro started
    exact absurd ((congrArg (fun call => call.2.segmentsStarted) going).trans same) started
  generalize going : callProcess host payload s = call at cases
  cases cases with
  | harvestRaised e t raised =>
    refine iff_of_true (quiet going (harvestTouches raised).segmentsStarted) ?_
    rintro ⟨_, _, _, idle, _⟩
    obtain ⟨_, harvest, _⟩ := (harvestFree sound).mpr idle
    cases raised.symm.trans harvest
  | invalid e t harvest refused =>
    refine iff_of_true (quiet going (harvestTouches harvest).segmentsStarted) ?_
    rintro ⟨_, _, decoded, _⟩
    cases refused.symm.trans decoded
  | formatChanged t packet harvest decoded differs =>
    refine iff_of_true (quiet going (harvestTouches harvest).segmentsStarted) ?_
    rintro ⟨other, _, again, _, fits, _⟩
    cases Except.ok.inj (again.symm.trans decoded)
    exact differs ((untouchedFits (harvestTouches harvest) packet).mpr fits)
  | limitRaised t packet harvest decoded fits infinite =>
    have untouched := harvestTouches harvest
    refine iff_of_true (quiet going untouched.segmentsStarted) ?_
    rintro ⟨other, maximum, again, _, _, room, _⟩
    cases Except.ok.inj (again.symm.trans decoded)
    have finite := (limitDefined s packet).mp ⟨maximum, room⟩
    rw [← settledLimit untouched.toSettles, infinite] at finite
    contradiction
  | admits t packet maximum frames harvest decoded fits room length =>
    rw [emptyExact sound harvest decoded fits room length]
    exact admitsFormed sound harvest decoded length (congrArg Prod.snd going)

end Calls

theorem launchesFormed (host : HostOrder) (model : SegmentModel) (segmentSeconds : Float)
    (config : MDX23CVocalsConfig) (checked : config.checked = .ok config) (events : List Event)
    (payload : Bytes) :
    SegmentedInference.LaunchFormed host model
      (SegmentedInference.baseRun host model segmentSeconds events) payload ∧
    (LaunchFormed host (run host (newState config) events) payload ↔
      ¬ EmptyTarget host (run host (newState config) events) payload) :=
  ⟨SegmentedInference.processFormed host model
      (SegmentedInference.runCounted host model segmentSeconds events) payload,
    processFormed (runSound checked events) payload⟩

theorem launchesFormedQuarter :
    LaunchFormed .little (run .little (newState quarterSecond) []) slowFrame := by
  refine (launchesFormed .little SegmentedInference.htdemucs 0.25 quarterSecond (by rfl) []
    slowFrame).2.mpr ?_
  rintro ⟨packet, _, decoded, _, _, _, zero⟩
  cases Except.ok.inj decoded
  exact absurd zero (by decide +kernel)

def slowestFrame : Bytes :=
  magic ++ [1, 0, 2, 1, 0, 0, 0, 1] ++ List.replicate 12 0 ++ [0, 1, 0, 0] ++ List.replicate 8 0

theorem emptySegment : ¬ ∀ (config : MDX23CVocalsConfig), config.checked = .ok config →
    ∀ events payload, LaunchFormed .little (run .little (newState config) events) payload := by
  intro formed
  have some := formed quarterSecond (by rfl) [] slowestFrame
  refine (processFormed (runSound (by rfl) []) slowestFrame).mp some ?_
  exact ⟨_, 1, rfl, .inl rfl, nofun, by decide +kernel, by decide +kernel⟩

end KaraokeAnything.Mdx23cVocals
