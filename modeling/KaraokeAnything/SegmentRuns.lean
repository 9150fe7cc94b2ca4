import KaraokeAnything.Mdx23cAgreement

/-! What holds of both copies of the segment machinery in every run, whatever packets,
resets and inference results come: the frame counter is right, and a segment of MDX23C
is short enough for its crossfade to be rounded. -/
namespace KaraokeAnything.SegmentedInference
open ByteOrder Kany Models Python Stateful

variable {host : HostOrder} {model : SegmentModel} {s t : State}

def frameTotal (packets : List KanyPacket) : Nat := (packets.map (·.frames)).sum

structure Untouched (s t : State) : Prop where
  inputPackets : t.inputPackets = s.inputPackets
  inputFrames : t.inputFrames = s.inputFrames
  segmentSeconds : t.segmentSeconds = s.segmentSeconds
  segmentsStarted : t.segmentsStarted = s.segmentsStarted

theorem harvestTouches {result : Except PyError Unit}
    (harvest : exec (harvestInference host model) s = (result, t)) : Untouched s t := by
  have cases := harvestCases host model s
  rw [harvest] at cases
  cases cases with
  | idle running => exact ⟨rfl, rfl, rfl, rfl⟩
  | cut separated done size => exact ⟨rfl, rfl, rfl, rfl⟩
  | lost outcome done failed => exact ⟨rfl, rfl, rfl, rfl⟩

def Counted (s : State) : Prop := s.inputFrames = frameTotal s.inputPackets

theorem untouchedCounted (untouched : Untouched s t) (counted : Counted s) : Counted t := by
  rw [Counted, untouched.inputFrames, untouched.inputPackets]
  exact counted

theorem queuedCounted (counted : Counted s) (packet : KanyPacket) : Counted (queued s packet) := by
  rw [Counted] at counted ⊢
  simp [queued, counted, frameTotal]

theorem launchedCounted (counted : Counted s) (frames : Int) : Counted (launched s frames) := by
  obtain ⟨split, total⟩ := takenSegment (·.frames) frames s.inputPackets 0
  rw [Counted, split, frameTotal, List.map_append, List.sum_append] at counted
  simp only [Counted, launched, counted, total, frameTotal]
  omega

theorem nextCounted (counted : Counted s) (event : Mdx23cVocals.Event) :
    Counted (Mdx23cVocals.baseNext host model s event).2 := by
  cases event with
  | process payload =>
    have cases := callCases host model payload s
    rw [Mdx23cVocals.baseNext]
    generalize exec (process host model payload) s = call at cases
    cases cases with
    | harvestRaised e t raised => exact untouchedCounted (harvestTouches raised) counted
    | invalid e t harvest refused => exact untouchedCounted (harvestTouches harvest) counted
    | formatChanged e t packet harvest decoded differs =>
      exact untouchedCounted (harvestTouches harvest) counted
    | targetRaised e t packet harvest decoded fits free raises =>
      exact queuedCounted (untouchedCounted (harvestTouches harvest) counted) packet
    | waits t packet harvest decoded fits waiting =>
      exact queuedCounted (untouchedCounted (harvestTouches harvest) counted) packet
    | launches t packet frames harvest decoded fits free known ready =>
      exact launchedCounted
        (queuedCounted (untouchedCounted (harvestTouches harvest) counted) packet) frames
  | flush =>
    rw [Mdx23cVocals.baseNext]
    rcases flushCases host model s with ⟨e, t, raised, call⟩ | ⟨t, harvest, call⟩
    · rw [call]
      exact untouchedCounted (harvestTouches raised) counted
    · have kept : Counted t := untouchedCounted (harvestTouches harvest) counted
      rw [call]
      exact kept
  | reset => rfl
  | inferenceEnds outcome =>
    rw [Mdx23cVocals.baseNext]
    cases ends : inferenceEnds outcome s with
    | none => exact counted
    | some t =>
      obtain ⟨segment, _, rfl⟩ := inferenceEnded ends
      exact counted

def baseRun (host : HostOrder) (model : SegmentModel) (segmentSeconds : Float)
    (events : List Mdx23cVocals.Event) : State :=
  Lockstep.final (Mdx23cVocals.baseNext host model) { segmentSeconds } events

theorem runCounted (host : HostOrder) (model : SegmentModel) (segmentSeconds : Float)
    (events : List Mdx23cVocals.Event) : Counted (baseRun host model segmentSeconds events) := by
  induction events using List.reverseRecOn with
  | nil => rfl
  | append_singleton events event ih =>
    rw [baseRun, Lockstep.finalSnoc]
    exact nextCounted ih event

end KaraokeAnything.SegmentedInference

namespace KaraokeAnything.Mdx23cVocals
open ByteOrder Kany Models Python Stateful
open Processors (MDX23CVocalsConfig)
open SegmentedInference (InferenceOutcome takenSegment)

variable {host : HostOrder} {s t : State}

structure Sound (s : State) : Prop where
  parameters : Parameters s
  frames : s.inputFrames = frameTotal s.inputPackets
  short : frameTotal s.activePackets < 2 ^ 40

theorem soundSettles (settles : Settles s t) (sound : Sound s) : Sound t where
  parameters := parametersSettle settles sound.parameters
  frames := by rw [settles.inputFrames, settles.inputPackets, sound.frames]
  short := by
    rcases settles.active with same | none
    · rw [same]
      exact sound.short
    · rw [none]
      exact Nat.two_pow_pos 40

theorem soundPushed (sound : Sound s) (packet : StereoPacket) :
    Sound (pushed (withFormat s packet) packet) := by
  refine ⟨⟨sound.parameters.seconds, sound.parameters.twoSeconds, sound.parameters.overlap⟩, ?_,
    sound.short⟩
  simp [pushed, withFormat, sound.frames, frameTotal]

theorem soundAdmitted (sound : Sound s) (packet : StereoPacket) (maximum : Int) :
    Sound (admitted s packet maximum) := by
  obtain ⟨_, _, _, _, total, _⟩ := admittedExact packet maximum sound.frames
  exact ⟨⟨sound.parameters.seconds, sound.parameters.twoSeconds, sound.parameters.overlap⟩,
    total, sound.short⟩

theorem soundLaunched (sound : Sound s) {frames : Int} (small : frames ≤ 2 ^ 38) :
    Sound (launchedWhenReady s frames) := by
  unfold launchedWhenReady
  split
  · have most := takenFrames frames s.inputPackets 0
    obtain ⟨split, sum⟩ := takenSegment (·.val.frames) frames s.inputPackets 0
    have total := sound.frames
    rw [split, frameTotalAppend] at total
    refine ⟨⟨sound.parameters.seconds, sound.parameters.twoSeconds, sound.parameters.overlap⟩, ?_, ?_⟩
    · simp only [launched, total, sum, frameTotal]
      omega
    · simp only [launched, frameTotal]
      omega
  · exact sound

theorem soundClear (sound : Sound s) : Sound (clear s) :=
  ⟨⟨sound.parameters.seconds, sound.parameters.twoSeconds, sound.parameters.overlap⟩, rfl,
    Nat.two_pow_pos 40⟩

theorem nextSound (sound : Sound s) (event : Event) : Sound (next host s event).2 := by
  cases event with
  | process payload =>
    have cases := callCases host payload s
    rw [next]
    generalize callProcess host payload s = call at cases
    cases cases with
    | harvestRaised e t raised => exact soundSettles (harvestedSettles raised) sound
    | invalid e t harvest refused => exact soundSettles (harvestedSettles harvest) sound
    | formatChanged t packet harvest decoded differs =>
      exact soundClear (soundSettles (harvestedSettles harvest) sound)
    | limitRaised t packet harvest decoded fits infinite =>
      exact soundPushed (soundSettles (harvestedSettles harvest) sound) packet
    | admits t packet maximum frames harvest decoded fits room length =>
      have settled := soundSettles (harvestedSettles harvest) sound
      have small := targetSmall settled.parameters packet.val.sampleRateRange.2 length
      exact soundSettles (poppedSettles _)
        (soundLaunched (soundAdmitted settled packet maximum) small)
  | flush =>
    rcases flushCases host s with ⟨e, t, raised, call⟩ | ⟨t, harvest, call⟩
    · rw [next, call]
      exact soundSettles (harvestedSettles raised) sound
    · rw [next, call]
      exact soundSettles (drainedSettles t) (soundSettles (harvestedSettles harvest) sound)
  | reset =>
    have cleared : clear (cancelInference s) = clear s := rfl
    rw [next, cleared]
    exact soundClear sound
  | inferenceEnds outcome => exact soundSettles (endedSettles outcome s) sound

theorem runSound {config : MDX23CVocalsConfig} (checked : config.checked = .ok config)
    (events : List Event) : Sound (run host (newState config) events) := by
  induction events using List.reverseRecOn with
  | nil => exact ⟨checkedParameters checked, rfl, Nat.two_pow_pos 40⟩
  | append_singleton events event ih =>
    rw [runSnoc]
    exact nextSound ih event

end KaraokeAnything.Mdx23cVocals
