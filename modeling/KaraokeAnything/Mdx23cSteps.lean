import KaraokeAnything.Mdx23cVocals
import KaraokeAnything.Rounding
import KaraokeAnything.SegmentedSteps

/-! What each method of MDX23C does to the object, one equation for each way it can
go, and the cases of a whole call. -/
namespace KaraokeAnything.Mdx23cVocals
open ByteOrder Kany Models Python Stateful
open SegmentedInference (InferenceOutcome InferenceTask decodeStereoOk encodeSamplesOk slices
  takeSegment takenSegment)

def items (packets : List StereoPacket) : List KanyPacket := packets.map (·.val)

def frameTotal (packets : List StereoPacket) : Nat := (packets.map (·.val.frames)).sum

theorem sampleTotalItems (packets : List StereoPacket) :
    sampleTotal packets = SegmentedInference.sampleTotal (items packets) := by
  rw [sampleTotal, SegmentedInference.sampleTotal, items, List.map_map]
  exact congrArg List.sum (List.map_congr_left (fun packet _ => by simp [packet.property]))

theorem sampleTotalFrames (packets : List StereoPacket) :
    sampleTotal packets = frameTotal packets * 2 := by
  induction packets with
  | nil => rfl
  | cons packet rest ih =>
    simp only [sampleTotal, frameTotal, List.map_cons, List.sum_cons] at ih ⊢
    omega

theorem validated {host : HostOrder} {payload : Bytes} {packet : StereoPacket} :
    decodeAndValidate host payload = .ok packet ↔ decode host payload = .ok packet.val := by
  unfold decodeAndValidate
  split
  · rename_i e refused
    refine ⟨nofun, fun decoded => ?_⟩
    rw [decodeStereoOk.mpr ⟨decoded, packet.property⟩] at refused
    contradiction
  · rename_i other decoded
    have known := (decodeStereoOk.mp decoded).1
    refine ⟨fun same => ?_, fun same => ?_⟩
    · cases Except.ok.inj same
      exact known
    · have equal := Except.ok.inj (known.symm.trans same)
      exact congrArg Except.ok (Subtype.ext equal)

theorem inferenceEnded {outcome : InferenceOutcome} {s t : State}
    (ends : inferenceEnds outcome s = some t) : ∃ segment, s.inferenceTask = some ⟨segment, none⟩ ∧
      t = { s with inferenceTask := some ⟨segment, some outcome⟩ } := by
  unfold inferenceEnds at ends
  split at ends
  · rename_i segment running
    exact ⟨segment, running, (Option.some.inj ends).symm⟩
  · contradiction

section Harvest

def fadeLength (s : State) (output : List UInt32) : Float :=
  Float.ofNat (output.length / 2) * s.overlap

def overlapFrames (s : State) (output : List UInt32) : Nat :=
  match round (fadeLength s output) with
  | .ok wanted => (min wanted (output.length / 2 / 2 : Nat)).toNat
  | .error _ => 0

def crossfaded (s : State) (output : List UInt32) : List UInt32 :=
  fade s (overlapFrames s output) output

def tailOf (s : State) (output : List UInt32) : Option (List UInt32) :=
  let samples := overlapFrames s output * 2
  if samples = 0 then none
  else some ((crossfaded s output).drop ((crossfaded s output).length - samples))

theorem crossfadeFramesLength (overlapFrames frame : Nat) (tail output : List UInt32) :
    (crossfadeFrames overlapFrames frame tail output).length = output.length := by
  fun_induction crossfadeFrames overlapFrames frame tail output with
  | case1 frame tailLeft tailRight tail left right rest inside alpha mix ih => simp [ih]
  | case2 => rfl
  | case3 => rfl

theorem crossfadedLength (s : State) (output : List UInt32) :
    (crossfaded s output).length = output.length := by
  unfold crossfaded fade
  split
  · exact crossfadeFramesLength _ _ _ _
  · rfl

theorem crossfadeRaises {s : State} {output : List UInt32}
    (infinite : (fadeLength s output).isFinite = false) :
    ∃ e, exec (crossfade output) s = (.error e, s) := by
  have undefined := roundDefined (fadeLength s output)
  cases rounded : round (fadeLength s output) with
  | ok wanted =>
    rw [rounded, infinite] at undefined
    simp at undefined
  | error e =>
    refine ⟨e, ?_⟩
    rw [crossfade, execBindOk (execGet s)]
    exact execBindError ((execOfExcept _ s).trans (by rw [← rounded]; rfl))

theorem crossfadeExact {s : State} {output : List UInt32}
    (finite : (fadeLength s output).isFinite = true) :
    exec (crossfade output) s =
      (.ok (crossfaded s output), { s with previousTail := tailOf s output }) := by
  obtain ⟨wanted, rounded⟩ := (roundDefined _).mpr finite
  have frames : overlapFrames s output = (min wanted (output.length / 2 / 2 : Nat)).toNat := by
    rw [overlapFrames, rounded]
  have first : exec (ofExcept (round (Float.ofNat (output.length / 2) * s.overlap)) : Method Int) s =
      (.ok wanted, s) := (execOfExcept _ s).trans (by rw [← rounded]; rfl)
  rw [crossfade, execBindOk (execGet s), execBindOk first]
  simp only [← frames]
  rfl

theorem distributeExact (host : HostOrder) (output : List UInt32) (packets : List StereoPacket)
    (offset : Nat) (s : State) (enough : offset + sampleTotal packets ≤ output.length) :
    exec (distributePackets host output packets offset) s = (.ok (), { s with
      readyOutput := s.readyOutput ++ slices output (items packets) offset }) := by
  induction packets generalizing offset s with
  | nil => simp [distributePackets, items, slices]
  | cons original rest ih =>
    simp only [sampleTotal, List.map_cons, List.sum_cons] at enough
    have count : ((output.drop offset).take (original.val.frames * 2)).length =
        original.val.channels * original.val.frames := by
      rw [List.length_take, List.length_drop, original.property]
      omega
    have tail : offset + original.val.frames * 2 + sampleTotal rest ≤ output.length := by
      simp only [sampleTotal]
      omega
    rw [distributePackets, encodeSamplesOk count]
    simp only [Except.mapError, execBind, execOfExcept, execModify, ih _ _ tail, items,
      List.map_cons, slices, original.property, List.append_assoc, List.singleton_append]

variable (host : HostOrder)

theorem harvestIdle {s : State} (idle : s.inferenceTask.bind (·.outcome) = none) :
    exec (harvestInference host) s = (.ok (), s) := by
  simp only [harvestInference, execBind, execGet, idle, execPure]

def harvested (s : State) (output : List UInt32) : State :=
  { s with
    inferenceTask := none
    activePackets := []
    readyOutput := s.readyOutput ++ slices (crossfaded s output) (items s.activePackets) 0
    previousTail := tailOf s output
    segmentsCompleted := s.segmentsCompleted + 1
    lastError := none }

theorem harvestReady {s : State} {output : List UInt32}
    (done : s.inferenceTask.bind (·.outcome) = some (.returned output))
    (size : output.length = sampleTotal s.activePackets)
    (finite : (fadeLength s output).isFinite = true) :
    exec (harvestInference host) s = (.ok (), harvested s output) := by
  let t := { s with inferenceTask := none }
  have fades : exec (crossfade output) t =
      (.ok (crossfaded s output), { t with previousTail := tailOf s output }) :=
    crossfadeExact (s := t) finite
  have enough : 0 + sampleTotal s.activePackets ≤ (crossfaded s output).length := by
    rw [crossfadedLength]
    omega
  have settled : exec (distributeSegmentOutput host output) t = (.ok (), { t with
      previousTail := tailOf s output
      readyOutput := t.readyOutput ++ slices (crossfaded s output) (items s.activePackets) 0 }) := by
    simp only [distributeSegmentOutput, execBind, execGet, t, size, ne_eq, not_true_eq_false,
      if_false]
    rw [fades]
    exact distributeExact host _ _ 0 _ enough
  have opened : exec (harvestInference host) s =
      exec (distributeSegmentOutput host output >>= fun _ => finishSegment) t := by
    simp only [harvestInference, execBind, execGet, done, execModify, awaitSegmentResult,
      execPure, t]
  rw [opened, execBindOk settled, finishSegment, execModify]
  rfl

def Failed (s : State) : InferenceOutcome → Prop
  | .returned output => output.length ≠ sampleTotal s.activePackets
  | .raised _ => True
  | .cancelled => False

def afterFailure (s : State) (outcome : InferenceOutcome) : State :=
  { s with
    inferenceTask := none
    activePackets := []
    lastError := match outcome with
      | .raised text => some text
      | _ => s.lastError }

theorem harvestFailed {s : State} {outcome : InferenceOutcome}
    (done : s.inferenceTask.bind (·.outcome) = some outcome) (failed : Failed s outcome) :
    ∃ e, exec (harvestInference host) s = (.error e, afterFailure s outcome) := by
  cases outcome with
  | cancelled => exact failed.elim
  | raised text =>
    refine ⟨.runtimeError s!"MDX23C inference failed: {text}", ?_⟩
    simp only [harvestInference, execBind, execGet, done, execModify, awaitSegmentResult, execThrow]
    rfl
  | returned output =>
    have size : output.length ≠ sampleTotal s.activePackets := failed
    refine ⟨.runtimeError
      s!"MDX23C returned {output.length} samples; expected {sampleTotal s.activePackets}", ?_⟩
    simp only [harvestInference, execBind, execGet, done, execModify, awaitSegmentResult, execPure,
      distributeSegmentOutput, if_pos size, execThrow]
    rfl

/- A cancelled inference, or a length that cannot be rounded, leaves the segment there. -/
theorem harvestStuck {s : State} {outcome : InferenceOutcome}
    (done : s.inferenceTask.bind (·.outcome) = some outcome) (kept : ¬ Failed s outcome)
    (infinite : ∀ output, outcome = .returned output → (fadeLength s output).isFinite = false) :
    ∃ e, exec (harvestInference host) s = (.error e, { s with inferenceTask := none }) := by
  cases outcome with
  | cancelled =>
    refine ⟨.cancelledError, ?_⟩
    simp only [harvestInference, execBind, execGet, done, execModify, awaitSegmentResult, execThrow]
  | raised text => exact absurd trivial kept
  | returned output =>
    let t := { s with inferenceTask := none }
    have size : output.length = sampleTotal t.activePackets := by_contra kept
    obtain ⟨e, fails⟩ := crossfadeRaises (s := t) (infinite output rfl)
    have raised : exec (distributeSegmentOutput host output) t = (.error e, t) := by
      simp only [distributeSegmentOutput, execBind, execGet, size, ne_eq, not_true_eq_false,
        if_false]
      rw [fails]
    refine ⟨e, ?_⟩
    have opened : exec (harvestInference host) s =
        exec (distributeSegmentOutput host output >>= fun _ => finishSegment) t := by
      simp only [harvestInference, execBind, execGet, done, execModify, awaitSegmentResult,
        execPure, t]
    rw [opened, execBindError raised]

inductive Harvests (s : State) : Except PyError Unit × State → Prop where
  | idle (running : s.inferenceTask.bind (·.outcome) = none) : Harvests s (.ok (), s)
  | cut (output : List UInt32)
    (done : s.inferenceTask.bind (·.outcome) = some (.returned output))
    (size : output.length = sampleTotal s.activePackets)
    (finite : (fadeLength s output).isFinite = true) : Harvests s (.ok (), harvested s output)
  | lost (outcome : InferenceOutcome) (e : PyError)
    (done : s.inferenceTask.bind (·.outcome) = some outcome) (failed : Failed s outcome) :
    Harvests s (.error e, afterFailure s outcome)
  | stuck (outcome : InferenceOutcome) (e : PyError)
    (done : s.inferenceTask.bind (·.outcome) = some outcome) (kept : ¬ Failed s outcome)
    (infinite : ∀ output, outcome = .returned output → (fadeLength s output).isFinite = false) :
    Harvests s (.error e, { s with inferenceTask := none })

theorem harvestCases (s : State) : Harvests s (exec (harvestInference host) s) := by
  cases done : s.inferenceTask.bind (·.outcome) with
  | none =>
    rw [harvestIdle host done]
    exact .idle done
  | some outcome =>
    by_cases failed : Failed s outcome
    · obtain ⟨e, raised⟩ := harvestFailed host done failed
      rw [raised]
      exact .lost outcome e done failed
    · by_cases fades : ∃ output, outcome = .returned output ∧ (fadeLength s output).isFinite = true
      · obtain ⟨output, rfl, finite⟩ := fades
        have size : output.length = sampleTotal s.activePackets := by_contra failed
        rw [harvestReady host done size finite]
        exact .cut output done size finite
      · have infinite (output : List UInt32) (same : outcome = .returned output) :
            (fadeLength s output).isFinite = false := by
          rw [← Bool.not_eq_true]
          exact fun finite => fades ⟨output, same, finite⟩
        obtain ⟨e, stuck⟩ := harvestStuck host done failed infinite
        rw [stuck]
        exact .stuck outcome e done failed infinite

end Harvest

section Buffer

def withFormat (s : State) (packet : StereoPacket) : State :=
  { s with
    streamSampleRate := some packet.val.sampleRate, streamChannels := some packet.val.channels }

def FormatFits (s : State) (packet : StereoPacket) : Prop :=
  ∀ rate, s.streamSampleRate = some rate →
    packet.val.sampleRate = rate ∧ some packet.val.channels = s.streamChannels

theorem trackFits {s : State} {packet : StereoPacket} (fits : FormatFits s packet) :
    exec (trackStreamFormat packet) s = (.ok true, withFormat s packet) := by
  cases known : s.streamSampleRate with
  | none => simp only [trackStreamFormat, execBind, execGet, known, execModify, execPure, withFormat]
  | some rate =>
    obtain ⟨sameRate, sameChannels⟩ := fits rate known
    have same : withFormat s packet = s := by
      simp only [withFormat, sameRate, ← known, sameChannels]
    simp only [trackStreamFormat, execBind, execGet, known, sameRate, sameChannels, ne_eq,
      not_true_eq_false, or_self, if_false, execPure, same]

theorem trackChanged {s : State} {packet : StereoPacket} (differs : ¬ FormatFits s packet) :
    exec (trackStreamFormat packet) s = (.ok false, cancelInference s) ∨
      exec (trackStreamFormat packet) s = (.error formatChanged, clear s) := by
  cases known : s.streamSampleRate with
  | none => exact absurd (fun rate h => by rw [known] at h; contradiction) differs
  | some rate =>
    have changed : packet.val.sampleRate ≠ rate ∨ some packet.val.channels ≠ s.streamChannels := by
      by_contra same
      simp only [not_or, ne_eq, not_not] at same
      refine differs (fun other h => ?_)
      rw [known] at h
      cases Option.some.inj h
      exact same
    simp only [trackStreamFormat, execBind, execGet, known, if_pos changed]
    cases running : s.inferenceTask.isSome with
    | true =>
      left
      simp only [if_true, execBind, execModify, execPure]
    | false =>
      right
      simp only [Bool.false_eq_true, if_false, execBind, execModify, execThrow]

def pushed (s : State) (packet : StereoPacket) : State :=
  { s with
    inputPackets := s.inputPackets ++ [packet]
    inputFrames := s.inputFrames + packet.val.frames }

def maximumFrames (s : State) (packet : StereoPacket) : Except PyError Int :=
  intToFloat s.maxBufferedSegments >>= fun segments =>
    round (Float.ofNat packet.val.sampleRate * s.segmentSeconds * segments)

def trimmed (s : State) (maximum : Int) : State :=
  let cut := dropOldest maximum s.inputPackets s.inputFrames
  { s with
    inputPackets := cut.1, inputFrames := cut.2.1, droppedPackets := s.droppedPackets + cut.2.2 }

/- The packet is in the buffer before its limit is computed, which can raise. -/
theorem bufferExact (packet : StereoPacket) (s : State) : exec (bufferPacket packet) s =
    match maximumFrames s packet with
    | .ok maximum => (.ok (), trimmed (pushed s packet) maximum)
    | .error e => (.error e, pushed s packet) := by
  have head : exec (modify fun s => pushed s packet : Method Unit) s = (.ok (), pushed s packet) :=
    execModify _ s
  rw [bufferPacket]
  change exec ((modify fun s => pushed s packet) >>= fun _ => _) s = _
  rw [execBindOk head, execBindOk (execGet _), maximumFrames]
  change exec (ofExcept (intToFloat s.maxBufferedSegments) >>= _) (pushed s packet) = _
  cases intToFloat s.maxBufferedSegments with
  | error e => exact execBindError (execOfExcept _ _)
  | ok segments =>
    rw [execBindOk (execOfExcept _ _)]
    change exec (ofExcept (round (Float.ofNat packet.val.sampleRate * s.segmentSeconds * segments))
      >>= _) (pushed s packet) = match Python.round _ with | .ok _ => _ | .error _ => _
    cases round (Float.ofNat packet.val.sampleRate * s.segmentSeconds * segments) with
    | error e => exact execBindError (execOfExcept _ _)
    | ok maximum => exact execBindOk (execOfExcept _ _)

theorem dropOldestExact (maximum : Int) (packets : List StereoPacket) (frames : Int) :
    let cut := dropOldest maximum packets frames
    cut.1 = packets.drop cut.2.2 ∧ cut.2.2 ≤ packets.length ∧
      cut.2.1 = frames - frameTotal (packets.take cut.2.2) ∧
      (cut.2.1 ≤ maximum ∨ cut.1 = []) ∧
      ∀ fewer < cut.2.2, maximum < frames - frameTotal (packets.take fewer) := by
  induction packets generalizing frames with
  | nil => simp [dropOldest, frameTotal]
  | cons oldest rest ih =>
    obtain ⟨kept, inside, total, fits, fewest⟩ := ih (frames - oldest.val.frames)
    have step (count : Nat) : frames - frameTotal ((oldest :: rest).take (count + 1)) =
        frames - oldest.val.frames - frameTotal (rest.take count) := by
      simp only [frameTotal, List.take_succ_cons, List.map_cons, List.sum_cons]
      omega
    simp only [dropOldest]
    split
    · rename_i full
      refine ⟨kept, Nat.succ_le_succ inside, total.trans (step _).symm, fits, fun fewer less => ?_⟩
      cases fewer with
      | zero => simpa [frameTotal] using full
      | succ fewer =>
        rw [step]
        exact fewest fewer (Nat.lt_of_succ_lt_succ less)
    · rename_i room
      exact ⟨rfl, Nat.zero_le _, by simp [frameTotal], .inl (Int.not_lt.mp room), nofun⟩

end Buffer

section Launch

def target (s : State) (rate : Nat) : Except PyError Int :=
  round (Float.ofNat rate * s.segmentSeconds)

theorem targetExact {s : State} {rate : Nat} (known : s.streamSampleRate = some rate) :
    exec targetSegmentFrames s = (target s rate, s) := by
  simp only [targetSegmentFrames, execBind, execGet, known]
  exact execOfExcept _ s

def launched (s : State) (frames : Int) : State :=
  let cut := takeSegment (·.val.frames) frames s.inputPackets 0
  { s with
    inputPackets := cut.2.2
    inputFrames := s.inputFrames - cut.2.1
    activePackets := cut.1
    segmentsStarted := s.segmentsStarted + 1
    inferenceTask := some ⟨⟨items cut.1, cut.2.1, (items cut.1).flatMap (·.samples)⟩, none⟩ }

theorem launchBusy {s : State} {task : InferenceTask} (busy : s.inferenceTask = some task) :
    exec launchWhenReady s = (.ok (), s) := by
  simp [launchWhenReady, execBind, busy]

theorem launchExact {s : State} {rate : Nat} {frames : Int} (free : s.inferenceTask = none)
    (known : s.streamSampleRate = some rate) (length : target s rate = .ok frames) :
    exec launchWhenReady s =
      (.ok (), if frames ≤ s.inputFrames then launched s frames else s) := by
  have computed := (targetExact known).trans (by rw [length])
  simp only [launchWhenReady, execBind, execGet, free, Option.isNone_none, if_true, computed]
  split
  · simp only [launchSegment, execBind, computed, execModify]
    rfl
  · exact execPure _ _

def popped (s : State) : State :=
  { s with
    readyOutput := s.readyOutput.drop 1
    underruns := if s.readyOutput = [] ∧ s.inferenceTask.isSome then s.underruns + 1
      else s.underruns }

theorem popExact (s : State) : exec popReady s = (.ok (s.readyOutput.take 1), popped s) := by
  cases ready : s.readyOutput with
  | cons first rest =>
    simp only [popReady, execBind, execGet, ready, execModify, execPure, popped]
    simp
  | nil =>
    cases running : s.inferenceTask.isSome with
    | true =>
      simp only [popReady, execBind, execGet, ready, running, if_true, execModify, execPure, popped]
      simp
    | false =>
      have same : popped s = s := by
        cases s
        simp_all [popped]
      simp [popReady, execBind, execGet, ready, running, execPure, same]

end Launch

section Calls

/- A whole `process` call, with what it does once a reset it awaits is through: its outputs,
or none where it raises. -/
def callProcess (host : HostOrder) (payload : Bytes) (s : State) :
    Option (List ProcessedPacket) × State :=
  match exec (process host payload) s with
  | (.ok (some outputs), t) => (some outputs, t)
  | (.ok none, t) => (none, clear t)
  | (.error _, t) => (none, t)

def callFlush (host : HostOrder) (s : State) : Option (List ProcessedPacket) × State :=
  match exec (flush host) s with
  | (.ok outputs, t) => (some outputs, t)
  | (.error _, t) => (none, t)

def limit (s : State) (rate : Nat) : Float :=
  Float.ofNat rate * s.segmentSeconds * Float.ofInt s.maxBufferedSegments

theorem limitDefined (s : State) (packet : StereoPacket) :
    (∃ maximum, maximumFrames s packet = .ok maximum) ↔
      (limit s packet.val.sampleRate).isFinite = true := scaledDefined _ _

theorem targetDefined {s : State} {rate : Nat} (finite : (limit s rate).isFinite = true) :
    ∃ frames, target s rate = .ok frames := (roundDefined _).mpr (Binary64.mulFinite finite).1

def admitted (s : State) (packet : StereoPacket) (maximum : Int) : State :=
  trimmed (pushed (withFormat s packet) packet) maximum

def launchedWhenReady (s : State) (frames : Int) : State :=
  if s.inferenceTask.isNone ∧ frames ≤ s.inputFrames then launched s frames else s

def answered (s : State) (frames : Int) : Option (List ProcessedPacket) × State :=
  let u := launchedWhenReady s frames
  (some (u.readyOutput.take 1), popped u)

theorem launchedExact {s : State} {rate : Nat} {frames : Int} (known : s.streamSampleRate = some rate)
    (length : target s rate = .ok frames) :
    exec launchWhenReady s = (.ok (), launchedWhenReady s frames) := by
  unfold launchedWhenReady
  cases free : s.inferenceTask with
  | none =>
    rw [launchExact free known length]
    simp
  | some task =>
    rw [launchBusy free]
    simp

inductive Processed (host : HostOrder) (s : State) (payload : Bytes) :
    Except PyError (Option (List ProcessedPacket)) × State → Prop where
  | harvestRaised (e : PyError) (t : State)
    (raised : exec (harvestInference host) s = (.error e, t)) : Processed host s payload (.error e, t)
  | invalid (e : PyError) (t : State) (harvest : exec (harvestInference host) s = (.ok (), t))
    (refused : decodeAndValidate host payload = .error e) : Processed host s payload (.error e, t)
  | suspended (t : State) (packet : StereoPacket)
    (harvest : exec (harvestInference host) s = (.ok (), t))
    (decoded : decodeAndValidate host payload = .ok packet) (differs : ¬ FormatFits t packet)
    (tracked : exec (trackStreamFormat packet) t = (.ok false, cancelInference t)) :
    Processed host s payload (.ok none, cancelInference t)
  | formatRaised (t : State) (packet : StereoPacket)
    (harvest : exec (harvestInference host) s = (.ok (), t))
    (decoded : decodeAndValidate host payload = .ok packet) (differs : ¬ FormatFits t packet)
    (tracked : exec (trackStreamFormat packet) t = (.error formatChanged, clear t)) :
    Processed host s payload (.error formatChanged, clear t)
  | limitRaised (e : PyError) (t : State) (packet : StereoPacket)
    (harvest : exec (harvestInference host) s = (.ok (), t))
    (decoded : decodeAndValidate host payload = .ok packet) (fits : FormatFits t packet)
    (raises : maximumFrames (withFormat t packet) packet = .error e) :
    Processed host s payload (.error e, pushed (withFormat t packet) packet)
  | admits (t : State) (packet : StereoPacket) (maximum frames : Int)
    (harvest : exec (harvestInference host) s = (.ok (), t))
    (decoded : decodeAndValidate host payload = .ok packet) (fits : FormatFits t packet)
    (room : maximumFrames (withFormat t packet) packet = .ok maximum)
    (length : target t packet.val.sampleRate = .ok frames) :
    Processed host s payload
      (.ok (some ((launchedWhenReady (admitted t packet maximum) frames).readyOutput.take 1)),
        popped (launchedWhenReady (admitted t packet maximum) frames))

theorem processCases (host : HostOrder) (payload : Bytes) (s : State) :
    Processed host s payload (exec (process host payload) s) := by
  rcases harvest : exec (harvestInference host) s with ⟨result, t⟩
  cases result with
  | error e =>
    rw [process, execBindError harvest]
    exact .harvestRaised e t harvest
  | ok u =>
    rw [process, execBindOk harvest]
    cases decoded : decodeAndValidate host payload with
    | error e =>
      rw [execBindError (execOfExcept _ t)]
      exact .invalid e t harvest decoded
    | ok packet =>
      rw [execBindOk (execOfExcept _ t)]
      by_cases fits : FormatFits t packet
      · rw [execBindOk (trackFits fits), if_pos rfl]
        have buffered := bufferExact packet (withFormat t packet)
        cases room : maximumFrames (withFormat t packet) packet with
        | error e =>
          rw [room] at buffered
          rw [execBindError buffered]
          exact .limitRaised e t packet harvest decoded fits room
        | ok maximum =>
          obtain ⟨frames, length⟩ := targetDefined ((limitDefined t packet).mp ⟨maximum, room⟩)
          have launch := launchedExact (s := admitted t packet maximum) rfl length
          rw [room] at buffered
          rw [execBindOk buffered, ← admitted, execBindOk launch, execBindOk (popExact _)]
          exact .admits t packet maximum frames harvest decoded fits room length
      · rcases trackChanged fits with suspended | raised
        · rw [execBindOk suspended]
          exact .suspended t packet harvest decoded fits suspended
        · rw [execBindError raised]
          exact .formatRaised t packet harvest decoded fits raised

inductive Called (host : HostOrder) (s : State) (payload : Bytes) :
    Option (List ProcessedPacket) × State → Prop where
  | harvestRaised (e : PyError) (t : State)
    (raised : exec (harvestInference host) s = (.error e, t)) : Called host s payload (none, t)
  | invalid (e : PyError) (t : State) (harvest : exec (harvestInference host) s = (.ok (), t))
    (refused : decodeAndValidate host payload = .error e) : Called host s payload (none, t)
  | formatChanged (t : State) (packet : StereoPacket)
    (harvest : exec (harvestInference host) s = (.ok (), t))
    (decoded : decodeAndValidate host payload = .ok packet) (differs : ¬ FormatFits t packet) :
    Called host s payload (none, clear t)
  | limitRaised (t : State) (packet : StereoPacket)
    (harvest : exec (harvestInference host) s = (.ok (), t))
    (decoded : decodeAndValidate host payload = .ok packet) (fits : FormatFits t packet)
    (infinite : (limit t packet.val.sampleRate).isFinite = false) :
    Called host s payload (none, pushed (withFormat t packet) packet)
  | admits (t : State) (packet : StereoPacket) (maximum frames : Int)
    (harvest : exec (harvestInference host) s = (.ok (), t))
    (decoded : decodeAndValidate host payload = .ok packet) (fits : FormatFits t packet)
    (room : maximumFrames t packet = .ok maximum)
    (length : target t packet.val.sampleRate = .ok frames) :
    Called host s payload (answered (admitted t packet maximum) frames)

theorem callCases (host : HostOrder) (payload : Bytes) (s : State) :
    Called host s payload (callProcess host payload s) := by
  have processed := processCases host payload s
  rw [callProcess]
  generalize exec (process host payload) s = call at processed
  cases processed with
  | harvestRaised e t raised => exact .harvestRaised e t raised
  | invalid e t harvest refused => exact .invalid e t harvest refused
  | suspended t packet harvest decoded differs => exact .formatChanged t packet harvest decoded differs
  | formatRaised t packet harvest decoded differs =>
    exact .formatChanged t packet harvest decoded differs
  | limitRaised e t packet harvest decoded fits raises =>
    refine .limitRaised t packet harvest decoded fits ?_
    rw [← Bool.not_eq_true, ← limitDefined t packet]
    rintro ⟨maximum, known⟩
    exact absurd (known.symm.trans raises) nofun
  | admits t packet maximum frames harvest decoded fits room length =>
    exact .admits t packet maximum frames harvest decoded fits room length

theorem drainCases (host : HostOrder) (s : State) :
    (∃ e t, exec (harvestInference host) s = (.error e, t) ∧ exec (flush host) s = (.error e, t)) ∨
    ∃ t, exec (harvestInference host) s = (.ok (), t) ∧
      exec (flush host) s = (.ok t.readyOutput, { t with readyOutput := [] }) := by
  rcases harvest : exec (harvestInference host) s with ⟨result, t⟩
  cases result with
  | error e => exact .inl ⟨e, t, rfl, execBindError harvest⟩
  | ok u => exact .inr ⟨t, rfl, execBindOk harvest⟩

theorem flushCases (host : HostOrder) (s : State) :
    (∃ e t, exec (harvestInference host) s = (.error e, t) ∧ callFlush host s = (none, t)) ∨
    ∃ t, exec (harvestInference host) s = (.ok (), t) ∧
      callFlush host s = (some t.readyOutput, { t with readyOutput := [] }) := by
  rcases drainCases host s with ⟨e, t, raised, call⟩ | ⟨t, harvest, call⟩
  · exact .inl ⟨e, t, raised, by rw [callFlush, call]⟩
  · exact .inr ⟨t, harvest, by rw [callFlush, call]⟩

end Calls

section Runs

inductive Event where
  | process (payload : Bytes)
  | flush
  | reset
  | inferenceEnds (outcome : InferenceOutcome)

def next (host : HostOrder) (s : State) : Event → Option (List ProcessedPacket) × State
  | .process payload => callProcess host payload s
  | .flush => callFlush host s
  | .reset => (some [], clear (cancelInference s))
  | .inferenceEnds outcome => (some [], (inferenceEnds outcome s).getD s)

def run (host : HostOrder) (s : State) (events : List Event) : State :=
  events.foldl (fun s event => (next host s event).2) s

end Runs

end KaraokeAnything.Mdx23cVocals
