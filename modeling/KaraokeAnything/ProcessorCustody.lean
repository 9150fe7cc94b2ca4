import KaraokeAnything.Library.Custody
import KaraokeAnything.ProcessorFacts

/-! Which input packet each output of a processor was produced from. The moves of a call
are read off its own steps, and the headers in the buffers go along with them, so a line
of whole packets that takes the same moves says whose packet every header is. -/
namespace KaraokeAnything.SegmentedInference
open ByteOrder Custody Kany Models Python Stateful

abbrev Stamp := Bytes × Option String

def stamp (output : ProcessedPacket) : Stamp := (headerOf output, output.destinationHost)

def incoming (payload : Bytes) : Stamp := (payload.take headerSize, none)

def unsent (packet : KanyPacket) : Stamp := (packet.rawHeader, none)

theorem slicesStamps {separated : List UInt32} {packets : List KanyPacket} {offset : Nat}
    (headers : (slices separated packets offset).map headerOf = packets.map (·.rawHeader)) :
    (slices separated packets offset).map stamp = packets.map unsent := by
  induction packets generalizing offset with
  | nil => rfl
  | cons original rest ih =>
    simp only [slices, List.map_cons, List.cons.injEq] at headers ⊢
    exact ⟨Prod.ext headers.1 rfl, ih headers.2⟩

theorem takenOldest {α : Type} (framesOf : α → Nat) (target : Int) (packets : List α) :
    let cut := takeSegment framesOf target packets 0
    packets.take cut.1.length = cut.1 ∧ packets.drop cut.1.length = cut.2.2 := by
  obtain ⟨split, _⟩ := takenSegment framesOf target packets 0
  generalize takeSegment framesOf target packets 0 = cut at split
  rw [split]
  exact ⟨List.take_left, List.drop_left⟩

def heldLine (s : State) : Line Stamp where
  ready := s.readyOutput.map stamp
  active := s.activePackets.map unsent
  input := s.inputPackets.map unsent

def harvestMoves (s : State) : List Move :=
  match s.inferenceTask.bind (·.outcome) with
  | none => []
  | some (.returned separated) =>
    if separated.length = sampleTotal s.activePackets then [.settle] else [.lose]
  | some _ => [.lose]

def launchMoves (s : State) : List Move :=
  match exec launchWhenReady s with
  | (.ok _, t) =>
    if t.segmentsStarted = s.segmentsStarted then [] else [.launch t.activePackets.length]
  | (.error _, _) => []

def processMoves (host : HostOrder) (model : SegmentModel) (payload : Bytes) (s : State) :
    List Move :=
  harvestMoves s ++
    match exec (harvestInference host model) s, model.decodeAndValidate host payload with
    | (.ok _, t), .ok packet =>
      match exec (acceptStreamFormat packet) t with
      | (.ok _, _) => .enqueue :: launchMoves (queued t packet)
      | (.error _, _) => []
    | _, _ => []

/- The calls that do not raise: the packet is valid and of the stream's format, the last
segment is not lost, and no segment has to be measured by a length that is no number. -/
structure Accepts (host : HostOrder) (model : SegmentModel) (payload : Bytes) (s : State) : Prop where
  whole : unharvestable s = false
  packet : ∃ packet, model.decodeAndValidate host payload = .ok packet ∧ FormatFits s packet ∧
    ((s.inferenceTask.filter (·.outcome.isNone)).isSome = true ∨
      (Float.ofNat packet.sampleRate * s.segmentSeconds).isFinite = true)

section Moves
variable {host : HostOrder} {model : SegmentModel} {s t : State} {payload : Bytes}

theorem harvestLine (host : HostOrder) (model : SegmentModel) (item : Option Stamp) (s : State) :
    (heldLine s).after item (harvestMoves s) =
      heldLine (exec (harvestInference host model) s).2 := by
  unfold harvestMoves
  have went := harvestCases host model s
  generalize exec (harvestInference host model) s = call at went ⊢
  cases went with
  | idle running => rw [running, Line.afterNil]
  | cut separated done size =>
    obtain ⟨headers, _, _⟩ := slicesFrom host separated s.activePackets 0 (by omega)
    simp [done, size, heldLine, harvested, Line.moved, slicesStamps headers]
  | lost outcome done failed =>
    have line : (heldLine s).after item [.lose] = heldLine (afterFailure s outcome) := rfl
    rw [done]
    cases outcome with
    | returned separated => simpa only [if_neg (failed separated rfl)] using line
    | raised text => exact line
    | cancelled => exact line

theorem harvestStream (harvest : exec (harvestInference host model) s = (.ok (), t)) :
    t.streamSampleRate = s.streamSampleRate ∧ t.streamChannels = s.streamChannels ∧
      t.segmentSeconds = s.segmentSeconds ∧
      t.inferenceTask = s.inferenceTask.filter (·.outcome.isNone) := by
  have went := harvestCases host model s
  rw [harvest] at went
  cases went with
  | idle running =>
    refine ⟨rfl, rfl, rfl, ?_⟩
    cases known : s.inferenceTask with
    | none => rfl
    | some task =>
      rw [known] at running
      have unfinished : task.outcome = none := running
      simp only [Option.filter, unfinished, Option.isNone_none, if_true]
  | cut separated done size =>
    obtain ⟨task, known, complete⟩ := Option.bind_eq_some_iff.mp done
    refine ⟨rfl, rfl, rfl, ?_⟩
    rw [known]
    simp only [harvested, Option.filter, complete, Option.isNone_some, Bool.false_eq_true, if_false]

theorem launchLine (item : Option Stamp) (s : State) :
    (heldLine s).after item (launchMoves s) = heldLine (exec launchWhenReady s).2 := by
  unfold launchMoves
  cases free : s.inferenceTask with
  | some task => simp [launchBusy free]
  | none =>
    cases known : target s with
    | error e => simp [launchUnknown free known]
    | ok frames =>
      by_cases ready : frames ≤ s.inputFrames
      · obtain ⟨taken, left⟩ := takenOldest (·.frames) frames s.inputPackets
        rw [launchReady free known ready]
        simp only [launched, Nat.succ_ne_self, if_false, Line.afterCons, Line.afterNil, Line.moved,
          heldLine, ← List.map_take, ← List.map_drop, taken, left]
      · simp [launchShort free known ready]

theorem launchBehind (s : State) : ∀ move ∈ launchMoves s, move.Behind := by
  unfold launchMoves
  split
  · split
    · simp
    · simp [Move.Behind]
  · simp

inductive Went (host : HostOrder) (model : SegmentModel) (payload : Bytes) (s : State) :
    Except PyError (List ProcessedPacket) × State → Prop where
  | raised (e : PyError) (t : State) (refused : ¬ Accepts host model payload s)
    (line : (heldLine s).after (some (incoming payload)) (processMoves host model payload s) =
      heldLine t) : Went host model payload s (.error e, t)
  | answered (u : State) (accepted : Accepts host model payload s)
    (line : (heldLine s).after (some (incoming payload)) (processMoves host model payload s) =
      heldLine u)
    (later : ∃ moves, processMoves host model payload s = harvestMoves s ++ moves ∧
      ∀ move ∈ moves, move.Behind) : Went host model payload s (.ok (u.readyOutput.take 1), popped u)

theorem admitLine {packet : KanyPacket} (decoded : model.decodeAndValidate host payload = .ok packet)
    (t : State) : (heldLine t).moved (some (incoming payload)) .enqueue = heldLine (queued t packet) := by
  have header : unsent packet = incoming payload := Prod.ext (decodedHeader decoded) rfl
  simp [Line.moved, heldLine, queued, withFormat, header]

theorem acceptsHarvested (harvest : exec (harvestInference host model) s = (.ok (), t)) :
    Accepts host model payload s ↔ ∃ packet, model.decodeAndValidate host payload = .ok packet ∧
      FormatFits t packet ∧ (t.inferenceTask.isSome = true ∨
        (Float.ofNat packet.sampleRate * t.segmentSeconds).isFinite = true) := by
  have whole : unharvestable s = false := by
    rw [← Bool.not_eq_true, ← harvestRaises host model s, harvest]
    simp
  obtain ⟨rate, channels, seconds, task⟩ := harvestStream harvest
  simp only [FormatFits, rate, channels, seconds, task]
  exact ⟨fun accepts => accepts.packet, fun packet => ⟨whole, packet⟩⟩

theorem bufferedMoves {packet : KanyPacket}
    (harvest : exec (harvestInference host model) s = (.ok (), t))
    (decoded : model.decodeAndValidate host payload = .ok packet) (fits : FormatFits t packet) :
    processMoves host model payload s = harvestMoves s ++ .enqueue :: launchMoves (queued t packet) := by
  simp only [processMoves, harvest, decoded, acceptFits fits]

theorem bufferedLine {packet : KanyPacket}
    (harvest : exec (harvestInference host model) s = (.ok (), t))
    (decoded : model.decodeAndValidate host payload = .ok packet) (fits : FormatFits t packet) :
    (heldLine s).after (some (incoming payload)) (processMoves host model payload s) =
      heldLine (exec launchWhenReady (queued t packet)).2 := by
  have line := harvestLine host model (some (incoming payload)) s
  rw [harvest] at line
  rw [bufferedMoves harvest decoded fits, Line.afterAppend, line, Line.afterCons, admitLine decoded,
    launchLine]

theorem wentCases (host : HostOrder) (model : SegmentModel) (payload : Bytes) (s : State) :
    Went host model payload s (exec (process host model payload) s) := by
  have line := harvestLine host model (some (incoming payload)) s
  have called := callCases host model payload s
  generalize exec (process host model payload) s = call at called
  cases called with
  | harvestRaised e t raised =>
    rw [raised] at line
    refine .raised e t (fun accepts => ?_) (by simp only [processMoves, raised, List.append_nil, line])
    have lost := (harvestRaises host model s).mp ⟨e, congrArg Prod.fst raised⟩
    exact absurd (lost.symm.trans accepts.whole) nofun
  | invalid e t harvest refused =>
    rw [harvest] at line
    refine .raised e t (fun accepts => ?_)
      (by simp only [processMoves, harvest, refused, List.append_nil, line])
    obtain ⟨packet, valid, _⟩ := (acceptsHarvested harvest).mp accepts
    exact absurd (refused.symm.trans valid) nofun
  | formatChanged e t packet harvest decoded differs =>
    obtain ⟨_, rejected⟩ := acceptRejects differs
    rw [harvest] at line
    refine .raised e t (fun accepts => ?_)
      (by simp only [processMoves, harvest, decoded, rejected, List.append_nil, line])
    obtain ⟨other, valid, fits, _⟩ := (acceptsHarvested harvest).mp accepts
    cases decoded.symm.trans valid
    exact differs fits
  | targetRaised e t packet harvest decoded fits free raises =>
    have infinite : ¬ (Float.ofNat packet.sampleRate * t.segmentSeconds).isFinite = true := by
      rw [← targetDefined, raises]
      simp
    have launch := launchUnknown (s := queued t packet) free raises
    have line := bufferedLine harvest decoded fits
    rw [launch] at line
    refine .raised e _ (fun accepts => ?_) line
    obtain ⟨other, valid, _, measured⟩ := (acceptsHarvested harvest).mp accepts
    cases decoded.symm.trans valid
    rcases measured with busy | finite
    · simp [free] at busy
    · exact infinite finite
  | waits t packet harvest decoded fits waiting =>
    have moves := bufferedMoves harvest decoded fits
    have line := bufferedLine harvest decoded fits
    cases free : t.inferenceTask with
    | some task =>
      rw [launchBusy (s := queued t packet) free] at line
      have accepted := (acceptsHarvested harvest).mpr ⟨packet, decoded, fits, .inl (by rw [free]; rfl)⟩
      exact .answered _ accepted line ⟨_, moves, List.forall_mem_cons.mpr ⟨trivial, launchBehind _⟩⟩
    | none =>
      obtain ⟨frames, known, short⟩ := waiting free
      rw [launchShort (s := queued t packet) free known short] at line
      have accepted := (acceptsHarvested harvest).mpr
        ⟨packet, decoded, fits, .inr ((targetDefined t packet).mp ⟨frames, known⟩)⟩
      exact .answered _ accepted line ⟨_, moves, List.forall_mem_cons.mpr ⟨trivial, launchBehind _⟩⟩
  | launches t packet frames harvest decoded fits free known ready =>
    have line := bufferedLine harvest decoded fits
    rw [launchReady (s := queued t packet) free known ready] at line
    have accepted := (acceptsHarvested harvest).mpr
      ⟨packet, decoded, fits, .inr ((targetDefined t packet).mp ⟨frames, known⟩)⟩
    exact .answered _ accepted line
      ⟨_, bufferedMoves harvest decoded fits, List.forall_mem_cons.mpr ⟨trivial, launchBehind _⟩⟩

theorem flushLine (host : HostOrder) (model : SegmentModel) (s : State) :
    let call := exec (flush host model) s
    (heldLine s).after none (harvestMoves s) =
      (heldLine call.2).behind ((call.1.toOption.getD []).map stamp) := by
  have line := harvestLine host model none s
  rcases flushCases host model s with ⟨e, t, raised, call⟩ | ⟨t, harvest, call⟩
  · rw [raised] at line
    rw [call]
    exact line
  · rw [harvest] at line
    rw [call, line]
    simp [heldLine, Line.behind, Except.toOption]

end Moves

end KaraokeAnything.SegmentedInference

namespace KaraokeAnything.Mdx23cVocals
open ByteOrder Custody Kany Models Python Stateful
open SegmentedInference (Stamp incoming stamp unsent slicesStamps takenOldest)

def heldLine (s : State) : Line Stamp where
  ready := s.readyOutput.map stamp
  active := (items s.activePackets).map unsent
  input := (items s.inputPackets).map unsent

def harvestMoves (s : State) : List Move :=
  match s.inferenceTask.bind (·.outcome) with
  | none => []
  | some (.returned output) =>
    if output.length ≠ sampleTotal s.activePackets then [.lose]
    else if (fadeLength s output).isFinite then [.settle] else []
  | some (.raised _) => [.lose]
  | some .cancelled => []

def launchMoves (s : State) : List Move :=
  match exec launchWhenReady s with
  | (.ok _, t) =>
    if t.segmentsStarted = s.segmentsStarted then [] else [.launch t.activePackets.length]
  | (.error _, _) => []

def bufferMoves (packet : StereoPacket) (s : State) : List Move :=
  .enqueue :: match exec (bufferPacket packet) s with
    | (.ok _, t) => .drop (t.droppedPackets - s.droppedPackets) :: launchMoves t
    | (.error _, _) => []

def processMoves (host : HostOrder) (payload : Bytes) (s : State) : List Move :=
  harvestMoves s ++
    match exec (harvestInference host) s, decodeAndValidate host payload with
    | (.ok _, t), .ok packet =>
      match exec (trackStreamFormat packet) t with
      | (.ok true, u) => bufferMoves packet u
      | (.ok false, _) => []
      | (.error _, _) => [.clear]
    | _, _ => []

structure Accepts (host : HostOrder) (payload : Bytes) (s : State) : Prop where
  whole : unharvestable s = false
  packet : ∃ packet, decodeAndValidate host payload = .ok packet ∧ FormatFits s packet ∧
    (limit s packet.val.sampleRate).isFinite = true

section Moves
variable {host : HostOrder} {s t : State} {payload : Bytes}

theorem harvestLine (host : HostOrder) (item : Option Stamp) (s : State) :
    (heldLine s).after item (harvestMoves s) = heldLine (exec (harvestInference host) s).2 := by
  unfold harvestMoves
  have went := harvestCases host s
  generalize exec (harvestInference host) s = call at went ⊢
  cases went with
  | idle running => rw [running, Line.afterNil]
  | cut output done size finite =>
    have cut := slicesStamps ((slicesHeaders host size).trans (List.map_map (l := _)).symm)
    simp only [done, size, ne_eq, not_true_eq_false, if_false, finite, if_true, Line.afterCons,
      Line.afterNil, Line.moved, heldLine, harvested, List.map_append, cut]
    rfl
  | lost outcome e done failed =>
    have line : (heldLine s).after item [.lose] = heldLine (afterFailure s outcome) := rfl
    rw [done]
    cases outcome with
    | returned output =>
      have size : output.length ≠ sampleTotal s.activePackets := failed
      simpa only [if_pos size] using line
    | raised text => exact line
    | cancelled => exact failed.elim
  | stuck outcome e done kept infinite =>
    rw [done]
    cases outcome with
    | returned output =>
      have size : output.length = sampleTotal s.activePackets := by_contra kept
      simp only [size, ne_eq, not_true_eq_false, if_false, infinite output rfl,
        Bool.false_eq_true, Line.afterNil]
      rfl
    | raised text => exact absurd trivial kept
    | cancelled => rfl

theorem launchLine (item : Option Stamp) {rate : Nat} {frames : Int}
    (known : s.streamSampleRate = some rate) (length : target s rate = .ok frames) :
    (heldLine s).after item (launchMoves s) = heldLine (exec launchWhenReady s).2 := by
  unfold launchMoves
  cases free : s.inferenceTask with
  | some task => simp [launchBusy free]
  | none =>
    obtain ⟨taken, left⟩ := takenOldest (·.val.frames) frames s.inputPackets
    rw [launchExact free known length]
    by_cases ready : frames ≤ s.inputFrames
    · simp only [if_pos ready, launched, Nat.succ_ne_self, if_false, Line.afterCons, Line.afterNil,
        Line.moved, heldLine, items, ← List.map_take, ← List.map_drop, taken, left]
    · simp [if_neg ready]

theorem launchBehind (s : State) : ∀ move ∈ launchMoves s, move.Behind := by
  unfold launchMoves
  split
  · split
    · simp
    · simp [Move.Behind]
  · simp

theorem bufferBehind (packet : StereoPacket) (s : State) :
    ∀ move ∈ bufferMoves packet s, move.Behind := by
  unfold bufferMoves
  refine List.forall_mem_cons.mpr ⟨trivial, ?_⟩
  split
  · exact List.forall_mem_cons.mpr ⟨trivial, launchBehind _⟩
  · simp

theorem harvestStream (harvest : exec (harvestInference host) s = (.ok (), t)) :
    t.streamSampleRate = s.streamSampleRate ∧ t.streamChannels = s.streamChannels ∧
      t.segmentSeconds = s.segmentSeconds ∧ t.maxBufferedSegments = s.maxBufferedSegments := by
  have went := harvestCases host s
  rw [harvest] at went
  cases went with
  | idle running => exact ⟨rfl, rfl, rfl, rfl⟩
  | cut output done size finite => exact ⟨rfl, rfl, rfl, rfl⟩

theorem bufferLine {packet : StereoPacket} (decoded : decodeAndValidate host payload = .ok packet)
    (s : State) : (heldLine s).after (some (incoming payload)) (bufferMoves packet s) =
      match exec (bufferPacket packet) s with
      | (.ok _, t) => (heldLine t).after (some (incoming payload)) (launchMoves t)
      | (.error _, t) => heldLine t := by
  have header : unsent packet.val = incoming payload := Prod.ext (decodedHeader decoded) rfl
  have admitted : (heldLine s).moved (some (incoming payload)) .enqueue = heldLine (pushed s packet) := by
    simp [Line.moved, heldLine, pushed, items, header]
  rw [bufferMoves, Line.afterCons, admitted, bufferExact]
  cases maximumFrames s packet with
  | error e => rfl
  | ok maximum =>
    obtain ⟨kept, _⟩ := dropOldestExact maximum (pushed s packet).inputPackets
      (pushed s packet).inputFrames
    have dropped : (trimmed (pushed s packet) maximum).droppedPackets - s.droppedPackets =
        (dropOldest maximum (pushed s packet).inputPackets (pushed s packet).inputFrames).2.2 :=
      Nat.add_sub_cancel_left _ _
    simp only [Line.afterCons, dropped]
    refine congrArg (Line.after _ · _) ?_
    simp only [Line.moved, heldLine, items, ← List.map_drop, trimmed, kept]

inductive Went (host : HostOrder) (payload : Bytes) (s : State) :
    Except PyError (Option (List ProcessedPacket)) × State → Prop where
  | raised (e : PyError) (t : State) (refused : ¬ Accepts host payload s)
    (line : (heldLine s).after (some (incoming payload)) (processMoves host payload s) = heldLine t) :
    Went host payload s (.error e, t)
  | suspended (t : State) (refused : ¬ Accepts host payload s)
    (line : (heldLine s).after (some (incoming payload)) (processMoves host payload s) = heldLine t) :
    Went host payload s (.ok none, t)
  | answered (u : State) (accepted : Accepts host payload s)
    (line : (heldLine s).after (some (incoming payload)) (processMoves host payload s) = heldLine u)
    (later : ∃ moves, processMoves host payload s = harvestMoves s ++ moves ∧
      ∀ move ∈ moves, move.Behind) :
    Went host payload s (.ok (some (u.readyOutput.take 1)), popped u)

theorem acceptsHarvested (harvest : exec (harvestInference host) s = (.ok (), t)) :
    Accepts host payload s ↔ ∃ packet, decodeAndValidate host payload = .ok packet ∧
      FormatFits t packet ∧ (limit t packet.val.sampleRate).isFinite = true := by
  have whole : unharvestable s = false := by
    rw [← Bool.not_eq_true, ← (harvestForgets host s).2, harvest]
    simp
  obtain ⟨rate, channels, seconds, segments⟩ := harvestStream harvest
  simp only [FormatFits, limit, rate, channels, seconds, segments]
  exact ⟨fun accepts => accepts.packet, fun packet => ⟨whole, packet⟩⟩

theorem bufferedMoves {packet : StereoPacket} (harvest : exec (harvestInference host) s = (.ok (), t))
    (decoded : decodeAndValidate host payload = .ok packet) (fits : FormatFits t packet) :
    processMoves host payload s = harvestMoves s ++ bufferMoves packet (withFormat t packet) := by
  simp only [processMoves, harvest, decoded, trackFits fits]

theorem bufferedLine {packet : StereoPacket} (harvest : exec (harvestInference host) s = (.ok (), t))
    (decoded : decodeAndValidate host payload = .ok packet) (fits : FormatFits t packet) :
    (heldLine s).after (some (incoming payload)) (processMoves host payload s) =
      match exec (bufferPacket packet) (withFormat t packet) with
      | (.ok _, u) => (heldLine u).after (some (incoming payload)) (launchMoves u)
      | (.error _, u) => heldLine u := by
  have line := harvestLine host (some (incoming payload)) s
  rw [harvest] at line
  rw [bufferedMoves harvest decoded fits, Line.afterAppend, line]
  exact bufferLine decoded (withFormat t packet)

theorem wentCases (host : HostOrder) (payload : Bytes) (s : State) :
    Went host payload s (exec (process host payload) s) := by
  have line := harvestLine host (some (incoming payload)) s
  have processed := processCases host payload s
  generalize exec (process host payload) s = call at processed
  cases processed with
  | harvestRaised e t raised =>
    rw [raised] at line
    refine .raised e t (fun accepts => ?_) (by simp only [processMoves, raised, List.append_nil, line])
    have lost := (harvestForgets host s).2.mp ⟨e, congrArg Prod.fst raised⟩
    exact absurd (lost.symm.trans accepts.whole) nofun
  | invalid e t harvest refused =>
    rw [harvest] at line
    refine .raised e t (fun accepts => ?_)
      (by simp only [processMoves, harvest, refused, List.append_nil, line])
    obtain ⟨packet, valid, _⟩ := (acceptsHarvested harvest).mp accepts
    exact absurd (refused.symm.trans valid) nofun
  | suspended t packet harvest decoded differs tracked =>
    rw [harvest] at line
    refine .suspended _ (fun accepts => ?_) ?_
    · obtain ⟨other, valid, fits, _⟩ := (acceptsHarvested harvest).mp accepts
      cases decoded.symm.trans valid
      exact differs fits
    · simp only [processMoves, harvest, decoded, tracked, List.append_nil, line]
      rfl
  | formatRaised t packet harvest decoded differs tracked =>
    rw [harvest] at line
    refine .raised _ _ (fun accepts => ?_) ?_
    · obtain ⟨other, valid, fits, _⟩ := (acceptsHarvested harvest).mp accepts
      cases decoded.symm.trans valid
      exact differs fits
    · simp only [processMoves, harvest, decoded, tracked, Line.afterAppend, line]
      rfl
  | limitRaised e t packet harvest decoded fits raises =>
    have line := bufferedLine harvest decoded fits
    rw [bufferExact, raises] at line
    refine .raised e _ (fun accepts => ?_) line
    obtain ⟨other, valid, _, finite⟩ := (acceptsHarvested harvest).mp accepts
    cases decoded.symm.trans valid
    obtain ⟨maximum, known⟩ := (limitDefined t packet).mpr finite
    exact absurd (known.symm.trans raises) nofun
  | admits t packet maximum frames harvest decoded fits room length =>
    have line := bufferedLine harvest decoded fits
    rw [bufferExact, room] at line
    have launched := launchLine (s := admitted t packet maximum) (some (incoming payload)) rfl length
    rw [launchedExact (s := admitted t packet maximum) rfl length] at launched
    have accepted := (acceptsHarvested harvest).mpr
      ⟨packet, decoded, fits, (limitDefined t packet).mp ⟨maximum, room⟩⟩
    exact .answered _ accepted (line.trans launched)
      ⟨_, bufferedMoves harvest decoded fits, bufferBehind _ _⟩

theorem flushLine (host : HostOrder) (s : State) :
    let call := exec (flush host) s
    (heldLine s).after none (harvestMoves s) =
      (heldLine call.2).behind ((call.1.toOption.getD []).map stamp) := by
  have line := harvestLine host none s
  rcases drainCases host s with ⟨e, t, raised, call⟩ | ⟨t, harvest, call⟩
  · rw [raised] at line
    rw [call]
    exact line
  · rw [harvest] at line
    rw [call, line]
    simp [heldLine, Line.behind, Except.toOption]

end Moves

end KaraokeAnything.Mdx23cVocals

namespace KaraokeAnything.Processors.Processor
open ByteOrder Config Custody Kany Models Python Stateful
open SegmentedInference (InferenceOutcome Stamp incoming headerOf stamp)

def buffers : Processor → Bool
  | htdemucs _ | convTasNet _ | mdx23c _ => true
  | _ => false

def heldLine : Processor → Line Stamp
  | htdemucs self => SegmentedInference.heldLine self.base
  | convTasNet self => SegmentedInference.heldLine self.base
  | mdx23c self => Mdx23cVocals.heldLine self.base
  | _ => {}

def harvestMoves : Processor → List Move
  | htdemucs self => SegmentedInference.harvestMoves self.base
  | convTasNet self => SegmentedInference.harvestMoves self.base
  | mdx23c self => Mdx23cVocals.harvestMoves self.base
  | _ => []

def passes (progress : Progress) : List Move := progress.outputs.map fun _ => .pass

def processMoves (host : HostOrder) (payload : Bytes) : Processor → List Move
  | htdemucs self =>
    SegmentedInference.processMoves host SegmentedInference.htdemucs payload self.base
  | convTasNet self =>
    SegmentedInference.processMoves host SegmentedInference.convTasNet payload self.base
  | mdx23c self => Mdx23cVocals.processMoves host payload self.base
  | other => passes (other.process host payload)

def resumeMoves (payload : Bytes) : Processor → List Move
  | mdx23c _ => [.clear]
  | other => passes (other.resume payload)

def interruptMoves (payload : Bytes) : Processor → List Move
  | mdx23c _ => [.clear]
  | other => passes (other.interrupt payload)

def Accepts (host : HostOrder) (payload : Bytes) : Processor → Prop
  | htdemucs self => SegmentedInference.Accepts host SegmentedInference.htdemucs payload self.base
  | convTasNet self =>
    SegmentedInference.Accepts host SegmentedInference.convTasNet payload self.base
  | mdx23c self => Mdx23cVocals.Accepts host payload self.base
  | _ => True

section Lines
variable {host : HostOrder} {payload : Bytes} {p q : Processor}

def Tallies (payload : Option Bytes) (p : Processor) (moves : List Move)
    (outputs : List ProcessedPacket) (q : Processor) : Prop :=
  p.heldLine.after (payload.map incoming) moves = q.heldLine.behind (outputs.map stamp)

theorem passesTally (before : p.buffers = false) (after : q.buffers = false)
    {outputs : List ProcessedPacket} (own : outputs.map stamp = outputs.map fun _ => incoming payload) :
    Tallies (some payload) p (outputs.map fun _ => .pass) outputs q := by
  have empty (r : Processor) (bare : r.buffers = false) : r.heldLine = {} := by
    cases r <;> first | rfl | contradiction
  rw [Tallies, empty p before, empty q after, Option.map_some, Line.afterPasses, own]
  simp [Line.behind]

theorem centreStamps {reduction : Float} {outputs : List ProcessedPacket}
    (ok : CentreReduction.process host reduction payload = .ok outputs) :
    outputs.map stamp = outputs.map fun _ => incoming payload := by
  have header := centreHeader ok
  obtain ⟨packet, _, ok⟩ := okBind.mp ok
  obtain ⟨bytes, _, same⟩ := okBind.mp ok
  cases same
  rw [List.map_singleton, List.map_singleton] at *
  exact congrArg (fun key => [(key, none)]) (List.singleton_inj.mp header)

inductive Went (host : HostOrder) (payload : Bytes) (p : Processor) : Progress → Prop where
  | refused (progress : Progress) (refused : ¬ p.Accepts host payload)
    (silent : progress.outputs = [])
    (line : p.heldLine.after (some (incoming payload)) (p.processMoves host payload) =
      progress.self.heldLine) : Went host payload p progress
  | answered (outputs : List ProcessedPacket) (q : Processor) (accepted : p.Accepts host payload)
    (ready : List ProcessedPacket) (first : outputs = ready.take 1)
    (line : p.heldLine.after (some (incoming payload)) (p.processMoves host payload) =
      { q.heldLine with ready := ready.map stamp })
    (rest : q.heldLine.ready = (ready.drop 1).map stamp)
    (later : ∃ moves, p.processMoves host payload = p.harvestMoves ++ moves ∧
      ∀ move ∈ moves, move.Behind) : Went host payload p (.returned outputs q)

theorem wentCases (host : HostOrder) (payload : Bytes) (keeps : p.buffers = true) :
    Went host payload p (p.process host payload) := by
  cases p with
  | htdemucs self =>
    have went := SegmentedInference.wentCases host SegmentedInference.htdemucs payload self.base
    simp only [process]
    generalize exec (SegmentedInference.process host SegmentedInference.htdemucs payload) self.base =
      call at went ⊢
    cases went with
    | raised e t refused line => exact .refused _ refused rfl line
    | answered u accepted line later => exact .answered _ _ accepted u.readyOutput rfl line rfl later
  | convTasNet self =>
    have went := SegmentedInference.wentCases host SegmentedInference.convTasNet payload self.base
    simp only [process]
    generalize exec (SegmentedInference.process host SegmentedInference.convTasNet payload)
      self.base = call at went ⊢
    cases went with
    | raised e t refused line => exact .refused _ refused rfl line
    | answered u accepted line later => exact .answered _ _ accepted u.readyOutput rfl line rfl later
  | mdx23c self =>
    have went := Mdx23cVocals.wentCases host payload self.base
    simp only [process]
    generalize exec (Mdx23cVocals.process host payload) self.base = call at went ⊢
    cases went with
    | raised e t refused line => exact .refused _ refused rfl line
    | suspended t refused line => exact .refused _ refused rfl line
    | answered u accepted line later => exact .answered _ _ accepted u.readyOutput rfl line rfl later
  | passthrough => contradiction
  | delayPassthrough delay => contradiction
  | null => contradiction
  | centreReduction reduction => contradiction

theorem processTallies (host : HostOrder) (payload : Bytes) (p : Processor) :
    Tallies (some payload) p (p.processMoves host payload) (p.process host payload).outputs
      (p.process host payload).self := by
  have buffered (keeps : p.buffers = true) : Tallies (some payload) p (p.processMoves host payload)
      (p.process host payload).outputs (p.process host payload).self := by
    have went := wentCases host payload keeps
    generalize p.process host payload = progress at went ⊢
    cases went with
    | refused _ refused silent line => rw [silent]; exact line
    | answered outputs q accepted ready first line rest later =>
      refine line.trans (Line.ext ?_ rfl rfl)
      simp only [Line.behind, Progress.self, Progress.outputs, first, rest, ← List.map_append,
        List.take_append_drop]
  cases p with
  | passthrough => exact passesTally rfl rfl rfl
  | delayPassthrough delay => exact passesTally rfl rfl rfl
  | null => exact passesTally rfl rfl rfl
  | centreReduction reduction =>
    simp only [processMoves, passes, process]
    cases ran : CentreReduction.process host reduction payload with
    | error e => exact passesTally rfl rfl rfl
    | ok outputs => exact passesTally rfl rfl (centreStamps ran)
  | htdemucs self => exact buffered rfl
  | convTasNet self => exact buffered rfl
  | mdx23c self => exact buffered rfl

theorem clearTallies (payload : Option Bytes) (p : Processor) :
    Tallies payload p [.clear] [] p.endReset := by
  cases p <;> rfl

theorem resumeTallies (payload : Bytes) (p : Processor) :
    Tallies (some payload) p (p.resumeMoves payload) (p.resume payload).outputs
      (p.resume payload).self := by
  cases p with
  | delayPassthrough delay => exact passesTally rfl rfl rfl
  | mdx23c self => exact clearTallies _ (mdx23c self)
  | passthrough => exact passesTally rfl rfl rfl
  | null => exact passesTally rfl rfl rfl
  | centreReduction reduction => exact passesTally rfl rfl rfl
  | htdemucs self => rfl
  | convTasNet self => rfl

theorem interruptTallies (payload : Bytes) (p : Processor) :
    Tallies (some payload) p (p.interruptMoves payload) (p.interrupt payload).outputs
      (p.interrupt payload).self := by
  cases p with
  | mdx23c self => exact clearTallies _ (mdx23c self)
  | delayPassthrough delay => exact passesTally rfl rfl rfl
  | passthrough => exact passesTally rfl rfl rfl
  | null => exact passesTally rfl rfl rfl
  | centreReduction reduction => exact passesTally rfl rfl rfl
  | htdemucs self => rfl
  | convTasNet self => rfl

theorem flushTallies (host : HostOrder) (p : Processor) :
    Tallies none p p.harvestMoves ((p.flush host).1.toOption.getD []) (p.flush host).2 := by
  cases p with
  | htdemucs self =>
    exact SegmentedInference.flushLine host SegmentedInference.htdemucs self.base
  | convTasNet self =>
    exact SegmentedInference.flushLine host SegmentedInference.convTasNet self.base
  | mdx23c self => exact Mdx23cVocals.flushLine host self.base
  | passthrough => rfl
  | null => rfl
  | delayPassthrough delay => rfl
  | centreReduction reduction => rfl

@[simp] theorem beginResetLine (p : Processor) : p.beginReset.heldLine = p.heldLine := by
  cases p <;> rfl

@[simp] theorem setAttributeLine (p : Processor) (attr : Attribute) (value : Float) :
    (p.setAttribute attr value).heldLine = p.heldLine := by
  cases p <;> cases attr <;> rfl

theorem inferenceEndsLine {outcome : InferenceOutcome} (ends : p.inferenceEnds outcome = some q) :
    q.heldLine = p.heldLine := by
  cases p with
  | htdemucs self =>
    obtain ⟨base, ended, rfl⟩ := Option.map_eq_some_iff.mp ends
    obtain ⟨segment, running, rfl⟩ := SegmentedInference.inferenceEnded ended
    rfl
  | convTasNet self =>
    obtain ⟨base, ended, rfl⟩ := Option.map_eq_some_iff.mp ends
    obtain ⟨segment, running, rfl⟩ := SegmentedInference.inferenceEnded ended
    rfl
  | mdx23c self =>
    obtain ⟨base, ended, rfl⟩ := Option.map_eq_some_iff.mp ends
    obtain ⟨segment, running, rfl⟩ := Mdx23cVocals.inferenceEnded ended
    rfl
  | passthrough => contradiction
  | null => contradiction
  | delayPassthrough delay => contradiction
  | centreReduction reduction => contradiction

theorem heldNothing (bare : p.held = []) : p.heldLine = {} := by
  cases p with
  | htdemucs self =>
    simp only [held, SegmentedInference.heldHeaders, List.append_eq_nil_iff, List.map_eq_nil_iff] at bare
    simp [heldLine, SegmentedInference.heldLine, bare]
  | convTasNet self =>
    simp only [held, SegmentedInference.heldHeaders, List.append_eq_nil_iff, List.map_eq_nil_iff] at bare
    simp [heldLine, SegmentedInference.heldLine, bare]
  | mdx23c self =>
    simp only [held, Mdx23cVocals.heldHeaders, List.append_eq_nil_iff, List.map_eq_nil_iff] at bare
    simp [heldLine, Mdx23cVocals.heldLine, Mdx23cVocals.items, bare]
  | _ => rfl

end Lines

section Sources
variable {host : HostOrder} {payload : Bytes} {p : Processor} {α : Type} {view : α → Stamp}
  {l : Line α} {x : α}

theorem bufferedSource (keeps : p.buffers = true) (aligned : l.map view = p.heldLine)
    (mine : view x = incoming payload) (y : α) :
    y ∈ (l.after (some x) (p.processMoves host payload)).ready.take
        (p.process host payload).outputs.length ↔
      p.Accepts host payload ∧ (l.after (some x) p.harvestMoves).ready.head? = some y := by
  have seen := Line.afterMap view (some x) l (p.processMoves host payload)
  rw [aligned, Option.map_some, mine] at seen
  have went := wentCases host payload keeps
  generalize p.process host payload = progress at went ⊢
  cases went with
  | refused _ refused silent line => simp [silent, refused]
  | answered outputs q accepted ready first line rest later =>
    obtain ⟨moves, split, behind⟩ := later
    rw [line] at seen
    have same := congrArg Line.ready seen
    have length := congrArg List.length same
    simp only [Line.map, List.length_map] at length
    simp only [Progress.outputs, first, List.length_take, ← length, ← List.take_eq_take_min, accepted,
      true_and]
    rw [split, Line.afterAppend, Line.afterBehind behind]
    cases (l.after (some x) p.harvestMoves).ready <;> simp [eq_comm]

theorem passedSource (passes : p.buffers = false) (aligned : l.map view = p.heldLine) :
    ∀ y ∈ (l.after (some x) (p.processMoves host payload)).ready, y = x := by
  have empty : p.heldLine = {} := by cases p <;> first | rfl | contradiction
  have moves : p.processMoves host payload = (p.process host payload).outputs.map fun _ => .pass := by
    cases p <;> first | rfl | contradiction
  rw [Line.mapEmpty (aligned.trans empty), moves, Line.afterPasses]
  simp

/- Only the delay answers a call that was suspended, with the packet of that call. -/
theorem resumedSource (payload : Bytes) (aligned : l.map view = p.heldLine) :
    ∀ y ∈ (l.after (some x) (p.resumeMoves payload)).ready.take (p.resume payload).outputs.length,
      y = x := by
  cases p with
  | delayPassthrough delay =>
    rw [Line.mapEmpty aligned]
    simp [resumeMoves, passes, resume, Progress.outputs, Line.moved]
  | passthrough => simp [resume, Progress.outputs]
  | null => simp [resume, Progress.outputs]
  | centreReduction reduction => simp [resume, Progress.outputs]
  | htdemucs self => simp [resume, Progress.outputs]
  | convTasNet self => simp [resume, Progress.outputs]
  | mdx23c self => simp [resume, Progress.outputs]

theorem interruptSilent (payload : Bytes) (p : Processor) : (p.interrupt payload).outputs = [] := by
  cases p <;> rfl

end Sources

end KaraokeAnything.Processors.Processor
