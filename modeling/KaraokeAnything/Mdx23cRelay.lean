import Mathlib.Order.Defs.Unbundled
import KaraokeAnything.Mdx23cSteps
import KaraokeAnything.SegmentedRelay

/-! What MDX23C holds between two calls, as the headers of the packets it may still
answer, and how each of its methods moves them. -/
namespace KaraokeAnything.Mdx23cVocals
open ByteOrder Kany Models Python Stateful
open SegmentedInference (headerOf slices takenSegment)

def heldHeaders (s : State) : List Bytes :=
  s.readyOutput.map headerOf ++ s.activePackets.map (·.val.rawHeader) ++
    s.inputPackets.map (·.val.rawHeader)

def Forgets (s t : State) : Prop :=
  (heldHeaders t).Sublist (heldHeaders s) ∧ t.segmentSeconds = s.segmentSeconds ∧
    t.overlap = s.overlap ∧ t.maxBufferedSegments = s.maxBufferedSegments

instance : Std.Refl Forgets := ⟨fun _ => ⟨List.Sublist.refl _, rfl, rfl, rfl⟩⟩

instance : IsTrans State Forgets where
  trans _ _ _ first second := ⟨second.1.trans first.1, second.2.1.trans first.2.1,
    second.2.2.1.trans first.2.2.1, second.2.2.2.trans first.2.2.2⟩

theorem decodedHeader {host : HostOrder} {payload : Bytes} {packet : StereoPacket}
    (ok : decodeAndValidate host payload = .ok packet) :
    packet.val.rawHeader = payload.take headerSize := by
  obtain ⟨_, _, _, _, _, _, header, _⟩ := decodeFields (validated.mp ok)
  exact header

section Harvest

def unharvestable (s : State) : Bool :=
  match s.inferenceTask.bind (·.outcome) with
  | none => false
  | some (.returned output) =>
    output.length != sampleTotal s.activePackets || !(fadeLength s output).isFinite
  | some _ => true

theorem slicesHeaders (host : HostOrder) {s : State} {output : List UInt32}
    (size : output.length = sampleTotal s.activePackets) :
    (slices (crossfaded s output) (items s.activePackets) 0).map headerOf =
      s.activePackets.map (·.val.rawHeader) := by
  have enough : 0 + SegmentedInference.sampleTotal (items s.activePackets) ≤
      (crossfaded s output).length := by
    rw [crossfadedLength, size, sampleTotalItems, Nat.zero_add]
  obtain ⟨headers, _, _⟩ := SegmentedInference.slicesFrom host _ _ 0 enough
  refine Eq.trans headers ?_
  rw [items, List.map_map]
  rfl

theorem harvestForgets (host : HostOrder) (s : State) :
    Forgets s (exec (harvestInference host) s).2 ∧
      ((∃ e, (exec (harvestInference host) s).1 = .error e) ↔ unharvestable s = true) := by
  have went := harvestCases host s
  generalize exec (harvestInference host) s = call at went ⊢
  cases went with
  | idle running => exact ⟨Std.Refl.refl s, by simp [unharvestable, running]⟩
  | cut output done size finite =>
    have headers := slicesHeaders host size
    refine ⟨⟨?_, rfl, rfl, rfl⟩, by simp [unharvestable, done, size, finite]⟩
    simp [heldHeaders, harvested, headers]
  | lost outcome e done failed =>
    refine ⟨⟨by simp [heldHeaders, afterFailure], rfl, rfl, rfl⟩, ?_⟩
    cases outcome with
    | returned output =>
      have size : output.length ≠ sampleTotal s.activePackets := failed
      simp [unharvestable, done, size]
    | raised text => simp [unharvestable, done]
    | cancelled => exact failed.elim
  | stuck outcome e done kept infinite =>
    refine ⟨⟨List.Sublist.refl _, rfl, rfl, rfl⟩, ?_⟩
    cases outcome with
    | returned output => simp [unharvestable, done, infinite output rfl]
    | raised text => exact absurd trivial kept
    | cancelled => simp [unharvestable, done]

end Harvest

section Process

theorem pushedHeaders {host : HostOrder} {payload : Bytes} {packet : StereoPacket} (t : State)
    (decoded : decodeAndValidate host payload = .ok packet) :
    heldHeaders (pushed (withFormat t packet) packet) = heldHeaders t ++ [payload.take headerSize] := by
  simp [heldHeaders, pushed, withFormat, decodedHeader decoded]

theorem trimmedForgets (s : State) (maximum : Int) : Forgets s (trimmed s maximum) := by
  obtain ⟨kept, _⟩ := dropOldestExact maximum s.inputPackets s.inputFrames
  refine ⟨?_, rfl, rfl, rfl⟩
  simp only [heldHeaders, trimmed, kept]
  exact (List.Sublist.refl _).append ((List.drop_sublist _ _).map _)

theorem launchedForgets (s : State) (frames : Int) : Forgets s (launchedWhenReady s frames) := by
  unfold launchedWhenReady
  split
  · obtain ⟨split, _⟩ := takenSegment (·.val.frames) frames s.inputPackets 0
    refine ⟨?_, rfl, rfl, rfl⟩
    simp only [heldHeaders, launched]
    conv => rhs; rw [split]
    simp
  · exact Std.Refl.refl s

def Relays (given : List Bytes) (s : State) (outputs : List ProcessedPacket) (t : State) : Prop :=
  (outputs.map headerOf ++ heldHeaders t).Sublist (heldHeaders s ++ given) ∧
  t.segmentSeconds = s.segmentSeconds ∧ t.overlap = s.overlap ∧
  t.maxBufferedSegments = s.maxBufferedSegments

theorem popRelays (s : State) : Relays [] s (s.readyOutput.take 1) (popped s) := by
  refine ⟨?_, rfl, rfl, rfl⟩
  simp only [heldHeaders, popped, List.append_nil, ← List.append_assoc, ← List.map_append,
    List.take_append_drop]
  exact List.Sublist.refl _

theorem forgetsRelays {s t : State} (given : List Bytes) (forgets : Forgets s t) :
    Relays given s [] t :=
  ⟨forgets.1.trans (List.sublist_append_left _ _), forgets.2⟩

/- The packet of a call that suspends is gone: after the reset it awaits the call raises,
and never comes to buffering it. -/
theorem processRelays (host : HostOrder) (payload : Bytes) (s : State) :
    let call := exec (process host payload) s
    Relays (if call.1.toOption = some none then [] else [payload.take headerSize]) s
      ((call.1.toOption.bind id).getD []) call.2 := by
  obtain ⟨harvested, _⟩ := harvestForgets host s
  have processed := processCases host payload s
  generalize exec (process host payload) s = call at processed
  cases processed with
  | harvestRaised e t raised =>
    rw [raised] at harvested
    exact forgetsRelays _ harvested
  | invalid e t harvest refused =>
    rw [harvest] at harvested
    exact forgetsRelays _ harvested
  | suspended t packet harvest decoded differs tracked =>
    rw [harvest] at harvested
    have cancels : Forgets t (cancelInference t) := ⟨List.Sublist.refl _, rfl, rfl, rfl⟩
    exact forgetsRelays _ (IsTrans.trans _ _ _ harvested cancels)
  | formatRaised t packet harvest decoded differs tracked =>
    rw [harvest] at harvested
    have clears : Forgets t (clear t) := ⟨List.nil_sublist _, rfl, rfl, rfl⟩
    exact forgetsRelays _ (IsTrans.trans _ _ _ harvested clears)
  | limitRaised e t packet harvest decoded fits raises =>
    rw [harvest] at harvested
    have room := harvested.1.append (List.Sublist.refl [payload.take headerSize])
    rw [← pushedHeaders t decoded] at room
    exact ⟨room, harvested.2⟩
  | admits t packet maximum frames harvest decoded fits room length =>
    rw [harvest] at harvested
    have room := harvested.1.append (List.Sublist.refl [payload.take headerSize])
    rw [← pushedHeaders t decoded] at room
    have trims := trimmedForgets (pushed (withFormat t packet) packet) maximum
    have after := IsTrans.trans _ _ _ trims (launchedForgets (admitted t packet maximum) frames)
    have popped := popRelays (launchedWhenReady (admitted t packet maximum) frames)
    rw [Relays, List.append_nil] at popped
    exact ⟨popped.1.trans (after.1.trans room), popped.2.1.trans (after.2.1.trans harvested.2.1),
      popped.2.2.1.trans (after.2.2.1.trans harvested.2.2.1),
      popped.2.2.2.trans (after.2.2.2.trans harvested.2.2.2)⟩

theorem flushRelays (host : HostOrder) (s : State) :
    let call := exec (flush host) s
    Relays [] s (call.1.toOption.getD []) call.2 := by
  obtain ⟨harvested, _⟩ := harvestForgets host s
  rcases drainCases host s with ⟨e, t, raised, call⟩ | ⟨t, harvest, call⟩
  · rw [raised] at harvested
    rw [call]
    exact forgetsRelays _ harvested
  · rw [harvest] at harvested
    rw [call]
    refine ⟨?_, harvested.2⟩
    simpa [Except.toOption, heldHeaders] using harvested.1

theorem flushFails (host : HostOrder) (s : State) :
    (∃ e, (exec (flush host) s).1 = .error e) ↔ unharvestable s = true := by
  rw [← (harvestForgets host s).2]
  rcases drainCases host s with ⟨e, t, raised, call⟩ | ⟨t, harvest, call⟩
  · rw [raised, call]
    simp
  · rw [harvest, call]
    simp

end Process

end KaraokeAnything.Mdx23cVocals
