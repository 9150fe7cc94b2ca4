import KaraokeAnything.SegmentedLedger

/-! What the segment machinery holds between two calls, as the headers of the
packets it may still answer, and how each method moves them. -/
namespace KaraokeAnything.SegmentedInference
open ByteOrder Kany Models Python Stateful

def headerOf (output : ProcessedPacket) : Bytes := output.payload.take headerSize

def heldHeaders (s : State) : List Bytes :=
  s.readyOutput.map headerOf ++ s.activePackets.map (·.rawHeader) ++
    s.inputPackets.map (·.rawHeader)

def unharvestable (s : State) : Bool :=
  match s.inferenceTask.bind (·.outcome) with
  | none => false
  | some (.returned separated) => separated.length != sampleTotal s.activePackets
  | some _ => true

theorem decodedHeader {host : HostOrder} {model : SegmentModel} {payload : Bytes}
    {packet : KanyPacket} (decoded : model.decodeAndValidate host payload = .ok packet) :
    packet.rawHeader = payload.take headerSize := by
  obtain ⟨_, _, _, _, _, _, header, _⟩ := decodeFields (model.decodes decoded)
  exact header

theorem harvestHeld (host : HostOrder) (model : SegmentModel) (s : State) :
    let t := (exec (harvestInference host model) s).2
    (heldHeaders t).Sublist (heldHeaders s) ∧ t.segmentSeconds = s.segmentSeconds := by
  have went := harvestCases host model s
  generalize exec (harvestInference host model) s = call at went ⊢
  cases went with
  | idle running => exact ⟨List.Sublist.refl _, rfl⟩
  | cut separated done size =>
    obtain ⟨headers, _, _⟩ := slicesFrom host separated s.activePackets 0 (by omega)
    have same : (slices separated s.activePackets 0).map headerOf =
        s.activePackets.map (·.rawHeader) := headers
    exact ⟨by simp [heldHeaders, harvested, same], rfl⟩
  | lost outcome done failed => exact ⟨by simp [heldHeaders, afterFailure], rfl⟩

theorem harvestRaises (host : HostOrder) (model : SegmentModel) (s : State) :
    (∃ e, (exec (harvestInference host model) s).1 = .error e) ↔ unharvestable s = true := by
  unfold unharvestable
  have went := harvestCases host model s
  generalize exec (harvestInference host model) s = call at went ⊢
  cases went with
  | idle running => simp [running]
  | cut separated done size => simp [done, size]
  | lost outcome done failed =>
    cases outcome with
    | returned separated => simpa [done] using failed separated rfl
    | raised text => simp [done]
    | cancelled => simp [done]

theorem emitHeld (w : World) (count : Nat) :
    (afterEmit w count).journal.emitted.map headerOf ++ heldHeaders (afterEmit w count).self =
      w.journal.emitted.map headerOf ++ heldHeaders w.self := by
  have split : w.self.readyOutput.map headerOf =
      (w.self.readyOutput.take count).map headerOf ++
        (w.self.readyOutput.drop count).map headerOf := by
    rw [← List.map_append, List.take_append_drop]
  simp only [afterEmit, heldHeaders, split, List.map_append, List.append_assoc]

theorem admitHeld {host : HostOrder} {model : SegmentModel} {payload : Bytes}
    {packet : KanyPacket} (s : State) (decoded : model.decodeAndValidate host payload = .ok packet) :
    heldHeaders (queued s packet) = heldHeaders s ++ [payload.take headerSize] := by
  simp [heldHeaders, queued, withFormat, decodedHeader decoded]

theorem launchHeld (s : State) (target : Int) :
    (heldHeaders (launched s target)).Sublist (heldHeaders s) := by
  obtain ⟨split, _⟩ := takenSegment (·.frames) target s.inputPackets 0
  simp only [heldHeaders, launched]
  conv => rhs; rw [split]
  simp

theorem processedRelays {host : HostOrder} {model : SegmentModel} {w next : World}
    {payload : Bytes} (processed : Processed host model w payload next) :
    (next.journal.emitted.map headerOf ++ heldHeaders next.self).Sublist
      (w.journal.emitted.map headerOf ++ (heldHeaders w.self ++ [payload.take headerSize])) ∧
    next.self.segmentSeconds = w.self.segmentSeconds := by
  have before := List.Sublist.refl (w.journal.emitted.map headerOf)
  obtain ⟨held, seconds⟩ := harvestHeld host model w.self
  have kept : (heldHeaders (afterHarvest host model w).self).Sublist
      (heldHeaders w.self ++ [payload.take headerSize]) :=
    held.trans (List.sublist_append_left _ _)
  have more : (heldHeaders (afterHarvest host model w).self ++ [payload.take headerSize]).Sublist
      (heldHeaders w.self ++ [payload.take headerSize]) := held.append (List.Sublist.refl _)
  cases processed with
  | harvestRaised e raised => exact ⟨before.append kept, seconds⟩
  | invalid e refused => exact ⟨before.append kept, seconds⟩
  | formatChanged packet decoded differs => exact ⟨before.append kept, seconds⟩
  | targetRaised packet decoded fits infinite =>
    rw [← admitHeld _ decoded] at more
    exact ⟨before.append more, seconds⟩
  | buffered packet decoded fits finite =>
    rw [← admitHeld _ decoded] at more
    rw [emitHeld]
    exact ⟨before.append more, seconds⟩
  | launched packet decoded fits target free finite =>
    rw [← admitHeld _ decoded] at more
    rw [emitHeld]
    exact ⟨before.append ((launchHeld _ target).trans more), seconds⟩

def Relays (given : List Bytes) (s : State) (call : Except PyError (List ProcessedPacket) × State) :
    Prop :=
  ((call.1.toOption.getD []).map headerOf ++ heldHeaders call.2).Sublist (heldHeaders s ++ given) ∧
  call.2.segmentSeconds = s.segmentSeconds

theorem processRelays (host : HostOrder) (model : SegmentModel) (payload : Bytes) (s : State) :
    Relays [payload.take headerSize] s (exec (process host model payload) s) := by
  have relayed := processedRelays (processCases host model { self := s } payload)
  simp only [step] at relayed
  rcases call : exec (process host model payload) s with ⟨result, t⟩
  rw [call] at relayed
  cases result with
  | ok outputs => exact relayed
  | error e => exact relayed

theorem flushRelays (host : HostOrder) (model : SegmentModel) (s : State) :
    Relays [] s (exec (flush host model) s) := by
  obtain ⟨held, seconds⟩ := harvestHeld host model s
  rcases flushCases host model s with ⟨e, t, raised, call⟩ | ⟨t, harvest, call⟩
  · rw [raised] at held seconds
    rw [call]
    exact ⟨by simpa [Except.toOption] using held, seconds⟩
  · rw [harvest] at held seconds
    rw [call]
    exact ⟨by simpa [Except.toOption, heldHeaders] using held, seconds⟩

theorem flushFails (host : HostOrder) (model : SegmentModel) (s : State) :
    (∃ e, (exec (flush host model) s).1 = .error e) ↔ unharvestable s = true := by
  rw [← harvestRaises host model s]
  rcases flushCases host model s with ⟨e, t, raised, call⟩ | ⟨t, harvest, call⟩
  · rw [raised, call]
    simp
  · rw [harvest, call]
    simp

end KaraokeAnything.SegmentedInference
