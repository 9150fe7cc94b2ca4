import KaraokeAnything.TasnetReach

/-! The whole network from samples to samples: which mixtures it takes, what it returns, and
which samples of the mixture decide one sample of a source. -/
namespace KaraokeAnything.Tasnet
open Layers ModelInference Python Tensors

variable {K : Type} {kernel : Kernel K} {hyper : Hyper}

def Hyper.frames (hyper : Hyper) (samples : Nat) : Nat := (samples - hyper.L) / (hyper.L / 2) + 1

section Encoding
variable {batch samples frame : Nat} {x y : Tensor K}

theorem encoded (kernel : Kernel K) (encoder : Encoder K hyper) (strides : 2 ≤ hyper.L)
    (shape : x.shape = [batch, hyper.audioChannels, samples]) (long : hyper.L ≤ samples) :
    ∃ u, encoder.forward kernel x = some u ∧ u.shape = [batch, hyper.N, hyper.frames samples] := by
  have channels : x.shape = [batch, hyper.audioChannels * 1, samples] := by
    rw [shape, Nat.mul_one]
  obtain ⟨u, made, done⟩ := @convShape K kernel x (hyper.L / 2) 0 1 1 hyper.N hyper.audioChannels
    hyper.L batch samples encoder.conv1dU channels Nat.one_pos (by omega) (by omega) (by omega)
  refine ⟨u.map kernel.relu, ?_, done.trans ?_⟩
  · simp only [Encoder.forward, made, Option.bind_eq_bind, Option.bind_some]
  · rw [Hyper.frames, show samples + 2 * 0 - (1 * (hyper.L - 1) + 1) = samples - hyper.L by omega]

theorem encoderRefuses (kernel : Kernel K) (encoder : Encoder K hyper)
    (shape : x.shape = [batch, hyper.audioChannels, samples])
    (short : samples < hyper.L ∨ hyper.L < 2) : encoder.forward kernel x = none := by
  have refused : kernel.conv1d (hyper.L / 2) 0 1 1 encoder.conv1dU x = none := by
    rw [Kernel.conv1d, shape]
    exact if_neg (by omega)
  simp only [Encoder.forward, refused, Option.bind_eq_bind, Option.bind_none]

theorem encoderNeedsChannels (kernel : Kernel K) (encoder : Encoder K hyper) {channels : Nat}
    (shape : x.shape = [batch, channels, samples]) (other : channels ≠ hyper.audioChannels) :
    encoder.forward kernel x = none := by
  have refused : kernel.conv1d (hyper.L / 2) 0 1 1 encoder.conv1dU x = none := by
    rw [Kernel.conv1d, shape]
    exact if_neg (by omega)
  simp only [Encoder.forward, refused, Option.bind_eq_bind, Option.bind_none]

theorem sameEncoded {encoder : Encoder K hyper} {u v : Tensor K} (strides : 2 ≤ hyper.L)
    (same : x.shape = y.shape) (left : encoder.forward kernel x = some u)
    (right : encoder.forward kernel y = some v)
    (agree : ∀ sample, frame * (hyper.L / 2) ≤ sample →
      sample < frame * (hyper.L / 2) + hyper.L → SameAt x y sample) : SameAt u v frame := by
  unfold Encoder.forward at left right
  obtain ⟨u', made, first⟩ := Option.bind_eq_some_iff.mp left
  obtain ⟨v', made', second⟩ := Option.bind_eq_some_iff.mp right
  cases first
  cases second
  refine sameMap kernel.relu (convSees same made made' fun sample low high => ?_)
  exact agree sample low (by omega)

end Encoding

section Decoding
variable {batch frames : Nat} {mixtureW estMask product : Tensor K}

def synthesised (kernel : Kernel K) (decoder : Decoder K hyper) (product : Tensor K)
    (frames b c a sample : Nat) : K :=
  (covering frames hyper.L (hyper.L / 2) sample).foldl (fun total frame =>
    kernel.add total (kernel.sum ((List.range hyper.N).map fun n =>
      kernel.mul (product.read kernel.zero [b, c, n, frame])
        (decoder.basisSignals.val.read kernel.zero
          [a * hyper.L + (sample - frame * (hyper.L / 2)), n])))) kernel.zero

theorem signals (kernel : Kernel K) (decoder : Decoder K hyper) (batches : 0 < batch)
    (sources : 0 < hyper.C) (audible : 0 < hyper.audioChannels) (some : 1 ≤ frames)
    (shape : product.shape = [batch, hyper.C, hyper.N, frames]) :
    ∃ sourceW estSource split turned, product.transposeAt kernel.zero 2 = Option.some sourceW ∧
      kernel.linear decoder.basisSignals sourceW = Option.some estSource ∧
      estSource.shape = [batch, hyper.C, frames, hyper.audioChannels * hyper.L] ∧
      estSource.viewOpen [batch, hyper.C, frames, hyper.audioChannels] [] = Option.some split ∧
      split.transposeAt kernel.zero 2 = Option.some turned ∧
      turned.shape = [batch, hyper.C, hyper.audioChannels] ++ [frames, hyper.L] ∧
      ∀ b c a frame l, Inside turned.shape [b, c, a, frame, l] →
        turned.entry [b, c, a, frame, l] = Option.some (kernel.sum ((List.range hyper.N).map fun n =>
          kernel.mul (product.read kernel.zero [b, c, n, frame])
            (decoder.basisSignals.val.read kernel.zero [a * hyper.L + l, n]))) := by
  obtain ⟨sourceW, exchanged, sourceShape, sourceFound⟩ :=
    @transposedAt K product [batch, hyper.C] [] hyper.N frames kernel.zero shape
  have last : sourceW.shape.getLast? = Option.some hyper.N := by rw [sourceShape]; rfl
  obtain ⟨estSource, made, estShape, estFound⟩ : ∃ u,
      kernel.linear decoder.basisSignals sourceW = Option.some u ∧
      u.shape = [batch, hyper.C, frames, hyper.audioChannels * hyper.L] ∧
      ∀ b c k o, Inside u.shape [b, c, k, o] →
        u.entry [b, c, k, o] = Option.some (kernel.sum ((List.range hyper.N).map fun n =>
          kernel.mul (sourceW.read kernel.zero [b, c, k, n])
            (decoder.basisSignals.val.read kernel.zero [o, n]))) := by
    refine ⟨_, if_pos last, ?_, fun b c k o inside => tabulatedEntry _ inside⟩
    rw [Tensor.tabulate, sourceShape]
    rfl
  obtain ⟨split, parted, splitShape, splitFound⟩ :=
    @viewSplit K estSource [batch, hyper.C, frames] [] _ _ estShape
  obtain ⟨turned, turnedBack, turnedShape, turnedFound⟩ :=
    @transposedAt K split [batch, hyper.C] [hyper.L] frames hyper.audioChannels kernel.zero splitShape
  have opened : estSource.viewOpen [batch, hyper.C, frames, hyper.audioChannels] [] =
      Option.some split := by
    rw [@viewOpened K estSource [batch, hyper.C, frames, hyper.audioChannels] [] hyper.L, ← parted]
    · rfl
    · simp only [List.append_nil, List.prod_cons, List.prod_nil, Nat.mul_one]
      exact Nat.mul_pos batches (Nat.mul_pos sources (Nat.mul_pos some audible))
    · rw [estSource.size, estShape]
      simp only [List.cons_append, List.nil_append, List.prod_cons, List.prod_nil, Nat.mul_one]
  refine ⟨sourceW, estSource, split, turned, exchanged, made, estShape, opened, turnedBack,
    turnedShape, fun b c a frame l inside => ?_⟩
  rw [turnedShape] at inside
  have less : l < hyper.L :=
    ((@insideMiddle [batch, hyper.C, hyper.audioChannels, frames] [] [b, c, a, frame] [] hyper.L l
      rfl).mp inside).2.1
  have split : Inside [batch, hyper.C, frames, hyper.audioChannels, hyper.L] [b, c, frame, a, l] :=
    (@insideExchanged [batch, hyper.C] [hyper.L] [b, c] [l] _ _ _ _ rfl).mp inside
  have joined : Inside estSource.shape [b, c, frame, a * hyper.L + l] := by
    rw [estShape]
    exact (@insideSplit [batch, hyper.C, frames] [] [b, c, frame] [] _ _ _ _ rfl less).mpr split
  have found := turnedFound [b, c] frame a [l] rfl
  have whole := splitFound [b, c, frame] a l [] rfl less
  rw [show turned.entry [b, c, a, frame, l] = _ from found.trans whole]
  refine (estFound b c frame _ joined).trans (congrArg Option.some (congrArg kernel.sum ?_))
  refine List.map_congr_left fun n _ => ?_
  have same : sourceW.entry [b, c, frame, n] = product.entry [b, c, n, frame] :=
    sourceFound [b, c] n frame [] rfl
  exact congrArg (fun found => kernel.mul (found.getD kernel.zero) _) same

theorem decoded (kernel : Kernel K) (decoder : Decoder K hyper) (strides : 2 ≤ hyper.L)
    (batches : 0 < batch) (sources : 0 < hyper.C) (audible : 0 < hyper.audioChannels)
    (some : 1 ≤ frames) (mixture : mixtureW.shape = [batch, hyper.N, frames])
    (mask : estMask.shape = [batch, hyper.C, hyper.N, frames]) :
    ∃ wide product u, mixtureW.unsqueeze 1 = Option.some wide ∧
      wide.shape = [batch, 1, hyper.N, frames] ∧
      wide.broadcast kernel.zero kernel.mul estMask = Option.some product ∧
      product.shape = [batch, hyper.C, hyper.N, frames] ∧
      decoder.forward kernel mixtureW estMask = Option.some u ∧
      u.shape = [batch, hyper.C, hyper.audioChannels, hyper.L / 2 * (frames - 1) + hyper.L] ∧
      ∀ b c a sample, Inside u.shape [b, c, a, sample] →
        u.entry [b, c, a, sample] =
          Option.some (synthesised kernel decoder product frames b c a sample) := by
  obtain ⟨wide, widened, wideShape, _⟩ := @unsqueezed K mixtureW [batch] [hyper.N, frames] mixture
  have widened : mixtureW.unsqueeze 1 = Option.some wide := widened
  have joined : broadcastShape wide.shape estMask.shape =
      Option.some [batch, hyper.C, hyper.N, frames] := by
    rw [wideShape, mask]
    simp only [List.cons_append, List.nil_append, broadcastEqual, broadcastLeft, broadcastSelf,
      Option.map_some]
  obtain ⟨product, multiplied, productShape, _⟩ := broadcasted kernel.zero kernel.mul joined
  obtain ⟨sourceW, estSource, split, turned, exchanged, made, estShape, opened, back, turnedShape,
    found⟩ := signals kernel decoder batches sources audible some productShape
  obtain ⟨u, added, done, entries⟩ := overlapAdded kernel turnedShape
    (by simp only [List.prod_cons, List.prod_nil, Nat.mul_one]
        exact Nat.mul_pos batches (Nat.mul_pos sources audible)) some (by omega : 1 ≤ hyper.L)
    (by omega : 1 ≤ hyper.L / 2)
  refine ⟨wide, product, u, widened, wideShape, multiplied, productShape, ?_, done,
    fun b c a sample inside => ?_⟩
  · simp only [Decoder.forward, widened, multiplied, exchanged, made, estShape, opened, back, added,
      Option.bind_eq_bind, Option.bind_some]
  · refine (entries [b, c, a] sample rfl inside).trans (congrArg Option.some ?_)
    refine List.foldl_ext _ _ _ fun total frame covered => congrArg (kernel.add total) ?_
    obtain ⟨listed, covers⟩ := List.mem_filter.mp covered
    obtain ⟨early, late⟩ := of_decide_eq_true covers
    have place : Inside turned.shape [b, c, a, frame, sample - frame * (hyper.L / 2)] := by
      rw [turnedShape]
      rw [done] at inside
      have front := ((@insideMiddle [batch, hyper.C, hyper.audioChannels] [] [b, c, a] [] _ sample
        rfl).mp inside).1
      exact (@insideMiddle [batch, hyper.C, hyper.audioChannels] [hyper.L] [b, c, a] _ _ _ rfl).mpr
        ⟨front, List.mem_range.mp listed, .cons (by omega) .nil⟩
    exact readEntry kernel.zero (found b c a frame _ place)

theorem sameSynthesised {decoder : Decoder K hyper} {product' : Tensor K} {frames b c a sample : Nat}
    (agree : ∀ frame, frame * (hyper.L / 2) ≤ sample →
      sample < frame * (hyper.L / 2) + hyper.L → SameAt product product' frame) :
    synthesised kernel decoder product frames b c a sample =
      synthesised kernel decoder product' frames b c a sample := by
  refine List.foldl_ext _ _ _ fun total frame covered => congrArg (kernel.add total) ?_
  obtain ⟨_, covers⟩ := List.mem_filter.mp covered
  obtain ⟨early, late⟩ := of_decide_eq_true covers
  refine congrArg kernel.sum (List.map_congr_left fun n _ => ?_)
  rw [show product.read kernel.zero [b, c, n, frame] = _ from
    sameRead kernel.zero (agree frame early late) [b, c, n]]
  rfl

end Decoding

section Whole
variable {batch samples sample : Nat} {x y u v : Tensor K}

theorem framesFit (long : hyper.L ≤ samples) :
    1 ≤ hyper.frames samples ∧
      hyper.L / 2 * (hyper.frames samples - 1) + hyper.L ≤ samples := by
  have whole := Nat.mul_div_le (samples - hyper.L) (hyper.L / 2)
  rw [Hyper.frames, Nat.add_sub_cancel]
  exact ⟨Nat.le_add_left 1 _, by omega⟩

structure Separation (kernel : Kernel K) (model : ConvTasNetStereo K hyper) (batch samples : Nat)
    (mixture : Tensor K) where
  mixtureW : Tensor K
  estMask : Tensor K
  wide : Tensor K
  product : Tensor K
  sources : Tensor K
  encodes : model.encoder.forward kernel mixture = some mixtureW
  encodedShape : mixtureW.shape = [batch, hyper.N, hyper.frames samples]
  masks : model.separator.forward kernel mixtureW = .ok estMask
  maskShape : estMask.shape = [batch, hyper.C, hyper.N, hyper.frames samples]
  widens : mixtureW.unsqueeze 1 = some wide
  wideShape : wide.shape = [batch, 1, hyper.N, hyper.frames samples]
  multiplies : wide.broadcast kernel.zero kernel.mul estMask = some product
  returns : model.forward kernel mixture = .ok sources
  shape : sources.shape = [batch, hyper.C, hyper.audioChannels, samples]
  entry : ∀ b c a sample, Inside sources.shape [b, c, a, sample] →
    sources.entry [b, c, a, sample] = some (
      if sample < hyper.L / 2 * (hyper.frames samples - 1) + hyper.L then
        synthesised kernel model.decoder product (hyper.frames samples) b c a sample
      else kernel.zero)

theorem separated (sound : hyper.Sound) (supported : hyper.Supported) (strides : 2 ≤ hyper.L)
    (batches : 0 < batch) (sources : 0 < hyper.C) (audible : 0 < hyper.audioChannels)
    (kernel : Kernel K) (model : ConvTasNetStereo K hyper)
    (shape : x.shape = [batch, hyper.audioChannels, samples]) (long : hyper.L ≤ samples) :
    Nonempty (Separation kernel model batch samples x) := by
  obtain ⟨some, fits⟩ := framesFit long
  obtain ⟨mixtureW, encodes, encodedShape⟩ := encoded kernel model.encoder strides shape long
  obtain ⟨estMask, masks, maskShape⟩ := masked sound supported kernel model.separator encodedShape some
  obtain ⟨wide, product, estSource, widens, wideShape, multiplies, productShape, decodes, estShape,
    found⟩ := decoded kernel model.decoder strides batches sources audible some encodedShape maskShape
  obtain ⟨padded, grown, paddedShape, paddedFound⟩ := @padded K estSource
    [batch, hyper.C, hyper.audioChannels] _ estShape
    (samples - (hyper.L / 2 * (hyper.frames samples - 1) + hyper.L)) kernel.zero
  rw [Nat.add_sub_cancel' fits] at paddedShape paddedFound
  have origin : x.width = Option.some samples := by rw [Tensor.width, shape]; rfl
  have current : estSource.width =
      Option.some (hyper.L / 2 * (hyper.frames samples - 1) + hyper.L) := by
    rw [Tensor.width, estShape]
    rfl
  refine ⟨⟨mixtureW, estMask, wide, product, padded, encodes, encodedShape, masks, maskShape, widens,
    wideShape, multiplies, ?_, paddedShape, fun b c a sample inside => ?_⟩⟩
  · simp only [ConvTasNetStereo.forward, encodes, masks, decodes, origin, padTo, current,
      ModelInference.torch, Option.bind_some, fits, if_true, grown, bind,
      Except.bind]
  · rw [paddedShape] at inside
    obtain ⟨front, less, -⟩ := (@insideMiddle [batch, hyper.C, hyper.audioChannels] [] [b, c, a] [] _
      sample rfl).mp inside
    refine (paddedFound [b, c, a] sample front less).trans ?_
    split
    · rename_i within
      refine found b c a sample ?_
      rw [estShape]
      exact (@insideMiddle [batch, hyper.C, hyper.audioChannels] [] [b, c, a] [] _ sample rfl).mpr
        ⟨front, within, .nil⟩
    · rfl

theorem forwardReturns (sound : hyper.Sound) (batches : 0 < batch) (sources : 0 < hyper.C)
    (audible : 0 < hyper.audioChannels) (kernel : Kernel K) (model : ConvTasNetStereo K hyper)
    (x : Tensor K) (shape : x.shape = [batch, hyper.audioChannels, samples]) :
    ((∃ u, model.forward kernel x = .ok u) ↔
      hyper.Supported ∧ 2 ≤ hyper.L ∧ hyper.L ≤ samples) ∧
    ∀ u, model.forward kernel x = .ok u →
      u.shape = [batch, hyper.C, hyper.audioChannels, samples] := by
  by_cases takes : 2 ≤ hyper.L ∧ hyper.L ≤ samples
  · obtain ⟨strides, long⟩ := takes
    by_cases supported : hyper.Supported
    · obtain ⟨run⟩ := separated sound supported strides batches sources audible kernel model shape long
      refine ⟨⟨fun _ => ⟨supported, strides, long⟩, fun _ => ⟨_, run.returns⟩⟩, fun u returned => ?_⟩
      cases Except.ok.inj (returned.symm.trans run.returns)
      exact run.shape
    · obtain ⟨mixtureW, encodes, encodedShape⟩ := encoded kernel model.encoder strides shape long
      have refused := maskRefused sound supported kernel model.separator encodedShape
        (framesFit long).1
      have raises : ∀ u, model.forward kernel x ≠ .ok u := by
        intro u returned
        simp only [ConvTasNetStereo.forward, encodes, refused, ModelInference.torch, bind,
          Except.bind] at returned
        contradiction
      exact ⟨⟨fun returned => returned.elim fun u same => absurd same (raises u), fun needs => absurd needs.1 supported⟩,
        fun u returned => absurd returned (raises u)⟩
  · have raises : ∀ u, model.forward kernel x ≠ .ok u := by
      intro u returned
      simp only [ConvTasNetStereo.forward, encoderRefuses kernel model.encoder shape (by omega),
        ModelInference.torch, bind, Except.bind] at returned
      contradiction
    exact ⟨⟨fun returned => returned.elim fun u same => absurd same (raises u), fun needs => absurd needs.2 takes⟩,
      fun u returned => absurd returned (raises u)⟩

theorem sameWidened {frames frame : Nat} {w w' wide wide' : Tensor K}
    (shape : w.shape = [batch, hyper.N, frames]) (same : SameAt w w' frame)
    (left : w.unsqueeze 1 = some wide) (right : w'.unsqueeze 1 = some wide') :
    SameAt wide wide' frame := by
  obtain ⟨_, made, done, found⟩ := @unsqueezed K w [batch] [hyper.N, frames] shape
  obtain ⟨_, made', done', found'⟩ := @unsqueezed K w' [batch] [hyper.N, frames] (same.1 ▸ shape)
  cases Option.some.inj (left.symm.trans made)
  cases Option.some.inj (right.symm.trans made')
  refine ⟨done.trans done'.symm, fun start => ?_⟩
  by_cases inside : Inside [batch, 1, hyper.N, frames] (start ++ [frame])
  · obtain ⟨b, c, n, rfl, -, first, -, -⟩ := startFour inside
    cases Nat.lt_one_iff.mp first
    exact (found [b] [n, frame] rfl).trans ((same.2 [b, n]).trans (found' [b] [n, frame] rfl).symm)
  · rw [entryOutside (done ▸ inside), entryOutside (done' ▸ inside)]

theorem sameProduct (sound : hyper.Sound) (near : Near (choseNorm hyper.normType))
    (strides : 2 ≤ hyper.L) {model : ConvTasNetStereo K hyper}
    (left : Separation kernel model batch samples x) (right : Separation kernel model batch samples y)
    (same : x.shape = y.shape) {frame : Nat}
    (agree : ∀ between, Window hyper.memory hyper.lookahead frame between →
      ∀ other, between * (hyper.L / 2) ≤ other → other < between * (hyper.L / 2) + hyper.L →
        SameAt x y other) : SameAt left.product right.product frame := by
  have encodedSame (between : Nat) (within : Window hyper.memory hyper.lookahead frame between) :
      SameAt left.mixtureW right.mixtureW between :=
    sameEncoded strides same left.encodes right.encodes (agree between within)
  have some : 1 ≤ hyper.frames samples := Nat.le_add_left 1 _
  have masks := sameMasked sound left.encodedShape some
    (left.encodedShape.trans right.encodedShape.symm) near encodedSame left.masks right.masks
  have wides := sameWidened left.encodedShape
    (encodedSame frame ⟨Nat.le_add_right _ _, Nat.le_add_right _ _⟩) left.widens right.widens
  refine sameBroadcast [batch, hyper.C, hyper.N] ?_ (.inr ⟨wides, [batch, 1, hyper.N], left.wideShape⟩)
    (.inr ⟨masks, [batch, hyper.C, hyper.N], left.maskShape⟩) left.multiplies right.multiplies
  rw [left.wideShape, left.maskShape]
  simp only [List.cons_append, List.nil_append, broadcastEqual, broadcastLeft, broadcastSelf,
    Option.map_some]

theorem samplesCovered {step memory lookahead frame between other length sample : Nat}
    (early : frame * step ≤ sample) (late : sample < frame * step + length)
    (within : Window memory lookahead frame between) (low : between * step ≤ other)
    (high : other < between * step + length) :
    sample < other + (length + memory * step) ∧ other < sample + (length + lookahead * step) := by
  have back := Nat.mul_le_mul_right step within.1
  have ahead := Nat.mul_le_mul_right step within.2
  rw [Nat.add_mul] at back ahead
  omega

/- With norms inside a frame, a sample of a source is decided by a window of the mixture: the
frames that cover it and those the blocks look back to and, where they are not causal, ahead. -/
theorem forwardReach (sound : hyper.Sound) (near : Near (choseNorm hyper.normType))
    (batches : 0 < batch) (sources : 0 < hyper.C) (audible : 0 < hyper.audioChannels)
    (kernel : Kernel K) (model : ConvTasNetStereo K hyper) (x y u v : Tensor K)
    (shape : x.shape = [batch, hyper.audioChannels, samples]) (same : x.shape = y.shape)
    (left : model.forward kernel x = .ok u) (right : model.forward kernel y = .ok v)
    (agree : ∀ other, sample < other + (hyper.L + hyper.memory * (hyper.L / 2)) →
      other < sample + (hyper.L + hyper.lookahead * (hyper.L / 2)) → SameAt x y other) :
    SameAt u v sample := by
  obtain ⟨supported, strides, long⟩ :=
    (forwardReturns sound batches sources audible kernel model x shape).1.mp ⟨u, left⟩
  obtain ⟨first⟩ := separated sound supported strides batches sources audible kernel model shape long
  obtain ⟨second⟩ := separated sound supported strides batches sources audible kernel model
    (same ▸ shape) long
  cases Except.ok.inj (left.symm.trans first.returns)
  cases Except.ok.inj (right.symm.trans second.returns)
  refine ⟨first.shape.trans second.shape.symm, fun start => ?_⟩
  by_cases inside : Inside [batch, hyper.C, hyper.audioChannels, samples] (start ++ [sample])
  · obtain ⟨b, c, a, rfl, -⟩ := startFour inside
    have inside : Inside [batch, hyper.C, hyper.audioChannels, samples] [b, c, a, sample] := inside
    refine (first.entry b c a sample (first.shape ▸ inside)).trans ((congrArg some ?_).trans
      (second.entry b c a sample (second.shape ▸ inside)).symm)
    split
    · refine sameSynthesised fun frame early late => ?_
      refine sameProduct sound near strides first second same fun between within other low high => ?_
      obtain ⟨back, ahead⟩ := samplesCovered early late within low high
      exact agree other back ahead
    · rfl
  · rw [entryOutside (first.shape ▸ inside), entryOutside (second.shape ▸ inside)]

theorem networkReturns (sound : hyper.Sound) (batches : 0 < batch) (sources : 0 < hyper.C)
    (audible : 0 < hyper.audioChannels) (kernel : Kernel K) (model : ConvTasNetStereo K hyper)
    (x : Tensor K) (shape : x.shape = [batch, hyper.audioChannels, samples]) :
    ((∃ u, model.forward kernel x = .ok u) ↔
      hyper.Supported ∧ 2 ≤ hyper.L ∧ hyper.L ≤ samples) ∧
    ∀ u, model.forward kernel x = .ok u →
      u.shape = [batch, hyper.C, hyper.audioChannels, samples] ∧
      (Near (choseNorm hyper.normType) → ∀ y v sample, x.shape = y.shape →
        model.forward kernel y = .ok v →
        (∀ other, sample < other + (hyper.L + hyper.memory * (hyper.L / 2)) →
          other < sample + (hyper.L + hyper.lookahead * (hyper.L / 2)) → SameAt x y other) →
        SameAt u v sample) := by
  obtain ⟨takes, shaped⟩ := forwardReturns sound batches sources audible kernel model x shape
  refine ⟨takes, fun u returned => ⟨shaped u returned, fun near y v sample same other agree => ?_⟩⟩
  exact forwardReach sound near batches sources audible kernel model x y u v shape same returned
    other agree

end Whole

section Even

def evenWeights (value : Float32) (shape : List Nat) : Weights Float32 shape :=
  ⟨Tensor.tabulate shape fun _ => value, rfl⟩

def evenNorm (channelSize : Nat) : (kind : Normalisation) → Norm Float32 channelSize kind
  | .gLN => .globalLayerNorm (evenWeights 1 _) (evenWeights 0 _)
  | .cLN => .channelwiseLayerNorm (evenWeights 1 _) (evenWeights 0 _)
  | .id => .identity
  | .batchNorm =>
    .batchNorm (evenWeights 0 _) (evenWeights 1 _) (evenWeights 1 _) (evenWeights 0 _)

def evenNetwork (hyper : Hyper) : ConvTasNetStereo Float32 hyper where
  encoder := ⟨evenWeights 0.5 _⟩
  separator :=
    { gamma := evenWeights 1 _
      beta := evenWeights 0 _
      bottleneck := evenWeights 0.5 _
      blocks := fun _ _ =>
        { expand := evenWeights 0.5 _
          slope := 0.25
          norm := evenNorm _ _
          separable := ⟨evenWeights 0.5 _, 0.25, evenNorm _ _, evenWeights 0.5 _⟩ }
      maskConv := evenWeights 0.5 _ }
  decoder := ⟨evenWeights 0.5 _⟩

def causalHyper : Hyper :=
  { N := 2, L := 2, B := 2, H := 3, X := 1, R := 1, C := 2, audioChannels := 2, normType := "cLN",
    causal := true }

theorem causalSound : causalHyper.Sound := ⟨by decide, by decide, .inl rfl⟩

theorem causalSupported : causalHyper.Supported := .inr rfl

theorem causalNear : Near (choseNorm causalHyper.normType) :=
  fun equal => absurd equal (by decide : choseNorm "cLN" ≠ .gLN)

theorem networkReturnsCausal :
    let model := evenNetwork causalHyper
    let silence := Tensor.tabulate [1, 2, 6] fun _ => (0 : Float32)
    let late := Tensor.tabulate [1, 2, 6] fun place => if place.getD 2 0 < 2 then (0 : Float32) else 1
    ∃ u v, model.forward floatKernel silence = .ok u ∧ model.forward floatKernel late = .ok v ∧
      u.shape = [1, 2, 2, 6] ∧ SameAt u v 0 := by
  intro model silence late
  have quiet := networkReturns causalSound Nat.one_pos (by decide) (by decide) floatKernel model
    silence rfl
  have loud := networkReturns causalSound Nat.one_pos (by decide) (by decide) floatKernel model
    late rfl
  obtain ⟨u, left⟩ := quiet.1.mpr ⟨causalSupported, by decide, by decide⟩
  obtain ⟨v, right⟩ := loud.1.mpr ⟨causalSupported, by decide, by decide⟩
  obtain ⟨shape, reach⟩ := quiet.2 u left
  refine ⟨u, v, left, right, shape, reach causalNear late v 0 rfl right fun other _ ahead => ?_⟩
  have before : other < 2 := ahead
  refine sameTabulated fun start inside => ?_
  obtain ⟨i, j, rfl, -⟩ := startThree inside
  exact (if_pos before).symm

end Even

end KaraokeAnything.Tasnet
