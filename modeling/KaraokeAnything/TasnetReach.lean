import Mathlib.Algebra.GroupWithZero.Nat
import KaraokeAnything.TasnetOverlap

/-! What the network keeps and what it looks at: as many samples come out as went in, and with
norms that stay inside a frame each sample is decided by a window of the input. -/
namespace KaraokeAnything.Tasnet
open Layers Tensors

variable {K : Type} {kernel : Kernel K} {hyper : Hyper}

def Near (kind : Normalisation) : Prop := kind ≠ .gLN

section Norms

theorem parameterBefore (batch channels frames : Nat) : broadcastShape [1, channels, 1]
    [batch, channels, frames] = some [batch, channels, frames] := by
  rw [broadcastLeft, broadcastEqual, broadcastLeft]
  rfl

theorem parameterBehind (batch channels frames : Nat) : broadcastShape [batch, channels, frames]
    [1, channels, 1] = some [batch, channels, frames] := by
  rw [broadcastRight, broadcastEqual, broadcastRight]
  rfl

variable {channelSize batch frames frame : Nat} {value value' mean mean' variance variance' : Tensor K}
variable {gamma beta : Weights K [1, channelSize, 1]}

theorem normalisedSteps {columns : Nat} (shape : value.shape = [batch, channelSize, frames])
    (means : mean.shape = [batch, 1, columns]) (variances : variance.shape = [batch, 1, columns])
    (wide : columns = frames ∨ columns = 1) :
    let spread := variance.map fun v => kernel.root (kernel.add v kernel.epsilon)
    ∃ centred scaled unit u, value.broadcast kernel.zero kernel.sub mean = some centred ∧
      gamma.val.broadcast kernel.zero kernel.mul centred = some scaled ∧
      scaled.broadcast kernel.zero kernel.div spread = some unit ∧
      unit.broadcast kernel.zero kernel.add beta.val = some u ∧
      normalised kernel gamma beta value mean variance = some u ∧
      centred.shape = [batch, channelSize, frames] ∧ scaled.shape = [batch, channelSize, frames] ∧
      unit.shape = [batch, channelSize, frames] ∧ u.shape = [batch, channelSize, frames] := by
  intro spread
  have last : broadcastShape [frames] [columns] = some [frames] := by
    obtain rfl | rfl := wide
    · exact broadcastSelf _
    · exact broadcastRight _ _ _
  have repeated : broadcastShape [batch, channelSize, frames] [batch, 1, columns] =
      some [batch, channelSize, frames] := by rw [broadcastEqual, broadcastRight, last]; rfl
  obtain ⟨centred, subtracted, centredShape, _⟩ :=
    @broadcasted K value mean _ kernel.zero kernel.sub (by rw [shape, means, repeated])
  obtain ⟨scaled, multiplied, scaledShape, _⟩ :=
    @broadcasted K gamma.val centred _ kernel.zero kernel.mul (by
      rw [gamma.property, centredShape, parameterBefore])
  obtain ⟨unit, divided, unitShape, _⟩ :=
    @broadcasted K scaled spread _ kernel.zero kernel.div (by
      rw [scaledShape, show spread.shape = _ from variances, repeated])
  obtain ⟨u, added, done, _⟩ := @broadcasted K unit beta.val _ kernel.zero kernel.add (by
    rw [unitShape, beta.property, parameterBehind])
  refine ⟨centred, scaled, unit, u, subtracted, multiplied, divided, added, ?_, centredShape,
    scaledShape, unitShape, done⟩
  simp only [normalised, subtracted, multiplied, spread, divided, added, Option.bind_eq_bind,
    Option.bind_some]

theorem normalisedSees {u v : Tensor K} (shape : value.shape = [batch, channelSize, frames])
    (means : mean.shape = [batch, 1, frames]) (variances : variance.shape = [batch, 1, frames])
    (sameValue : SameAt value value' frame) (sameMean : SameAt mean mean' frame)
    (sameVariance : SameAt variance variance' frame)
    (left : normalised kernel gamma beta value mean variance = some u)
    (right : normalised kernel gamma beta value' mean' variance' = some v) : SameAt u v frame := by
  obtain ⟨centred, scaled, unit, _, subtracted, multiplied, divided, added, made, centredShape,
    scaledShape, unitShape, _⟩ := @normalisedSteps K kernel channelSize batch frames value mean variance
      gamma beta frames shape means variances (.inl rfl)
  obtain ⟨centred', scaled', unit', _, subtracted', multiplied', divided', added', made', _⟩ :=
    @normalisedSteps K kernel channelSize batch frames value' mean' variance' gamma beta frames
      (sameValue.1 ▸ shape) (sameMean.1 ▸ means) (sameVariance.1 ▸ variances) (.inl rfl)
  cases Option.some.inj (left.symm.trans made)
  cases Option.some.inj (right.symm.trans made')
  have repeated : broadcastShape [batch, channelSize, frames] [batch, 1, frames] =
      some [batch, channelSize, frames] := by rw [broadcastEqual, broadcastRight, broadcastSelf]; rfl
  have centre := sameBroadcast [batch, channelSize] (by rw [shape, means]; exact repeated)
    (.inr ⟨sameValue, [batch, channelSize], shape⟩) (.inr ⟨sameMean, [batch, 1], means⟩) subtracted
    subtracted'
  have scale := sameBroadcast [batch, channelSize] (by
      rw [gamma.property, centredShape]; exact parameterBefore _ _ _) (.inl rfl)
    (.inr ⟨centre, [batch, channelSize], centredShape⟩) multiplied multiplied'
  have spread := sameMap (fun v => kernel.root (kernel.add v kernel.epsilon)) sameVariance
  have quotient := sameBroadcast [batch, channelSize] (by
      rw [scaledShape, show (Tensor.map _ variance).shape = _ from variances]; exact repeated)
    (.inr ⟨scale, [batch, channelSize], scaledShape⟩) (.inr ⟨spread, [batch, 1], variances⟩) divided
    divided'
  exact sameBroadcast [batch, channelSize] (by
      rw [unitShape, beta.property]; exact parameterBehind _ _ _)
    (.inr ⟨quotient, [batch, channelSize], unitShape⟩) (.inl rfl) added added'

theorem channelwiseFramewise : Framewise channelSize channelSize (Window 0 0)
    (channelwiseLayerNorm kernel gamma beta) := by
  constructor
  · intro batch frames x shape _
    obtain ⟨_, _, _, u, _, _, _, _, made, _, _, _, done⟩ :=
      @normalisedSteps K kernel channelSize batch frames x (x.reduce kernel.zero 1 kernel.mean)
        (x.reduce kernel.zero 1 kernel.variance) gamma beta frames shape
        (congrArg (List.set · 1 1) shape) (congrArg (List.set · 1 1) shape) (.inl rfl)
    exact ⟨u, made, done⟩
  · intro batch frames x y u v frame shape _ _ left right agree
    have same := agree frame ⟨Nat.le_refl _, Nat.le_refl _⟩
    exact normalisedSees shape (congrArg (List.set · 1 1) shape) (congrArg (List.set · 1 1) shape) same
      (sameReduced kernel.zero kernel.mean shape same)
      (sameReduced kernel.zero kernel.variance shape same) left right

theorem batchNormFramewise {runningMean runningVar weight bias : Weights K [channelSize]} :
    Framewise channelSize channelSize (Window 0 0)
      (batchNorm1d kernel runningMean runningVar weight bias) := by
  constructor
  · intro batch frames x shape _
    exact ⟨_, if_pos (by rw [shape]; exact ⟨rfl, rfl⟩), shape⟩
  · intro batch frames x y u v frame shape _ same left right agree
    have here := agree frame ⟨Nat.le_refl _, Nat.le_refl _⟩
    rw [batchNorm1d, if_pos (by rw [shape]; exact ⟨rfl, rfl⟩)] at left
    rw [batchNorm1d, if_pos (by rw [← same, shape]; exact ⟨rfl, rfl⟩)] at right
    cases left
    cases right
    rw [← same]
    refine sameTabulated fun start inside => ?_
    rw [sameRead kernel.zero here start]

theorem globalKeeps (shape : value.shape = [batch, channelSize, frames]) :
    ∃ u, globalLayerNorm kernel gamma beta value = some u ∧ u.shape = [batch, channelSize, frames] := by
  have means : ((value.reduce kernel.zero 1 kernel.mean).reduce kernel.zero 2 kernel.mean).shape =
      [batch, 1, 1] := congrArg (fun sizes => (List.set sizes 1 1).set 2 1) shape
  obtain ⟨centred, _, _, _, subtracted, _, _, _, _, centredShape, _⟩ :=
    @normalisedSteps K kernel channelSize batch frames value _ _ gamma beta 1 shape means means (.inr rfl)
  have variances : (((centred.map kernel.square).reduce kernel.zero 1 kernel.mean).reduce kernel.zero 2
      kernel.mean).shape = [batch, 1, 1] :=
    congrArg (fun sizes => (List.set sizes 1 1).set 2 1) centredShape
  obtain ⟨_, _, _, u, _, _, _, _, made, _, _, _, done⟩ :=
    @normalisedSteps K kernel channelSize batch frames value _ _ gamma beta 1 shape means variances
      (.inr rfl)
  refine ⟨u, ?_, done⟩
  simp only [globalLayerNorm, subtracted, Option.bind_eq_bind, Option.bind_some, made]

theorem normFramewise (kernel : Kernel K) {kind : Normalisation} (norm : Norm K channelSize kind) :
    Framewise channelSize channelSize (fun frame other => Near kind → Window 0 0 frame other)
      (norm.forward kernel) := by
  cases norm with
  | globalLayerNorm gamma beta =>
    refine ⟨fun shape _ => globalKeeps shape, ?_⟩
    intro batch frames x y u v frame shape long same left right agree
    have equal : x = y := sameEverywhere shape fun other => agree other fun near => absurd rfl near
    cases equal
    cases Option.some.inj (left.symm.trans right)
    exact ⟨rfl, fun _ => rfl⟩
  | channelwiseLayerNorm gamma beta => exact channelwiseFramewise.widen fun _ _ window _ => window
  | identity => exact Framewise.ofSome.widen fun _ _ window _ => window
  | batchNorm runningMean runningVar weight bias =>
    exact batchNormFramewise.widen fun _ _ window _ => window

end Norms

section Blocks
variable {inputs outputs width dilation groups chompSize batch channels frames frame : Nat}
variable {x y : Tensor K}

theorem chompKeeps (shape : x.shape = [batch, channels, frames + chompSize]) :
    ∃ u, chomp1d chompSize x = some u ∧ u.shape = [batch, channels, frames] := by
  unfold chomp1d
  split
  · rename_i none
    subst none
    exact ⟨x, rfl, shape⟩
  · obtain ⟨u, cut, done, _⟩ := @narrowed K x [batch, channels] _ shape frames
    have last : x.width = some (frames + chompSize) := by rw [Tensor.width, shape]; rfl
    refine ⟨u, ?_, done.trans ?_⟩
    · simp only [last, Option.bind_eq_bind, Option.bind_some, Nat.add_sub_cancel, cut]
    · rw [Nat.min_eq_right (Nat.le_add_right _ _)]
      rfl

theorem chompSees {u v : Tensor K} (shape : x.shape = [batch, channels, frames])
    (same : SameAt x y frame) (left : chomp1d chompSize x = some u)
    (right : chomp1d chompSize y = some v) : SameAt u v frame := by
  unfold chomp1d at left right
  split at left
  · rename_i none
    rw [if_pos none] at right
    cases left
    cases right
    exact same
  · rename_i some
    rw [if_neg some] at right
    have first : x.width = Option.some frames := by rw [Tensor.width, shape]; rfl
    have second : y.width = Option.some frames := by rw [Tensor.width, ← same.1, shape]; rfl
    rw [first] at left
    rw [second] at right
    exact @sameNarrowed K x y u v frame [batch, channels] frames _ shape same left right

/- Padded on both sides and cut at the end, a convolution looks back only. -/
theorem causalFramewise {weight : Weights K [outputs, inputs, width]} (grouped : 0 < groups)
    (wide : 0 < width) :
    Framewise (inputs * groups) outputs (Window ((width - 1) * dilation) 0) (fun x =>
      (kernel.conv1d 1 ((width - 1) * dilation) dilation groups weight x).bind
        (chomp1d ((width - 1) * dilation))) := by
  constructor
  · intro batch frames x shape long
    have room : dilation * (width - 1) + 1 ≤ frames + 2 * ((width - 1) * dilation) := by
      rw [Nat.mul_comm]
      omega
    obtain ⟨h, made, between⟩ := @convShape K kernel x 1 _ dilation groups outputs inputs width batch
      frames weight shape grouped wide Nat.one_pos room
    have more : h.shape = [batch, outputs, frames + (width - 1) * dilation] := by
      rw [between, Nat.div_one, Nat.mul_comm dilation]
      congr 3
      omega
    obtain ⟨u, cut, done⟩ := chompKeeps more
    exact ⟨u, by simp only [made, Option.bind_some, cut], done⟩
  · intro batch frames x y u v frame shape long same left right agree
    have room : dilation * (width - 1) + 1 ≤ frames + 2 * ((width - 1) * dilation) := by
      rw [Nat.mul_comm]
      omega
    obtain ⟨h, made, between⟩ := @convShape K kernel x 1 _ dilation groups outputs inputs width batch
      frames weight shape grouped wide Nat.one_pos room
    obtain ⟨h', made', _⟩ := @convShape K kernel y 1 _ dilation groups outputs inputs width batch
      frames weight (same ▸ shape) grouped wide Nat.one_pos room
    simp only [made, made', Option.bind_some] at left right
    refine chompSees between (convSees same made made' fun other low high => ?_) left right
    rw [Nat.mul_comm dilation] at high
    exact agree other ⟨by omega, by omega⟩

theorem pointwiseFramewise (kernel : Kernel K) (weight : Weights K [outputs, inputs, 1]) :
    Framewise inputs outputs (Window 0 0) (kernel.conv1d 1 0 1 1 weight) := by
  have conv : Framewise (inputs * 1) outputs (Window 0 0) (kernel.conv1d 1 0 1 1 weight) :=
    convFramewise Nat.one_pos Nat.one_pos rfl
  rwa [Nat.mul_one] at conv

def ahead (causal : Bool) (padding : Nat) : Nat := if causal then 0 else padding

def Aligned (causal : Bool) (width dilation padding : Nat) : Prop :=
  if causal then padding = (width - 1) * dilation else dilation * (width - 1) = 2 * padding

variable {kind : Normalisation} {padding : Nat} {causal : Bool}

theorem depthwiseFramewise (kernel : Kernel K) (weight : Weights K [inputs, 1, width])
    (grouped : 0 < inputs) (wide : 0 < width) (aligned : Aligned causal width dilation padding) :
    Framewise inputs inputs (Window padding (ahead causal padding)) (fun x =>
      (kernel.conv1d 1 padding dilation inputs weight x).bind fun value =>
        if causal then chomp1d padding value else some value) := by
  cases causal with
  | true =>
    have conv : Framewise (1 * inputs) inputs _ _ := @causalFramewise K kernel 1 inputs width dilation
      inputs weight grouped wide
    rw [Nat.one_mul] at conv
    rw [show padding = (width - 1) * dilation from aligned]
    exact conv
  | false =>
    have conv : Framewise (1 * inputs) inputs (Window padding padding)
        (kernel.conv1d 1 padding dilation inputs weight) := convFramewise grouped wide aligned
    rw [Nat.one_mul] at conv
    exact conv.congr fun x => Option.bind_fun_some _

theorem separableFramewise (kernel : Kernel K)
    (layers : DepthwiseSeparableConv K inputs outputs width kind) (grouped : 0 < inputs)
    (wide : 0 < width) (aligned : Aligned causal width dilation padding) :
    Framewise inputs outputs
      (fun frame other => Near kind → Window padding (ahead causal padding) frame other)
      (layers.forward kernel 1 padding dilation causal) := by
  have first := (depthwiseFramewise kernel layers.depthwise grouped wide aligned).bind
    (Framewise.ofMap (kernel.prelu layers.slope))
  have second := (first.bind (normFramewise kernel layers.norm)).bind
    (pointwiseFramewise kernel layers.pointwise)
  refine (second.congr fun x => ?_).widen ?_
  · cases causal with
    | true => simp only [DepthwiseSeparableConv.forward, if_true, Option.bind_eq_bind,
        Option.bind_assoc, Option.bind_some]
    | false => simp only [DepthwiseSeparableConv.forward, Bool.false_eq_true, if_false,
        Option.bind_eq_bind, Option.bind_assoc, Option.bind_some]
  · rintro frame other ⟨_, last, _, normed, _, mapped, reached⟩ near
    have inside := normed near
    unfold Window at *
    omega

theorem blockFramewise (kernel : Kernel K)
    (block : TemporalBlock K inputs outputs width kind) (grouped : 0 < outputs) (wide : 0 < width)
    (aligned : Aligned causal width dilation padding) :
    Framewise inputs inputs
      (fun frame other => Near kind → Window padding (ahead causal padding) frame other)
      (block.forward kernel 1 padding dilation causal) := by
  have mapped := (pointwiseFramewise kernel block.expand).bind
    (Framewise.ofMap (kernel.prelu block.slope))
  have net := (mapped.bind (normFramewise kernel block.norm)).bind
    (separableFramewise kernel block.separable grouped wide aligned)
  have framewise := net.widen (fun frame other reached near => by
    obtain ⟨_, separated, _, normed, _, mapped, expanded⟩ := reached
    have inside := normed near
    have far := separated near
    show Window padding (ahead causal padding) frame other
    unfold Window at *
    omega : ∀ frame other, _ → Near kind → Window padding (ahead causal padding) frame other)
  refine (framewise.residual kernel.zero kernel.add
    fun frame _ => ⟨Nat.le_add_right _ _, Nat.le_add_right _ _⟩).congr fun x => ?_
  simp only [TemporalBlock.forward, TemporalBlock.net, Option.bind_eq_bind, Option.bind_assoc,
    Option.bind_some]

end Blocks

section Network

/- The arguments with which every block keeps the frames: its padding must come out even
where the network is not causal. -/
structure Hyper.Sound (hyper : Hyper) : Prop where
  channels : 0 < hyper.H
  kernelSize : 0 < hyper.P
  aligned : hyper.causal = true ∨ hyper.P % 2 = 1

def Hyper.memory (hyper : Hyper) : Nat :=
  hyper.R * ((if hyper.causal then hyper.P - 1 else (hyper.P - 1) / 2) * (2 ^ hyper.X - 1))

def Hyper.lookahead (hyper : Hyper) : Nat := ahead hyper.causal hyper.memory

theorem paddingAligned (sound : hyper.Sound) (x : Nat) :
    Aligned hyper.causal hyper.P (Hyper.dilation x) (hyper.padding x) ∧
      hyper.padding x =
        (if hyper.causal then hyper.P - 1 else (hyper.P - 1) / 2) * Hyper.dilation x := by
  have size := sound.kernelSize
  rw [Hyper.padding]
  rcases causal : hyper.causal with _ | _
  · have odd : hyper.P % 2 = 1 := by
      have either := sound.aligned
      rwa [causal, Bool.false_eq_true, false_or] at either
    obtain ⟨half, twice⟩ : ∃ half, hyper.P - 1 = 2 * half := ⟨(hyper.P - 1) / 2, by omega⟩
    have cut : 2 * half * Hyper.dilation x / 2 = half * Hyper.dilation x := by
      rw [Nat.mul_assoc, Nat.mul_div_cancel_left _ Nat.two_pos]
    simp only [Aligned, Bool.false_eq_true, if_false, twice, cut,
      Nat.mul_div_cancel_left _ Nat.two_pos, and_true]
    rw [Nat.mul_comm, Nat.mul_assoc]
  · exact ⟨rfl, rfl⟩

theorem dilationSum (span places : Nat) :
    ((List.range places).map fun x => span * Hyper.dilation x).sum = span * (2 ^ places - 1) := by
  induction places with
  | zero => rfl
  | succ places ih =>
    have positive : 0 < 2 ^ places := Nat.two_pow_pos places
    rw [List.range_succ, List.map_append, List.sum_append, ih, List.map_singleton, List.sum_singleton,
      Hyper.dilation, ← Nat.mul_add, Nat.pow_succ]
    congr 1
    omega

theorem orderSum (hyper : Hyper) (f : Nat → Nat) :
    (hyper.order.map fun entry => f entry.2).sum =
      hyper.R * ((List.range hyper.X).map f).sum := by
  unfold Hyper.order
  generalize hyper.R = repeats
  induction repeats with
  | zero =>
    rw [Nat.zero_mul]
    rfl
  | succ repeats ih =>
    rw [List.range_succ, List.flatMap_append, List.map_append, List.sum_append, ih,
      List.flatMap_singleton, List.map_map, Nat.succ_mul]
    rfl

theorem paddingSum (sound : hyper.Sound) :
    (hyper.order.map fun entry => hyper.padding entry.2).sum = hyper.memory := by
  rw [orderSum, Hyper.memory]
  congr 1
  rw [← dilationSum]
  exact congrArg List.sum (List.map_congr_left fun x _ => (paddingAligned sound x).2)

theorem lookaheadSum (sound : hyper.Sound) :
    (hyper.order.map fun entry => ahead hyper.causal (hyper.padding entry.2)).sum = hyper.lookahead := by
  unfold ahead Hyper.lookahead
  cases hyper.causal with
  | true =>
    simp only [if_true, ahead]
    rw [orderSum hyper fun _ => 0]
    simp
  | false =>
    simp only [Bool.false_eq_true, if_false, ahead]
    exact paddingSum sound

theorem networkFramewise (sound : hyper.Sound) (kernel : Kernel K) (net : TemporalConvNet K hyper) :
    Framewise hyper.N (hyper.C * hyper.N) (fun frame other =>
      Near (choseNorm hyper.normType) → Window hyper.memory hyper.lookahead frame other)
      (net.network kernel) := by
  have normed : Framewise hyper.N hyper.N (Window 0 0)
      (channelwiseLayerNorm kernel net.gamma net.beta) := channelwiseFramewise
  have blocks : Framewise hyper.B hyper.B (fun frame other => Near (choseNorm hyper.normType) →
      Window (hyper.order.map fun entry => hyper.padding entry.2).sum
        (hyper.order.map fun entry => ahead hyper.causal (hyper.padding entry.2)).sum frame other)
      (fun x => hyper.order.foldlM (fun value entry => net.block kernel entry value) x) :=
    Framewise.fold fun entry _ => blockFramewise kernel (net.blocks entry.1 entry.2) sound.channels
      sound.kernelSize (paddingAligned sound entry.2).1
  rw [paddingSum sound, lookaheadSum sound] at blocks
  have whole := ((normed.bind (pointwiseFramewise kernel net.bottleneck)).bind blocks).bind
    (pointwiseFramewise kernel net.maskConv)
  refine (whole.congr fun x => ?_).widen ?_
  · simp only [TemporalConvNet.network, Option.bind_eq_bind, Option.bind_assoc]
  · rintro frame other ⟨_, last, _, stacked, _, narrowed, normed⟩ near
    have inside := stacked near
    unfold Window at *
    omega

end Network

section Masks
variable {batch frames frame : Nat} {x y score score' : Tensor K}

def Hyper.Supported (hyper : Hyper) : Prop :=
  hyper.maskNonlinear = "softmax" ∨ hyper.maskNonlinear = "relu"

theorem scored (sound : hyper.Sound) (kernel : Kernel K) (net : TemporalConvNet K hyper)
    (shape : x.shape = [batch, hyper.N, frames]) (long : 1 ≤ frames) :
    ∃ output score, net.network kernel x = some output ∧
      output.view [batch, hyper.C, hyper.N, frames] = some score ∧
      score.shape = [batch, hyper.C, hyper.N, frames] ∧
      ∀ b c n frame, n < hyper.N →
        score.entry [b, c, n, frame] = output.entry [b, c * hyper.N + n, frame] := by
  obtain ⟨output, made, wide⟩ := (networkFramewise sound kernel net).keeps shape long
  obtain ⟨score, split, done, found⟩ := @viewSplit K output [batch] [frames] _ _ wide
  exact ⟨output, score, made, split, done, fun b c n frame less => found [b] c n [frame] rfl less⟩

theorem sameScored (sound : hyper.Sound) {kernel : Kernel K} {net : TemporalConvNet K hyper}
    {output output' : Tensor K} (shape : x.shape = [batch, hyper.N, frames]) (long : 1 ≤ frames)
    (same : x.shape = y.shape) (near : Near (choseNorm hyper.normType))
    (agree : ∀ other, Window hyper.memory hyper.lookahead frame other → SameAt x y other)
    (left : net.network kernel x = some output) (right : net.network kernel y = some output')
    (first : output.view [batch, hyper.C, hyper.N, frames] = some score)
    (second : output'.view [batch, hyper.C, hyper.N, frames] = some score') :
    SameAt score score' frame := by
  obtain ⟨_, _, made, split, done, found⟩ := scored sound kernel net shape long
  obtain ⟨_, _, made', split', done', found'⟩ := scored sound kernel net (same ▸ shape) long
  cases Option.some.inj (left.symm.trans made)
  cases Option.some.inj (right.symm.trans made')
  cases Option.some.inj (first.symm.trans split)
  cases Option.some.inj (second.symm.trans split')
  have inner := (networkFramewise sound kernel net).sees shape long same left right
    fun other within => agree other (within near)
  refine ⟨done.trans done'.symm, fun start => ?_⟩
  by_cases inside : Inside [batch, hyper.C, hyper.N, frames] (start ++ [frame])
  · obtain ⟨b, c, n, rfl, -, -, less, -⟩ := startFour inside
    exact (found b c n frame less).trans
      ((inner.2 [b, c * hyper.N + n]).trans (found' b c n frame less).symm)
  · rw [entryOutside (done ▸ inside), entryOutside (done' ▸ inside)]

theorem sameSoftmax (shape : score.shape = [batch, hyper.C, hyper.N, frames])
    (same : SameAt score score' frame) :
    SameAt (softmax kernel score) (softmax kernel score') frame := by
  unfold softmax
  rw [← same.1]
  refine sameTabulated fun start inside => ?_
  obtain ⟨b, c, n, rfl, -, -, -, -⟩ := startFour (shape ▸ inside)
  rw [Tensor.along, Tensor.along, ← same.1]
  refine congrArg (kernel.softmax · _) (List.map_congr_left fun channel _ => ?_)
  exact sameRead kernel.zero same [b, channel, n]

theorem masked (sound : hyper.Sound) (supported : hyper.Supported) (kernel : Kernel K)
    (net : TemporalConvNet K hyper) (shape : x.shape = [batch, hyper.N, frames])
    (long : 1 ≤ frames) : ∃ mask, net.forward kernel x = .ok mask ∧
      mask.shape = [batch, hyper.C, hyper.N, frames] := by
  obtain ⟨output, score, made, split, done, _⟩ := scored sound kernel net shape long
  unfold TemporalConvNet.forward
  simp only [shape, made, ModelInference.torch, split, bind, Except.bind]
  by_cases soft : hyper.maskNonlinear = "softmax"
  · rw [if_pos soft]
    exact ⟨_, rfl, done⟩
  · rw [if_neg soft, if_pos (supported.resolve_left soft)]
    exact ⟨_, rfl, done⟩

theorem maskRefused (sound : hyper.Sound) (unsupported : ¬ hyper.Supported) (kernel : Kernel K)
    (net : TemporalConvNet K hyper) (shape : x.shape = [batch, hyper.N, frames])
    (long : 1 ≤ frames) :
    net.forward kernel x = .error (.valueError "Unsupported mask non-linear function") := by
  obtain ⟨output, score, made, split, _⟩ := scored sound kernel net shape long
  unfold TemporalConvNet.forward
  simp only [shape, made, ModelInference.torch, split, bind, Except.bind]
  rw [if_neg fun soft => unsupported (.inl soft), if_neg fun relu => unsupported (.inr relu)]
  rfl

theorem sameMasked (sound : hyper.Sound) {net : TemporalConvNet K hyper} {mask mask' : Tensor K}
    (shape : x.shape = [batch, hyper.N, frames]) (long : 1 ≤ frames) (same : x.shape = y.shape)
    (near : Near (choseNorm hyper.normType))
    (agree : ∀ other, Window hyper.memory hyper.lookahead frame other → SameAt x y other)
    (left : net.forward kernel x = .ok mask) (right : net.forward kernel y = .ok mask') :
    SameAt mask mask' frame := by
  obtain ⟨output, score, made, split, done, _⟩ := scored sound kernel net shape long
  obtain ⟨output', score', made', split', _⟩ := scored sound kernel net (same ▸ shape) long
  have scores := sameScored sound shape long same near agree made made' split split'
  unfold TemporalConvNet.forward at left right
  simp only [shape, made, ModelInference.torch, split, bind, Except.bind] at left
  simp only [← same, shape, made', ModelInference.torch, split', bind, Except.bind] at right
  by_cases soft : hyper.maskNonlinear = "softmax"
  · rw [if_pos soft] at left right
    cases left
    cases right
    exact sameSoftmax done scores
  · rw [if_neg soft] at left right
    by_cases relu : hyper.maskNonlinear = "relu"
    · rw [if_pos relu] at left right
      cases left
      cases right
      exact sameMap kernel.relu scores
    · rw [if_neg relu] at left
      contradiction

end Masks

end KaraokeAnything.Tasnet
