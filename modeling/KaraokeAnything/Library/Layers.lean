import Mathlib.Algebra.GroupWithZero.Nat
import KaraokeAnything.Library.TensorLayouts

/-! Layers of neural networks on tensors whose last index is time: which shapes a layer
keeps, and at which frames of its input a frame of its output looks. What the numbers are,
and in which order many of them are added, is left to a `Kernel`. -/
namespace Layers
open Tensors

structure Kernel (K : Type) where
  zero : K
  epsilon : K
  add : K → K → K
  sub : K → K → K
  mul : K → K → K
  div : K → K → K
  square : K → K
  root : K → K
  sum : List K → K
  mean : List K → K
  variance : List K → K
  relu : K → K
  prelu : K → K → K
  softmax : List K → Nat → K
  batchNorm : K → K → K → K → K → K

def Weights (K : Type) (shape : List Nat) := {t : Tensor K // t.shape = shape}

section Definitions
variable {K : Type} (kernel : Kernel K)

def Kernel.readPadded (x : Tensor K) (padding batch channel position : Nat) : K :=
  if padding ≤ position then x.read kernel.zero [batch, channel, position - padding] else kernel.zero

def Kernel.convolved (stride padding dilation groups : Nat) {outputs inputs width : Nat}
    (weight : Weights K [outputs, inputs, width]) (x : Tensor K) (batch channel frame : Nat) : K :=
  kernel.sum ((List.range inputs).flatMap fun i => (List.range width).map fun j =>
    kernel.mul (weight.val.read kernel.zero [channel, i, j])
      (kernel.readPadded x padding batch (channel / (outputs / groups) * inputs + i)
        (frame * stride + j * dilation)))

/- `conv1d` and `linear` without a bias, the only way in which the layers here call them. -/
def Kernel.conv1d (stride padding dilation groups : Nat) {outputs inputs width : Nat}
    (weight : Weights K [outputs, inputs, width]) (x : Tensor K) : Option (Tensor K) :=
  match x.shape with
  | [batch, channels, frames] =>
    let extent := dilation * (width - 1) + 1
    if channels = inputs * groups ∧ 0 < groups ∧ 0 < width ∧ 0 < stride ∧
        extent ≤ frames + 2 * padding then
      some (Tensor.tabulate [batch, outputs, (frames + 2 * padding - extent) / stride + 1] fun place =>
        kernel.convolved stride padding dilation groups weight x (place.getD 0 0) (place.getD 1 0)
          (place.getD 2 0))
    else none
  | _ => none

def Kernel.linear {outputs inputs : Nat} (weight : Weights K [outputs, inputs]) (x : Tensor K) :
    Option (Tensor K) :=
  if x.shape.getLast? = some inputs then
    some (Tensor.tabulate (x.shape.dropLast ++ [outputs]) fun place =>
      kernel.sum ((List.range inputs).map fun i =>
        kernel.mul (x.read kernel.zero (place.dropLast ++ [i]))
          (weight.val.read kernel.zero [place.getLastD 0, i])))
  else none

end Definitions

section Reach
variable {K : Type}

def SameAt (x y : Tensor K) (frame : Nat) : Prop :=
  x.shape = y.shape ∧ ∀ start, x.entry (start ++ [frame]) = y.entry (start ++ [frame])

def Window (past future frame other : Nat) : Prop := frame ≤ other + past ∧ other ≤ frame + future

/- A layer on `[batch, inputs, frames]` that keeps the frames, and whose output at a frame
is decided by the frames of its input that the frame reaches. -/
structure Framewise (inputs outputs : Nat) (reach : Nat → Nat → Prop)
    (layer : Tensor K → Option (Tensor K)) : Prop where
  keeps : ∀ {batch frames x}, x.shape = [batch, inputs, frames] → 1 ≤ frames →
    ∃ u, layer x = some u ∧ u.shape = [batch, outputs, frames]
  sees : ∀ {batch frames x y u v frame}, x.shape = [batch, inputs, frames] → 1 ≤ frames →
    x.shape = y.shape → layer x = some u → layer y = some v →
    (∀ other, reach frame other → SameAt x y other) → SameAt u v frame

variable {x y u v : Tensor K} {frame : Nat}

theorem sameRead (zero : K) (same : SameAt x y frame) (start : List Nat) :
    x.read zero (start ++ [frame]) = y.read zero (start ++ [frame]) := by
  rw [Tensor.read, Tensor.read, same.2 start]

theorem sameEverywhere {batch channels frames : Nat} (shape : x.shape = [batch, channels, frames])
    (agree : ∀ other, SameAt x y other) : x = y := by
  refine tensorExt (agree 0).1 fun place => ?_
  by_cases inside : Inside x.shape place
  · obtain ⟨i, j, k, rfl, -, -, -⟩ := insideThree.mp (shape ▸ inside)
    exact (agree k).2 [i, j]
  · rw [entryOutside inside, entryOutside ((agree 0).1 ▸ inside)]

theorem insideFrame {front start : List Nat} {frames : Nat}
    (inside : Inside (front ++ [frames]) (start ++ [frame])) :
    start.length = front.length ∧ frame < frames := by
  obtain ⟨other, last, equal, fits, less⟩ := insideSnoc.mp inside
  obtain ⟨rfl, ends⟩ := List.append_inj' equal rfl
  cases List.singleton_inj.mp ends
  exact ⟨fits.length_eq, less⟩

theorem sameTabulated {shape : List Nat} {f g : List Nat → K}
    (agree : ∀ start, Inside shape (start ++ [frame]) → f (start ++ [frame]) = g (start ++ [frame])) :
    SameAt (Tensor.tabulate shape f) (Tensor.tabulate shape g) frame := by
  refine ⟨rfl, fun start => ?_⟩
  by_cases inside : Inside shape (start ++ [frame])
  · rw [tabulatedEntry f inside, tabulatedEntry g inside, agree start inside]
  · rw [tabulatedOutside f inside, tabulatedOutside g inside]

theorem sameMap (f : K → K) (same : SameAt x y frame) : SameAt (x.map f) (y.map f) frame := by
  refine ⟨same.1, fun start => ?_⟩
  rw [mapEntry, mapEntry, same.2 start]

theorem sameNarrowed {front : List Nat} {frames count : Nat} (shape : x.shape = front ++ [frames])
    (same : SameAt x y frame) (left : x.narrowLast count = some u)
    (right : y.narrowLast count = some v) : SameAt u v frame := by
  obtain ⟨u', leftCut, leftShape, leftFound⟩ := narrowed shape count
  obtain ⟨v', rightCut, rightShape, rightFound⟩ := narrowed (same.1 ▸ shape) count
  cases Option.some.inj (left.symm.trans leftCut)
  cases Option.some.inj (right.symm.trans rightCut)
  refine ⟨leftShape.trans rightShape.symm, fun start => ?_⟩
  by_cases within : frame < count
  · rw [leftFound start frame within, rightFound start frame within, same.2 start]
  · have outside : ¬ Inside (front ++ [min frames count]) (start ++ [frame]) := by
      rw [insideSnoc]
      rintro ⟨other, last, equal, _, less⟩
      obtain ⟨-, ends⟩ := List.append_inj' equal rfl
      cases List.singleton_inj.mp ends
      omega
    rw [entryOutside (leftShape ▸ outside), entryOutside (rightShape ▸ outside)]

def Follows (x y : Tensor K) (frames frame : Nat) : Prop :=
  x = y ∨ SameAt x y frame ∧ ∃ front, x.shape = front ++ [frames]

theorem followsShape {frames : Nat} (follows : Follows x y frames frame) : x.shape = y.shape := by
  obtain rfl | ⟨same, _⟩ := follows
  · rfl
  · exact same.1

theorem followsRead {frames : Nat} {start : List Nat} (zero : K) (follows : Follows x y frames frame)
    (rank : x.shape.length = start.length + 1) (inside : frame < frames) :
    x.read zero (clip x.shape (start ++ [frame])) = y.read zero (clip y.shape (start ++ [frame])) := by
  obtain rfl | ⟨same, front, shape⟩ := follows
  · rfl
  · have ranks : start.length = front.length := by
      rw [shape, List.length_append, List.length_singleton] at rank
      omega
    rw [← same.1, shape, clipSnoc ranks inside]
    exact sameRead zero same _

theorem sameBroadcast {x' y' : Tensor K} (front : List Nat) {frames : Nat} {zero : K}
    {f : K → K → K} (joined : broadcastShape x.shape y.shape = some (front ++ [frames]))
    (first : Follows x x' frames frame) (second : Follows y y' frames frame)
    (left : x.broadcast zero f y = some u) (right : x'.broadcast zero f y' = some v) :
    SameAt u v frame := by
  have other : broadcastShape x'.shape y'.shape = some (front ++ [frames]) := by
    rw [← followsShape first, ← followsShape second, joined]
  obtain ⟨u', leftMade, leftShape, leftFound⟩ := broadcasted zero f joined
  obtain ⟨v', rightMade, rightShape, rightFound⟩ := broadcasted zero f other
  cases Option.some.inj (left.symm.trans leftMade)
  cases Option.some.inj (right.symm.trans rightMade)
  refine ⟨leftShape.trans rightShape.symm, fun start => ?_⟩
  by_cases inside : Inside (front ++ [frames]) (start ++ [frame])
  · obtain ⟨rank, last⟩ := insideFrame inside
    obtain ⟨leftRank, rightRank⟩ := broadcastRank joined
    rw [List.length_append, List.length_singleton, ← rank] at leftRank rightRank
    rw [leftFound _ inside, rightFound _ inside, followsRead zero first leftRank last,
      followsRead zero second rightRank last]
  · rw [entryOutside (leftShape ▸ inside), entryOutside (rightShape ▸ inside)]

theorem sameReduced {batch channels frames : Nat} (zero : K) (f : List K → K)
    (shape : x.shape = [batch, channels, frames]) (same : SameAt x y frame) :
    SameAt (x.reduce zero 1 f) (y.reduce zero 1 f) frame := by
  unfold Tensor.reduce
  rw [← same.1]
  refine sameTabulated fun start inside => ?_
  rw [shape] at inside
  obtain ⟨i, j, rfl, -, -, -⟩ := startThree inside
  rw [Tensor.along, Tensor.along, ← same.1]
  exact congrArg f (List.map_congr_left fun channel _ => sameRead zero same [i, channel])

theorem windowBind {past future past' future' other middle : Nat}
    (late : Window past' future' frame middle) (early : Window past future middle other) :
    Window (past + past') (future + future') frame other := by
  unfold Window at *
  omega

namespace Framewise
variable {inputs middle outputs : Nat} {reach reach' : Nat → Nat → Prop}
variable {layer next : Tensor K → Option (Tensor K)}

theorem widen (framewise : Framewise inputs outputs reach layer)
    (wider : ∀ frame other, reach frame other → reach' frame other) :
    Framewise inputs outputs reach' layer :=
  ⟨framewise.keeps, fun shape long same left right agree =>
    framewise.sees shape long same left right (fun other within => agree other (wider _ _ within))⟩

theorem congr (framewise : Framewise inputs outputs reach layer) (same : ∀ x, next x = layer x) :
    Framewise inputs outputs reach next := by
  rwa [funext same]

theorem bind (first : Framewise inputs middle reach layer)
    (second : Framewise middle outputs reach' next) :
    Framewise inputs outputs (fun frame other => ∃ between, reach' frame between ∧ reach between other)
      (fun x => (layer x).bind next) := by
  constructor
  · intro batch frames x shape long
    obtain ⟨u, made, between⟩ := first.keeps shape long
    obtain ⟨v, final, done⟩ := second.keeps between long
    exact ⟨v, by simp only [made, Option.bind_some, final], done⟩
  · intro batch frames x y u v frame shape long same left right agree
    obtain ⟨x', leftMade, leftShape⟩ := first.keeps shape long
    obtain ⟨y', rightMade, rightShape⟩ := first.keeps (same ▸ shape) long
    simp only [leftMade, rightMade, Option.bind_some] at left right
    refine second.sees leftShape long (leftShape.trans rightShape.symm) left right ?_
    intro between within
    exact first.sees shape long same leftMade rightMade
      (fun other reached => agree other ⟨between, within, reached⟩)

theorem residual (framewise : Framewise inputs inputs reach layer) (zero : K) (add : K → K → K)
    (reflexive : ∀ frame, reach frame frame) :
    Framewise inputs inputs reach (fun x => (layer x).bind fun h => h.broadcast zero add x) := by
  constructor
  · intro batch frames x shape long
    obtain ⟨h, made, same⟩ := framewise.keeps shape long
    have joined : broadcastShape h.shape x.shape = some [batch, inputs, frames] := by
      rw [same, shape, broadcastSelf]
    obtain ⟨u, added, done, _⟩ := broadcasted zero add joined
    exact ⟨u, by simp only [made, Option.bind_some, added], done⟩
  · intro batch frames x y u v frame shape long same left right agree
    obtain ⟨h, leftMade, leftShape⟩ := framewise.keeps shape long
    obtain ⟨h', rightMade, rightShape⟩ := framewise.keeps (same ▸ shape) long
    simp only [leftMade, rightMade, Option.bind_some] at left right
    have joined : broadcastShape h.shape x.shape = some ([batch, inputs] ++ [frames]) := by
      rw [leftShape, shape, broadcastSelf]
      rfl
    have inner := framewise.sees shape long same leftMade rightMade agree
    exact sameBroadcast [batch, inputs] joined (.inr ⟨inner, [batch, inputs], leftShape⟩)
      (.inr ⟨agree frame (reflexive frame), [batch, inputs], shape⟩) left right

theorem ofMap (f : K → K) :
    Framewise inputs inputs (Window 0 0) (fun x : Tensor K => some (x.map f)) := by
  constructor
  · intro batch frames x shape _
    exact ⟨_, rfl, shape⟩
  · intro batch frames x y u v frame _ _ _ left right agree
    cases left
    cases right
    exact sameMap f (agree frame ⟨Nat.le_refl _, Nat.le_refl _⟩)

theorem ofSome : Framewise inputs inputs (Window 0 0) (fun x : Tensor K => some x) := by
  constructor
  · intro batch frames x shape _
    exact ⟨x, rfl, shape⟩
  · intro batch frames x y u v frame _ _ _ left right agree
    cases left
    cases right
    exact agree frame ⟨Nat.le_refl _, Nat.le_refl _⟩

/- Layers one after another: what they look back and ahead adds up. `near` says whether a
layer looks at a window at all, or at every frame. -/
theorem fold {β : Type} {near : Prop} {forward : β → Tensor K → Option (Tensor K)}
    {past future : β → Nat} {blocks : List β}
    (each : ∀ block ∈ blocks, Framewise inputs inputs
      (fun frame other => near → Window (past block) (future block) frame other) (forward block)) :
    Framewise inputs inputs
      (fun frame other => near →
        Window (blocks.map past).sum (blocks.map future).sum frame other)
      (fun x => blocks.foldlM (fun value block => forward block value) x) := by
  induction blocks with
  | nil => exact ofSome.widen fun frame other window _ => window
  | cons block blocks ih =>
    have first := each block List.mem_cons_self
    have rest := ih fun other listed => each other (List.mem_cons_of_mem _ listed)
    refine (first.bind rest).widen ?_
    rintro frame other ⟨between, late, early⟩ holds
    rw [List.map_cons, List.map_cons, List.sum_cons, List.sum_cons]
    exact windowBind (late holds) (early holds)

end Framewise

end Reach

section Convolution
variable {K : Type} {kernel : Kernel K} {x y : Tensor K}
variable {stride padding dilation groups outputs inputs width batch frames : Nat}
variable {weight : Weights K [outputs, inputs, width]}

theorem convShape (shape : x.shape = [batch, inputs * groups, frames]) (grouped : 0 < groups)
    (wide : 0 < width) (moves : 0 < stride) (room : dilation * (width - 1) + 1 ≤ frames + 2 * padding) :
    ∃ u, kernel.conv1d stride padding dilation groups weight x = some u ∧
      u.shape = [batch, outputs,
        (frames + 2 * padding - (dilation * (width - 1) + 1)) / stride + 1] := by
  rw [Kernel.conv1d, shape]
  exact ⟨_, if_pos ⟨rfl, grouped, wide, moves, room⟩, rfl⟩

theorem convSees {u v : Tensor K} {frame : Nat} (same : x.shape = y.shape)
    (left : kernel.conv1d stride padding dilation groups weight x = some u)
    (right : kernel.conv1d stride padding dilation groups weight y = some v)
    (agree : ∀ other, frame * stride ≤ other + padding →
      other + padding ≤ frame * stride + dilation * (width - 1) → SameAt x y other) :
    SameAt u v frame := by
  unfold Kernel.conv1d at left right
  rw [← same] at right
  split at left
  · rename_i batch channels frames shape
    simp only [shape] at right
    dsimp only at left
    split at left
    · rename_i fits
      rw [if_pos fits] at right
      cases left
      cases right
      refine sameTabulated fun start inside => ?_
      obtain ⟨i, j, rfl, -, -, -⟩ := startThree inside
      simp only [List.cons_append, List.nil_append, List.getD_cons_zero, List.getD_cons_succ,
        Kernel.convolved]
      congr 1
      refine List.flatMap_congr fun channel _ => List.map_congr_left fun tap within => ?_
      congr 1
      rw [Kernel.readPadded, Kernel.readPadded]
      split
      · rename_i reached
        have tapped : tap * dilation ≤ dilation * (width - 1) := by
          rw [Nat.mul_comm]
          exact Nat.mul_le_mul_left _ (Nat.le_sub_one_of_lt (List.mem_range.mp within))
        exact sameRead kernel.zero (agree _ (by omega) (by omega)) [i, _]
      · rfl
    · contradiction
  · contradiction

theorem convFramewise (grouped : 0 < groups) (wide : 0 < width)
    (centred : dilation * (width - 1) = 2 * padding) :
    Framewise (inputs * groups) outputs (Window padding padding)
      (kernel.conv1d 1 padding dilation groups weight) := by
  constructor
  · intro batch frames x shape long
    have room : dilation * (width - 1) + 1 ≤ frames + 2 * padding := by omega
    obtain ⟨u, made, done⟩ := convShape shape grouped wide Nat.one_pos room
    refine ⟨u, made, done.trans ?_⟩
    rw [Nat.div_one, centred]
    congr 3
    omega
  · intro batch frames x y u v frame shape long same left right agree
    refine convSees same left right fun other low high => agree other ⟨by omega, ?_⟩
    rw [centred] at high
    omega

end Convolution

end Layers
