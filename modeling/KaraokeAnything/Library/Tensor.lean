import Mathlib.Algebra.BigOperators.Group.List.Basic
import Mathlib.Data.List.Forall2

/-! Dense tensors stored row by row: the entries of a shape, and what reshaping, turning,
padding and cutting do to them. An operation is `none` where the shape does not allow it. -/
namespace Tensors

def Inside (shape place : List Nat) : Prop := List.Forall₂ (· < ·) place shape

instance (shape place : List Nat) : Decidable (Inside shape place) :=
  inferInstanceAs (Decidable (List.Forall₂ (· < ·) place shape))

def places : List Nat → List (List Nat)
  | [] => [[]]
  | size :: sizes => (List.range size).flatMap (fun i => (places sizes).map (i :: ·))

def offset : List Nat → List Nat → Nat
  | _ :: sizes, i :: place => i * sizes.prod + offset sizes place
  | _, _ => 0

structure Tensor (K : Type) where
  shape : List Nat
  data : List K
  size : data.length = shape.prod

section Places

theorem placesLength (shape : List Nat) : (places shape).length = shape.prod := by
  induction shape with
  | nil => rfl
  | cons size sizes ih => simp [places, List.length_flatMap, ih]

theorem placesInside {shape place : List Nat} (listed : place ∈ places shape) :
    Inside shape place := by
  induction shape generalizing place with
  | nil =>
    cases List.mem_singleton.mp listed
    exact .nil
  | cons size sizes ih =>
    obtain ⟨i, row, inRow⟩ := List.mem_flatMap.mp listed
    obtain ⟨rest, inRest, rfl⟩ := List.mem_map.mp inRow
    exact .cons (List.mem_range.mp row) (ih inRest)

theorem offsetInside {shape place : List Nat} (inside : Inside shape place) :
    offset shape place < shape.prod := by
  induction inside with
  | nil => exact Nat.one_pos
  | @cons i size place sizes less rest ih =>
    have row := Nat.mul_le_mul_right sizes.prod (Nat.succ_le_of_lt less)
    rw [offset, List.prod_cons]
    rw [Nat.succ_mul] at row
    omega

theorem rowAt {α β : Type} {width : Nat} {rows : List α} {row : α → List β}
    (widths : ∀ a, (row a).length = width) {i j : Nat} {a : α} (found : rows[i]? = some a)
    (inside : j < width) : (rows.flatMap row)[i * width + j]? = (row a)[j]? := by
  induction rows generalizing i with
  | nil => contradiction
  | cons first rest ih =>
    cases i with
    | zero =>
      cases found
      rw [Nat.zero_mul, Nat.zero_add, List.flatMap_cons, List.getElem?_append_left]
      rwa [widths]
    | succ i =>
      have next := ih found
      rw [List.flatMap_cons, List.getElem?_append_right (by rw [widths, Nat.succ_mul]; omega), widths,
        ← next]
      congr 1
      rw [Nat.succ_mul]
      omega

theorem placesAt {shape place : List Nat} (inside : Inside shape place) :
    (places shape)[offset shape place]? = some place := by
  induction inside with
  | nil => rfl
  | @cons i size place sizes less rest ih =>
    have width (row : Nat) : ((places sizes).map (row :: ·)).length = sizes.prod := by
      rw [List.length_map, placesLength]
    rw [places, offset, rowAt width (List.getElem?_range less) (offsetInside rest),
      List.getElem?_map, ih]
    rfl

end Places

theorem filledAt {α β : Type} {f : α → Option β} {items : List α}
    (total : ∀ a ∈ items, (f a).isSome) : (items.filterMap f).length = items.length ∧
      ∀ i : Nat, (items.filterMap f)[i]? = items[i]?.bind f := by
  induction items with
  | nil => exact ⟨rfl, fun i => rfl⟩
  | cons first rest ih =>
    obtain ⟨value, known⟩ := Option.isSome_iff_exists.mp (total first List.mem_cons_self)
    obtain ⟨length, found⟩ := ih (fun a listed => total a (List.mem_cons_of_mem _ listed))
    rw [List.filterMap_cons_some known]
    refine ⟨congrArg (· + 1) length, fun i => ?_⟩
    cases i with
    | zero => exact known.symm
    | succ i => exact found i

namespace Tensor
variable {K : Type}

def entry (t : Tensor K) (place : List Nat) : Option K :=
  if Inside t.shape place then t.data[offset t.shape place]? else none

def ofList (data : List K) : Tensor K := ⟨[data.length], data, (List.prod_singleton).symm⟩

def map {L : Type} (f : K → L) (t : Tensor K) : Tensor L :=
  ⟨t.shape, t.data.map f, (List.length_map f).trans t.size⟩

def zip (f : K → K → K) (t u : Tensor K) : Option (Tensor K) :=
  if same : t.shape = u.shape then
    some ⟨t.shape, List.zipWith f t.data u.data, by
      rw [List.length_zipWith, t.size, u.size, same, Nat.min_self]⟩
  else none

def gather (shape : List Nat) (f : List Nat → Option K) : Option (Tensor K) :=
  if total : ∀ place ∈ places shape, (f place).isSome then
    some ⟨shape, (places shape).filterMap f, (filledAt total).1.trans (placesLength shape)⟩
  else none

/- `view(-1)`, for the layout that `contiguous` gives. The other views read the same layout,
row by row. -/
def flat (t : Tensor K) : Tensor K := ofList t.data

def viewRows (t : Tensor K) (columns : Nat) : Option (Tensor K) :=
  if whole : 0 < columns ∧ columns ∣ t.data.length then
    some ⟨[t.data.length / columns, columns], t.data, by
      rw [List.prod_cons, List.prod_singleton, Nat.div_mul_cancel whole.2]⟩
  else none

def transpose (t : Tensor K) : Option (Tensor K) :=
  match t.shape with
  | rows :: columns :: sizes => gather (columns :: rows :: sizes) fun
    | j :: i :: place => t.entry (i :: j :: place)
    | _ => none
  | _ => none

def unsqueeze (t : Tensor K) (dim : Nat) : Option (Tensor K) :=
  if dim ≤ t.shape.length then
    some ⟨t.shape.take dim ++ 1 :: t.shape.drop dim, t.data, by
      rw [List.prod_append, List.prod_cons, Nat.one_mul, ← List.prod_append, List.take_append_drop,
        t.size]⟩
  else none

def select (t : Tensor K) (i : Nat) : Option (Tensor K) :=
  match t.shape with
  | _ :: sizes => gather sizes (fun place => t.entry (i :: place))
  | [] => none

def width (t : Tensor K) : Option Nat := t.shape.getLast?

def padLast (t : Tensor K) (count : Nat) (zero : K) : Option (Tensor K) := do
  let frames ← t.width
  gather (t.shape.dropLast ++ [frames + count]) fun place =>
    if place.getLast?.any (· < frames) then t.entry place else some zero

def narrowLast (t : Tensor K) (count : Nat) : Option (Tensor K) := do
  let frames ← t.width
  gather (t.shape.dropLast ++ [min frames count]) t.entry

end Tensor

section Laws
variable {K : Type} {t u : Tensor K}

theorem entryInside {place : List Nat} (inside : Inside t.shape place) :
    ∃ value, t.entry place = some value := by
  have bound := offsetInside inside
  rw [← t.size] at bound
  exact ⟨_, (if_pos inside).trans (List.getElem?_eq_getElem bound)⟩

theorem entryOutside {place : List Nat} (outside : ¬ Inside t.shape place) :
    t.entry place = none := if_neg outside

theorem gathered {shape : List Nat} {f : List Nat → Option K}
    (total : ∀ place, Inside shape place → ∃ value, f place = some value) :
    ∃ u, Tensor.gather shape f = some u ∧ u.shape = shape ∧
      ∀ place, Inside shape place → u.entry place = f place := by
  have filled : ∀ place ∈ places shape, (f place).isSome := fun place listed =>
    Option.isSome_iff_exists.mpr (total place (placesInside listed))
  refine ⟨_, dif_pos filled, rfl, fun place inside => ?_⟩
  rw [Tensor.entry, if_pos inside, (filledAt filled).2, placesAt inside]
  rfl

theorem mapEntry {L : Type} (f : K → L) (t : Tensor K) (place : List Nat) :
    (t.map f).entry place = (t.entry place).map f := by
  simp only [Tensor.entry, Tensor.map, List.getElem?_map]
  split
  · rfl
  · rfl

theorem zipped (f : K → K → K) (same : t.shape = u.shape) :
    ∃ v, t.zip f u = some v ∧ v.shape = t.shape ∧ ∀ place x y, t.entry place = some x →
      u.entry place = some y → v.entry place = some (f x y) := by
  refine ⟨_, dif_pos same, rfl, fun place x y first second => ?_⟩
  by_cases inside : Inside t.shape place
  · simp only [Tensor.entry, ← same, inside, if_true] at first second ⊢
    rw [List.getElem?_zipWith, first, second]
  · rw [entryOutside inside] at first
    contradiction

theorem matrixEntry {rows columns i j : Nat} (shape : t.shape = [rows, columns]) (row : i < rows)
    (column : j < columns) : t.entry [i, j] = t.data[i * columns + j]? := by
  have inside : Inside t.shape [i, j] := by
    rw [shape]
    exact .cons row (.cons column .nil)
  rw [Tensor.entry, if_pos inside, shape]
  simp [offset]

theorem viewedRows {rows columns : Nat} (wide : 0 < columns)
    (whole : t.data.length = rows * columns) :
    ∃ u, t.viewRows columns = some u ∧ u.shape = [rows, columns] ∧ u.data = t.data := by
  have count : t.data.length / columns = rows := by rw [whole, Nat.mul_div_cancel _ wide]
  have divides : columns ∣ t.data.length := ⟨rows, whole.trans (Nat.mul_comm _ _)⟩
  exact ⟨_, dif_pos ⟨wide, divides⟩, congrArg (fun rows => [rows, columns]) count, rfl⟩

theorem insideSwap {i j rows columns : Nat} {place sizes : List Nat} :
    Inside (columns :: rows :: sizes) (j :: i :: place) ↔
      Inside (rows :: columns :: sizes) (i :: j :: place) := by
  simp only [Inside, List.forall₂_cons]
  exact and_left_comm

theorem transposed {rows columns : Nat} {sizes : List Nat}
    (shape : t.shape = rows :: columns :: sizes) :
    ∃ u, t.transpose = some u ∧ u.shape = columns :: rows :: sizes ∧
      ∀ i j place, u.entry (j :: i :: place) = t.entry (i :: j :: place) := by
  unfold Tensor.transpose
  rw [shape]
  obtain ⟨u, turned, sameShape, found⟩ := @gathered K (columns :: rows :: sizes) (fun
    | j :: i :: place => t.entry (i :: j :: place)
    | _ => none) (fun place inside => by
      match place, inside with
      | j :: i :: place, inside => exact entryInside (shape ▸ insideSwap.mp inside))
  refine ⟨u, turned, sameShape, fun i j place => ?_⟩
  by_cases inside : Inside (columns :: rows :: sizes) (j :: i :: place)
  · exact found _ inside
  · rw [entryOutside (sameShape ▸ inside), entryOutside (shape ▸ insideSwap.not.mp inside)]

theorem selected {i size : Nat} {sizes : List Nat} (shape : t.shape = size :: sizes)
    (inside : i < size) : ∃ u, t.select i = some u ∧ u.shape = sizes ∧
      ∀ place, u.entry place = t.entry (i :: place) := by
  unfold Tensor.select
  rw [shape]
  obtain ⟨u, taken, sameShape, found⟩ := @gathered K sizes (fun place => t.entry (i :: place))
    (fun place inRow => entryInside (shape ▸ .cons inside inRow))
  refine ⟨u, taken, sameShape, fun place => ?_⟩
  by_cases inRow : Inside sizes place
  · exact found _ inRow
  · have outside : ¬ Inside t.shape (i :: place) := by
      rw [shape]
      exact fun found => inRow (List.forall₂_cons.mp found).2
    rw [entryOutside (sameShape ▸ inRow), entryOutside outside]

theorem offsetOne {front start : List Nat} (back place : List Nat)
    (same : start.length = front.length) :
    offset (front ++ 1 :: back) (start ++ 0 :: place) = offset (front ++ back) (start ++ place) ∧
      (Inside (front ++ 1 :: back) (start ++ 0 :: place) ↔
        Inside (front ++ back) (start ++ place)) := by
  induction front generalizing start with
  | nil =>
    cases List.length_eq_zero_iff.mp same
    refine ⟨?_, fun inside => (List.forall₂_cons.mp inside).2, fun inside => .cons Nat.one_pos inside⟩
    rw [List.nil_append, List.nil_append, offset, Nat.zero_mul, Nat.zero_add]
    rfl
  | cons size front ih =>
    match start, same with
    | i :: start, same =>
      obtain ⟨places, insides⟩ := ih (Nat.succ.inj same)
      refine ⟨?_, List.forall₂_cons.trans ((and_congr_right fun _ => insides).trans
        List.forall₂_cons.symm)⟩
      simp only [List.cons_append, offset, places, List.prod_append, List.prod_cons, Nat.one_mul]

theorem unsqueezed {front back : List Nat} (shape : t.shape = front ++ back) :
    ∃ u, t.unsqueeze front.length = some u ∧ u.shape = front ++ 1 :: back ∧
      ∀ start place, start.length = front.length →
        u.entry (start ++ 0 :: place) = t.entry (start ++ place) := by
  have inside : front.length ≤ t.shape.length := by
    rw [shape, List.length_append]
    omega
  have longer : (front ++ back).take front.length ++ 1 :: (front ++ back).drop front.length =
      front ++ 1 :: back := by
    rw [List.take_left' rfl, List.drop_left' rfl]
  refine ⟨_, if_pos inside, by simp only [shape, longer], fun start place same => ?_⟩
  obtain ⟨places, insides⟩ := offsetOne back place same
  simp only [Tensor.entry, shape, longer, places, insides]

theorem insideSnoc {front : List Nat} {frames : Nat} {place : List Nat} :
    Inside (front ++ [frames]) place ↔
      ∃ start j, place = start ++ [j] ∧ Inside front start ∧ j < frames := by
  induction front generalizing place with
  | nil =>
    constructor
    · rintro (_ | ⟨less, ⟨⟩⟩)
      exact ⟨[], _, rfl, .nil, less⟩
    · rintro ⟨start, j, rfl, ⟨⟩, less⟩
      exact .cons less .nil
  | cons size front ih =>
    constructor
    · rintro (_ | ⟨less, rest⟩)
      obtain ⟨start, j, rfl, inside, last⟩ := ih.mp rest
      exact ⟨_ :: start, j, rfl, .cons less inside, last⟩
    · rintro ⟨start, j, rfl, ⟨⟩ | ⟨less, inside⟩, last⟩
      exact .cons less (ih.mpr ⟨_, j, rfl, inside, last⟩)

theorem widthSnoc {front : List Nat} {frames : Nat} (shape : t.shape = front ++ [frames]) :
    t.width = some frames ∧ t.shape.dropLast = front := by
  rw [Tensor.width, shape]
  exact ⟨List.getLast?_concat, List.dropLast_concat⟩

theorem padded {front : List Nat} {frames : Nat} (shape : t.shape = front ++ [frames]) (count : Nat)
    (zero : K) : ∃ u, t.padLast count zero = some u ∧ u.shape = front ++ [frames + count] ∧
      ∀ start j, Inside front start → j < frames + count →
        u.entry (start ++ [j]) = if j < frames then t.entry (start ++ [j]) else some zero := by
  obtain ⟨width, fronts⟩ := widthSnoc shape
  have last (start : List Nat) (j : Nat) :
      ((start ++ [j]).getLast?.any (· < frames) = true) ↔ j < frames := by simp
  obtain ⟨u, grown, sameShape, found⟩ := @gathered K (front ++ [frames + count])
    (fun place => if place.getLast?.any (· < frames) then t.entry place else some zero)
    (fun place inside => by
      obtain ⟨start, j, rfl, fits, less⟩ := insideSnoc.mp inside
      simp only [last]
      split
      · exact entryInside (shape ▸ insideSnoc.mpr ⟨start, j, rfl, fits, ‹_›⟩)
      · exact ⟨zero, rfl⟩)
  refine ⟨u, ?_, sameShape, fun start j fits less => ?_⟩
  · rw [Tensor.padLast, width, fronts]
    exact grown
  · rw [found _ (insideSnoc.mpr ⟨start, j, rfl, fits, less⟩)]
    simp only [last]

theorem narrowed {front : List Nat} {frames : Nat} (shape : t.shape = front ++ [frames])
    (count : Nat) : ∃ u, t.narrowLast count = some u ∧ u.shape = front ++ [min frames count] ∧
      ∀ start j, j < count → u.entry (start ++ [j]) = t.entry (start ++ [j]) := by
  obtain ⟨width, fronts⟩ := widthSnoc shape
  have within {start : List Nat} {j : Nat} (less : j < count) :
      Inside (front ++ [min frames count]) (start ++ [j]) ↔
        Inside (front ++ [frames]) (start ++ [j]) := by
    simp only [insideSnoc, Nat.lt_min]
    constructor
    · rintro ⟨other, k, same, fits, low, _⟩
      exact ⟨other, k, same, fits, low⟩
    · rintro ⟨other, k, same, fits, low⟩
      obtain ⟨-, last⟩ := List.append_inj' same rfl
      cases List.singleton_inj.mp last
      exact ⟨other, j, same, fits, low, less⟩
  obtain ⟨u, cut, sameShape, found⟩ := @gathered K (front ++ [min frames count]) t.entry
    (fun place inside => by
      obtain ⟨start, j, rfl, fits, less⟩ := insideSnoc.mp inside
      exact entryInside (shape ▸ insideSnoc.mpr ⟨start, j, rfl, fits, (Nat.lt_min.mp less).1⟩))
  refine ⟨u, ?_, sameShape, fun start j less => ?_⟩
  · rw [Tensor.narrowLast, width, fronts]
    exact cut
  · by_cases inside : Inside (front ++ [frames]) (start ++ [j])
    · exact found _ ((within less).mpr inside)
    · rw [entryOutside (sameShape ▸ (within less).not.mpr inside), entryOutside (shape ▸ inside)]

end Laws

section Devices
variable {D K : Type}

/- A tensor on the device that holds it. What is made of it stays there, and two tensors meet
on one device only. -/
structure Placed (D K : Type) extends Tensor K where
  device : D

namespace Placed

def ofList (device : D) (data : List K) : Placed D K := ⟨Tensor.ofList data, device⟩

def moveTo (t : Placed D K) (device : D) : Placed D K := ⟨t.toTensor, device⟩

def map (f : K → K) (t : Placed D K) : Placed D K := ⟨t.toTensor.map f, t.device⟩

def flat (t : Placed D K) : Placed D K := ⟨t.toTensor.flat, t.device⟩

def there (t : Placed D K) (u : Option (Tensor K)) : Option (Placed D K) := u.map (⟨·, t.device⟩)

abbrev viewRows (t : Placed D K) (columns : Nat) : Option (Placed D K) :=
  t.there (t.toTensor.viewRows columns)

abbrev transpose (t : Placed D K) : Option (Placed D K) := t.there t.toTensor.transpose

abbrev unsqueeze (t : Placed D K) (dim : Nat) : Option (Placed D K) := t.there (t.toTensor.unsqueeze dim)

abbrev select (t : Placed D K) (i : Nat) : Option (Placed D K) := t.there (t.toTensor.select i)

abbrev padLast (t : Placed D K) (count : Nat) (zero : K) : Option (Placed D K) :=
  t.there (t.toTensor.padLast count zero)

abbrev narrowLast (t : Placed D K) (count : Nat) : Option (Placed D K) :=
  t.there (t.toTensor.narrowLast count)

def zip [DecidableEq D] (f : K → K → K) (t u : Placed D K) : Option (Placed D K) :=
  if t.device = u.device then t.there (t.toTensor.zip f u.toTensor) else none

end Placed

theorem made (t : Placed D K) {result : Option (Tensor K)} {P : Tensor K → Prop}
    (law : ∃ u, result = some u ∧ P u) :
    ∃ u : Placed D K, t.there result = some u ∧ u.device = t.device ∧ P u.toTensor := by
  obtain ⟨u, rfl, holds⟩ := law
  exact ⟨⟨u, t.device⟩, rfl, rfl, holds⟩

variable [DecidableEq D] {t u : Placed D K}

theorem zippedThere (f : K → K → K) (together : t.device = u.device) (same : t.shape = u.shape) :
    ∃ v : Placed D K, t.zip f u = some v ∧ v.device = t.device ∧ v.shape = t.shape ∧
      ∀ place x y, t.entry place = some x → u.entry place = some y →
        v.entry place = some (f x y) := by
  rw [Placed.zip, if_pos together]
  exact made t (zipped f same)

theorem zipApart (f : K → K → K) (apart : t.device ≠ u.device) : t.zip f u = none := if_neg apart

end Devices

end Tensors
