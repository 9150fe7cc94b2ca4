import KaraokeAnything.Library.Tensor

/-! More of what is done to dense tensors: reshaping with one size left open, two
neighbouring dimensions exchanged, entry by entry under broadcasting, along one dimension,
and rows added at given indices. -/
namespace Tensors

def exchange : Nat → List Nat → List Nat
  | 0, a :: b :: rest => b :: a :: rest
  | dim + 1, a :: rest => a :: exchange dim rest
  | _, list => list

def broadcastShape : List Nat → List Nat → Option (List Nat)
  | [], [] => some []
  | a :: s, b :: u => do
    let rest ← broadcastShape s u
    if a = 1 then some (b :: rest)
    else if b = 1 ∨ a = b then some (a :: rest)
    else none
  | _, _ => none

def clip (shape place : List Nat) : List Nat :=
  List.zipWith (fun size i => if size = 1 then 0 else i) shape place

def unfold {α : Type} (items : List α) (size step : Nat) : Option (List (List α)) :=
  if size ≤ items.length ∧ 0 < step then
    some ((List.range ((items.length - size) / step + 1)).map fun window =>
      (items.drop (window * step)).take size)
  else none

namespace Tensor
variable {K : Type}

def read (t : Tensor K) (zero : K) (place : List Nat) : K := (t.entry place).getD zero

def tabulate (shape : List Nat) (f : List Nat → K) : Tensor K :=
  ⟨shape, (places shape).map f, (List.length_map f).trans (placesLength shape)⟩

def view (t : Tensor K) (shape : List Nat) : Option (Tensor K) :=
  if same : t.data.length = shape.prod then some ⟨shape, t.data, same⟩ else none

def viewOpen (t : Tensor K) (before after : List Nat) : Option (Tensor K) :=
  let others := (before ++ after).prod
  if 0 < others then t.view (before ++ t.data.length / others :: after) else none

def transposeAt (t : Tensor K) (zero : K) (dim : Nat) : Option (Tensor K) :=
  if dim + 1 < t.shape.length then
    some (tabulate (exchange dim t.shape) fun place => t.read zero (exchange dim place))
  else none

def broadcast (zero : K) (f : K → K → K) (t u : Tensor K) : Option (Tensor K) := do
  let shape ← broadcastShape t.shape u.shape
  some (tabulate shape fun place => f (t.read zero (clip t.shape place)) (u.read zero (clip u.shape place)))

def along (t : Tensor K) (zero : K) (dim : Nat) (place : List Nat) : List K :=
  (List.range (t.shape.getD dim 0)).map fun i => t.read zero (place.set dim i)

def reduce (t : Tensor K) (zero : K) (dim : Nat) (f : List K → K) : Tensor K :=
  tabulate (t.shape.set dim 1) fun place => f (t.along zero dim place)

/- `index_add(dim, index, source)`: the additions are made in the order of the index, since
they need not be associative. -/
def indexAdd (t : Tensor K) (zero : K) (add : K → K → K) (dim : Nat) (index : List Nat)
    (source : Tensor K) : Option (Tensor K) :=
  if source.shape = t.shape.set dim index.length ∧ ∀ row ∈ index, row < t.shape.getD dim 0 then
    some (tabulate t.shape fun place =>
      (index.zipIdx.filter (fun entry => entry.1 = place.getD dim 0)).foldl
        (fun total entry => add total (source.read zero (place.set dim entry.2)))
        (t.read zero place))
  else none

end Tensor

section Windows

theorem unfoldRange {count size step : Nat} (moves : 0 < step) (some : 1 ≤ count) :
    unfold (List.range (step * (count - 1) + size)) size step =
      Option.some ((List.range count).map fun window => List.range' (window * step) size) := by
  have windows : (step * (count - 1) + size - size) / step + 1 = count := by
    rw [Nat.add_sub_cancel, Nat.mul_div_cancel_left _ moves]
    omega
  rw [unfold, List.length_range, windows, if_pos ⟨Nat.le_add_left _ _, moves⟩]
  refine congrArg Option.some (List.map_congr_left fun window listed => ?_)
  have before : window * step ≤ step * (count - 1) := by
    rw [Nat.mul_comm]
    exact Nat.mul_le_mul_left step (Nat.le_sub_one_of_lt (List.mem_range.mp listed))
  rw [List.range_eq_range', List.drop_range', List.take_range'_of_length_ge (by omega),
    Nat.mul_one, Nat.zero_add]

theorem windowFound (first size place item : Nat) :
    ((List.range' first size).zipIdx place).filter (fun entry => entry.1 = item) =
      if first ≤ item ∧ item < first + size then [(item, place + (item - first))] else [] := by
  induction size generalizing first place with
  | zero =>
    rw [if_neg (by omega)]
    rfl
  | succ size ih =>
    rw [List.range'_succ, List.zipIdx_cons, List.filter_cons, ih]
    by_cases here : first = item
    · subst here
      rw [if_pos (decide_eq_true rfl), if_neg (by omega), if_pos (by omega), Nat.sub_self]
      rfl
    · rw [if_neg (by simpa using here)]
      by_cases later : first ≤ item ∧ item < first + (size + 1)
      · rw [if_pos (by omega), if_pos later, show place + 1 + (item - (first + 1)) =
          place + (item - first) by omega]
      · rw [if_neg (by omega), if_neg later]

theorem windowsLength (count size step : Nat) :
    ((List.range count).map fun window => List.range' (window * step) size).flatten.length =
      count * size := by
  induction count with
  | zero => exact (Nat.zero_mul size).symm
  | succ count ih =>
    rw [List.range_succ, List.map_append, List.flatten_append, List.length_append, ih,
      List.map_singleton, List.flatten_singleton, List.length_range', Nat.succ_mul]

theorem windowsFound (count size step item : Nat) :
    (((List.range count).map fun window => List.range' (window * step) size).flatten.zipIdx.filter
        (fun entry => entry.1 = item)) =
      ((List.range count).filter fun window =>
        window * step ≤ item ∧ item < window * step + size).map
        fun window => (item, window * size + (item - window * step)) := by
  induction count with
  | zero => rfl
  | succ count ih =>
    rw [List.range_succ, List.map_append, List.flatten_append, List.zipIdx_append, List.filter_append,
      ih, windowsLength, List.filter_append, List.map_append, List.map_singleton, List.flatten_singleton,
      Nat.zero_add, windowFound]
    congr 1
    by_cases covers : count * step ≤ item ∧ item < count * step + size
    · rw [if_pos covers, List.filter_cons, if_pos (decide_eq_true covers)]
      rfl
    · rw [if_neg covers, List.filter_cons, if_neg (by simpa using covers)]
      rfl

end Windows

section Laws
variable {K : Type} {t u : Tensor K}

theorem tabulatedEntry {shape place : List Nat} (f : List Nat → K) (inside : Inside shape place) :
    (Tensor.tabulate shape f).entry place = some (f place) := by
  rw [Tensor.entry, Tensor.tabulate, if_pos inside, List.getElem?_map, placesAt inside]
  rfl

theorem tabulatedOutside {shape place : List Nat} (f : List Nat → K)
    (outside : ¬ Inside shape place) : (Tensor.tabulate shape f).entry place = none :=
  entryOutside outside

theorem rangeRows (size width : Nat) : ((List.range size).flatMap fun i =>
    (List.range width).map fun j => i * width + j) = List.range (size * width) := by
  induction size with
  | zero => rw [Nat.zero_mul]; rfl
  | succ size ih =>
    rw [List.range_succ, List.flatMap_append, ih, List.flatMap_singleton, Nat.succ_mul, List.range_add]

theorem placesOffsets (shape : List Nat) :
    (places shape).map (offset shape) = List.range shape.prod := by
  induction shape with
  | nil => rfl
  | cons size sizes ih =>
    rw [places, List.map_flatMap, List.prod_cons, ← rangeRows]
    refine List.flatMap_congr fun i _ => ?_
    rw [List.map_map, ← ih, List.map_map]
    rfl

theorem tensorExt (shape : t.shape = u.shape) (entries : ∀ place, t.entry place = u.entry place) :
    t = u := by
  have listed (v : Tensor K) : (places v.shape).map v.entry = v.data.map some := by
    have read : (places v.shape).map v.entry =
        ((places v.shape).map (offset v.shape)).map (fun i => v.data[i]?) := by
      rw [List.map_map]
      exact List.map_congr_left fun place inside => if_pos (placesInside inside)
    rw [read, placesOffsets, ← v.size]
    refine List.ext_getElem (by simp) fun i less _ => ?_
    simp
  have data : t.data = u.data := by
    refine List.map_injective_iff.mpr (fun _ _ => Option.some.inj) ?_
    rw [← listed, ← listed, shape]
    exact List.map_congr_left fun place _ => entries place
  cases t
  cases u
  cases shape
  cases data
  rfl

theorem readEntry {place : List Nat} {value : K} (zero : K) (found : t.entry place = some value) :
    t.read zero place = value := by rw [Tensor.read, found, Option.getD_some]

theorem entryRead {place : List Nat} (zero : K) (inside : Inside t.shape place) :
    t.entry place = some (t.read zero place) := by
  obtain ⟨value, found⟩ := entryInside inside
  rw [readEntry zero found, found]

theorem tabulatedRead {shape place : List Nat} (zero : K) (f : List Nat → K)
    (inside : Inside shape place) : (Tensor.tabulate shape f).read zero place = f place :=
  readEntry zero (tabulatedEntry f inside)

theorem insideThree {a b c : Nat} {place : List Nat} :
    Inside [a, b, c] place ↔ ∃ i j k, place = [i, j, k] ∧ i < a ∧ j < b ∧ k < c := by
  constructor
  · rintro (_ | ⟨first, _ | ⟨second, _ | ⟨third, ⟨⟩⟩⟩⟩)
    exact ⟨_, _, _, rfl, first, second, third⟩
  · rintro ⟨i, j, k, rfl, first, second, third⟩
    exact .cons first (.cons second (.cons third .nil))

theorem startThree {a b c last : Nat} {start : List Nat} (inside : Inside [a, b, c] (start ++ [last])) :
    ∃ i j, start = [i, j] ∧ i < a ∧ j < b ∧ last < c := by
  obtain ⟨i, j, k, place, first, second, third⟩ := insideThree.mp inside
  obtain ⟨rfl, ends⟩ := List.append_inj' (place.trans (List.append_assoc [i] [j] [k]).symm) rfl
  cases List.singleton_inj.mp ends
  exact ⟨i, j, rfl, first, second, third⟩

theorem startFour {a b c d last : Nat} {start : List Nat}
    (inside : Inside [a, b, c, d] (start ++ [last])) :
    ∃ i j k, start = [i, j, k] ∧ i < a ∧ j < b ∧ k < c ∧ last < d := by
  obtain ⟨other, end', equal, fits, less⟩ := (@insideSnoc [a, b, c] d (start ++ [last])).mp inside
  obtain ⟨rfl, ends⟩ := List.append_inj' equal rfl
  cases List.singleton_inj.mp ends
  obtain ⟨i, j, k, rfl, first, second, third⟩ := insideThree.mp fits
  exact ⟨i, j, k, rfl, first, second, third, less⟩

theorem setMiddle (start place : List Nat) (i j : Nat) :
    (start ++ i :: place).set start.length j = start ++ j :: place := by
  rw [List.set_append_right _ _ (Nat.le_refl _), Nat.sub_self, List.set_cons_zero]

theorem indexMiddle (start place : List Nat) (i default : Nat) :
    (start ++ i :: place).getD start.length default = i := by
  rw [List.getD_eq_getElem?_getD, List.getElem?_append_right (Nat.le_refl _), Nat.sub_self,
    List.getElem?_cons_zero, Option.getD_some]

theorem insideMiddle {front back start place : List Nat} {size i : Nat}
    (same : start.length = front.length) :
    Inside (front ++ size :: back) (start ++ i :: place) ↔
      Inside front start ∧ i < size ∧ Inside back place := by
  induction front generalizing start with
  | nil =>
    cases List.length_eq_zero_iff.mp same
    exact List.forall₂_cons.trans (by simp [Inside])
  | cons width front ih =>
    cases start with
    | nil => contradiction
    | cons j start =>
      simp only [List.cons_append, Inside, List.forall₂_cons]
      rw [show List.Forall₂ (· < ·) (start ++ i :: place) (front ++ size :: back) ↔ _ from
        ih (Nat.succ.inj same)]
      exact and_assoc.symm

theorem offsetSplit {front back start place : List Nat} {a b i j : Nat}
    (same : start.length = front.length) :
    offset (front ++ a * b :: back) (start ++ (i * b + j) :: place) =
      offset (front ++ a :: b :: back) (start ++ i :: j :: place) := by
  induction front generalizing start with
  | nil =>
    cases List.length_eq_zero_iff.mp same
    simp only [List.nil_append, offset, List.prod_cons]
    rw [Nat.add_mul, Nat.mul_assoc, Nat.add_assoc]
  | cons width front ih =>
    cases start with
    | nil => contradiction
    | cons first start =>
      simp only [List.cons_append, offset, ih (Nat.succ.inj same), List.prod_append, List.prod_cons,
        Nat.mul_assoc]

theorem insideSplit {front back start place : List Nat} {a b i j : Nat}
    (same : start.length = front.length) (column : j < b) :
    Inside (front ++ a * b :: back) (start ++ (i * b + j) :: place) ↔
      Inside (front ++ a :: b :: back) (start ++ i :: j :: place) := by
  rw [insideMiddle same, insideMiddle same, Inside, Inside, Inside, List.forall₂_cons]
  have row : i * b + j < a * b ↔ i < a := by
    constructor
    · intro less
      exact Nat.lt_of_mul_lt_mul_right (Nat.lt_of_le_of_lt (Nat.le_add_right _ j) less)
    · intro less
      calc i * b + j < i * b + b := Nat.add_lt_add_left column _
        _ = (i + 1) * b := (Nat.succ_mul i b).symm
        _ ≤ a * b := Nat.mul_le_mul_right b less
  rw [row]
  exact and_congr_right fun _ => and_congr_right fun _ =>
    ⟨fun rest => ⟨column, rest⟩, And.right⟩

theorem prodSplit (front back : List Nat) (a b : Nat) :
    (front ++ a * b :: back).prod = (front ++ a :: b :: back).prod := by
  simp only [List.prod_append, List.prod_cons, Nat.mul_assoc]

theorem viewSplit {front back : List Nat} {a b : Nat} (shape : t.shape = front ++ a * b :: back) :
    ∃ u, t.view (front ++ a :: b :: back) = some u ∧ u.shape = front ++ a :: b :: back ∧
      ∀ start i j place, start.length = front.length → j < b →
        u.entry (start ++ i :: j :: place) = t.entry (start ++ (i * b + j) :: place) := by
  have total : t.data.length = (front ++ a :: b :: back).prod := by
    rw [t.size, shape, prodSplit]
  refine ⟨_, dif_pos total, rfl, fun start i j place same column => ?_⟩
  simp only [Tensor.entry, shape, offsetSplit same, insideSplit same column]

theorem viewJoin {front back : List Nat} {a b : Nat} (shape : t.shape = front ++ a :: b :: back) :
    ∃ u, t.view (front ++ a * b :: back) = some u ∧ u.shape = front ++ a * b :: back ∧
      ∀ start i j place, start.length = front.length → j < b →
        u.entry (start ++ (i * b + j) :: place) = t.entry (start ++ i :: j :: place) := by
  have total : t.data.length = (front ++ a * b :: back).prod := by
    rw [t.size, shape, prodSplit]
  refine ⟨_, dif_pos total, rfl, fun start i j place same column => ?_⟩
  simp only [Tensor.entry, shape, offsetSplit same, insideSplit same column]

theorem viewPieces {front : List Nat} {a b c : Nat} (shape : t.shape = front ++ [a, b * c]) :
    ∃ u, t.view (front ++ [a * b, c]) = some u ∧ u.shape = front ++ [a * b, c] ∧
      ∀ start i q j, start.length = front.length → q < b → j < c →
        u.entry (start ++ [i * b + q, j]) = t.entry (start ++ [i, q * c + j]) := by
  have joined : t.shape = (front ++ [a]) ++ b * c :: [] := by
    rw [shape, List.append_assoc]
    rfl
  obtain ⟨v, split, splitShape, splitFound⟩ := viewSplit joined
  have parts : v.shape = front ++ a :: b :: [c] := by
    rw [splitShape, List.append_assoc]
    rfl
  obtain ⟨u, made, done, found⟩ := viewJoin parts
  have data : v.data = t.data := by
    rw [Tensor.view, dif_pos (by rw [t.size, joined, prodSplit])] at split
    cases split
    rfl
  refine ⟨u, ?_, done, fun start i q j same row column => ?_⟩
  · rw [← made, Tensor.view, Tensor.view]
    simp only [data]
  · have whole := splitFound (start ++ [i]) q j [] (by simp [same]) column
    rw [List.append_assoc, List.append_assoc] at whole
    exact (found start i q [j] same row).trans whole

theorem viewOpened {before after : List Nat} {size : Nat} (positive : 0 < (before ++ after).prod)
    (fits : t.data.length = (before ++ size :: after).prod) :
    t.viewOpen before after = t.view (before ++ size :: after) := by
  have others : (before ++ size :: after).prod = size * (before ++ after).prod := by
    simp only [List.prod_append, List.prod_cons]
    exact Nat.mul_left_comm _ _ _
  rw [Tensor.viewOpen, if_pos positive, fits, others, Nat.mul_div_cancel _ positive]

theorem exchanged {front start place : List Nat} {i j : Nat} (same : start.length = front.length) :
    exchange front.length (start ++ i :: j :: place) = start ++ j :: i :: place := by
  induction front generalizing start with
  | nil =>
    cases List.length_eq_zero_iff.mp same
    rfl
  | cons width front ih =>
    cases start with
    | nil => contradiction
    | cons first start =>
      simp only [List.length_cons, List.cons_append, exchange, ih (Nat.succ.inj same)]

theorem insideExchanged {front back start place : List Nat} {a b i j : Nat}
    (same : start.length = front.length) :
    Inside (front ++ a :: b :: back) (start ++ i :: j :: place) ↔
      Inside (front ++ b :: a :: back) (start ++ j :: i :: place) := by
  rw [insideMiddle same, insideMiddle same]
  refine and_congr_right fun _ => ?_
  rw [Inside, Inside, List.forall₂_cons, List.forall₂_cons]
  exact and_left_comm

theorem transposedAt {front back : List Nat} {a b : Nat} (zero : K)
    (shape : t.shape = front ++ a :: b :: back) :
    ∃ u, t.transposeAt zero front.length = some u ∧ u.shape = front ++ b :: a :: back ∧
      ∀ start i j place, start.length = front.length →
        u.entry (start ++ j :: i :: place) = t.entry (start ++ i :: j :: place) := by
  have rank : front.length + 1 < t.shape.length := by
    rw [shape, List.length_append, List.length_cons, List.length_cons]
    omega
  have turned : exchange front.length t.shape = front ++ b :: a :: back := by
    rw [shape]
    exact exchanged rfl
  refine ⟨_, if_pos rank, turned, fun start i j place same => ?_⟩
  by_cases inside : Inside t.shape (start ++ i :: j :: place)
  · have other : Inside (exchange front.length t.shape) (start ++ j :: i :: place) := by
      rw [turned]
      exact (insideExchanged same).mp (shape ▸ inside)
    rw [tabulatedEntry _ other, exchanged same, entryRead zero inside]
  · have other : ¬ Inside (exchange front.length t.shape) (start ++ j :: i :: place) := by
      rw [turned]
      exact fun found => inside (shape ▸ (insideExchanged same).mpr found)
    rw [tabulatedOutside _ other, entryOutside inside]

theorem broadcastEqual (a : Nat) (s r : List Nat) :
    broadcastShape (a :: s) (a :: r) = (broadcastShape s r).map (a :: ·) := by
  rw [broadcastShape]
  cases broadcastShape s r with
  | none => rfl
  | some rest =>
    change (if a = 1 then _ else _) = _
    split
    · rfl
    · exact if_pos (.inr rfl)

theorem broadcastRight (a : Nat) (s r : List Nat) :
    broadcastShape (a :: s) (1 :: r) = (broadcastShape s r).map (a :: ·) := by
  rw [broadcastShape]
  cases broadcastShape s r with
  | none => rfl
  | some rest =>
    change (if a = 1 then _ else _) = _
    split
    · rename_i one
      rw [one]
      rfl
    · exact if_pos (.inl rfl)

theorem broadcastLeft (b : Nat) (s r : List Nat) :
    broadcastShape (1 :: s) (b :: r) = (broadcastShape s r).map (b :: ·) := by
  rw [broadcastShape]
  cases broadcastShape s r with
  | none => rfl
  | some rest => rfl

theorem broadcastSelf (s : List Nat) : broadcastShape s s = some s := by
  induction s with
  | nil => rfl
  | cons a s ih => rw [broadcastEqual, ih, Option.map_some]

theorem broadcastRank {s r shape : List Nat} (joined : broadcastShape s r = some shape) :
    s.length = shape.length ∧ r.length = shape.length := by
  induction s generalizing r shape with
  | nil =>
    cases r with
    | nil =>
      cases joined
      exact ⟨rfl, rfl⟩
    | cons b r => contradiction
  | cons a s ih =>
    cases r with
    | nil => contradiction
    | cons b r =>
      rw [broadcastShape] at joined
      obtain ⟨rest, inner, outer⟩ := Option.bind_eq_some_iff.mp joined
      obtain ⟨first, second⟩ := ih inner
      split at outer
      · cases outer
        exact ⟨congrArg (· + 1) first, congrArg (· + 1) second⟩
      · split at outer
        · cases outer
          exact ⟨congrArg (· + 1) first, congrArg (· + 1) second⟩
        · contradiction

theorem broadcasted {shape : List Nat} (zero : K) (f : K → K → K)
    (joined : broadcastShape t.shape u.shape = some shape) :
    ∃ v, t.broadcast zero f u = some v ∧ v.shape = shape ∧ ∀ place, Inside shape place →
      v.entry place = some (f (t.read zero (clip t.shape place)) (u.read zero (clip u.shape place))) := by
  refine ⟨_, by rw [Tensor.broadcast, joined]; rfl, rfl, fun place inside => ?_⟩
  exact tabulatedEntry _ inside

theorem clipSnoc {front start : List Nat} {size i : Nat} (same : start.length = front.length)
    (less : i < size) : clip (front ++ [size]) (start ++ [i]) = clip front start ++ [i] := by
  have last : (if size = 1 then 0 else i) = i := by
    split
    · omega
    · rfl
  rw [clip, List.zipWith_append same.symm, List.zipWith_cons_cons, last]
  rfl

end Laws

end Tensors
