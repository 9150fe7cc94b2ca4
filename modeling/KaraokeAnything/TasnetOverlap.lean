import KaraokeAnything.Tasnet

/-! `overlap_and_add` adds pieces of frames by index. It makes the same additions in the same
order as adding the frames themselves where they stand. -/
namespace KaraokeAnything.Tasnet
open Layers Tensors

variable {K : Type} (kernel : Kernel K)

def covering (frames frameLength frameStep sample : Nat) : List Nat :=
  (List.range frames).filter fun frame =>
    frame * frameStep ≤ sample ∧ sample < frame * frameStep + frameLength

def summed (signal : Tensor K) (frames frameLength frameStep : Nat) (start : List Nat)
    (sample : Nat) : K :=
  (covering frames frameLength frameStep sample).foldl
    (fun total frame => kernel.add total
      (signal.read kernel.zero (start ++ [frame, sample - frame * frameStep]))) kernel.zero

theorem coveringPieces {frames pieces step piece sample : Nat} (positive : 0 < piece) :
    ((List.range frames).filter fun frame =>
      frame * step ≤ sample / piece ∧ sample / piece < frame * step + pieces) =
      covering frames (piece * pieces) (piece * step) sample := by
  refine List.filter_congr fun frame _ => decide_eq_decide.mpr ?_
  rw [Nat.le_div_iff_mul_le positive, Nat.div_lt_iff_lt_mul positive, Nat.add_mul, Nat.mul_assoc,
    Nat.mul_comm step, Nat.mul_comm pieces]

section Pieces
variable {outer start : List Nat} {rows columns : Nat}

theorem piecesAdded {source : Tensor K} {frames pieces step piece : Nat}
    (shape : source.shape = outer ++ [frames * pieces, piece]) :
    let rows := step * (frames - 1) + pieces
    ∃ u, (Tensor.tabulate (outer ++ [rows, piece]) fun _ => kernel.zero).indexAdd kernel.zero
        kernel.add outer.length
        ((List.range frames).map fun frame => List.range' (frame * step) pieces).flatten source =
          Option.some u ∧ u.shape = outer ++ [rows, piece] ∧
      ∀ start row column, Inside u.shape (start ++ [row, column]) → start.length = outer.length →
        u.entry (start ++ [row, column]) = Option.some
          (((List.range frames).filter fun frame =>
            frame * step ≤ row ∧ row < frame * step + pieces).foldl
            (fun total frame => kernel.add total
              (source.read kernel.zero (start ++ [frame * pieces + (row - frame * step), column])))
            kernel.zero) := by
  intro rows
  have fits : source.shape = (outer ++ [rows, piece]).set outer.length
      ((List.range frames).map fun frame => List.range' (frame * step) pieces).flatten.length := by
    rw [shape, windowsLength, setMiddle]
  have inRange : ∀ row ∈ ((List.range frames).map fun frame =>
      List.range' (frame * step) pieces).flatten, row < (outer ++ [rows, piece]).getD outer.length 0 := by
    intro row listed
    obtain ⟨window, inside, found⟩ := List.mem_flatten.mp listed
    obtain ⟨frame, early, rfl⟩ := List.mem_map.mp inside
    have before : frame * step ≤ step * (frames - 1) := by
      rw [Nat.mul_comm]
      exact Nat.mul_le_mul_left step (Nat.le_sub_one_of_lt (List.mem_range.mp early))
    have within := List.mem_range'_1.mp found
    rw [indexMiddle]
    omega
  refine ⟨_, if_pos ⟨fits, inRange⟩, rfl, fun start row column inside rank => ?_⟩
  have here (x : Nat) : (start ++ [row, column]).set outer.length x = start ++ [x, column] := by
    rw [← rank, setMiddle]
  have place : (start ++ [row, column]).getD outer.length 0 = row := by rw [← rank, indexMiddle]
  have inside : Inside (outer ++ [rows, piece]) (start ++ [row, column]) := inside
  refine (tabulatedEntry _ inside).trans (congrArg Option.some ?_)
  rw [tabulatedRead _ _ inside]
  simp only [place, here, windowsFound, List.foldl_map]

end Pieces

theorem overlapAdded {signal : Tensor K} {outer : List Nat} {frames frameLength frameStep : Nat}
    (shape : signal.shape = outer ++ [frames, frameLength]) (full : 0 < outer.prod)
    (some : 1 ≤ frames) (long : 1 ≤ frameLength) (moves : 1 ≤ frameStep) :
    ∃ u, overlapAndAdd kernel signal frameStep = Option.some u ∧
      u.shape = outer ++ [frameStep * (frames - 1) + frameLength] ∧
      ∀ start sample, start.length = outer.length → Inside u.shape (start ++ [sample]) →
        u.entry (start ++ [sample]) =
          Option.some (summed kernel signal frames frameLength frameStep start sample) := by
  obtain ⟨piece, common⟩ : ∃ piece, Nat.gcd frameLength frameStep = piece := ⟨_, rfl⟩
  have positive : 0 < piece := common ▸ Nat.gcd_pos_of_pos_right _ moves
  obtain ⟨pieces, rfl⟩ : piece ∣ frameLength := common ▸ Nat.gcd_dvd_left _ _
  obtain ⟨step, rfl⟩ : piece ∣ frameStep := common ▸ Nat.gcd_dvd_right _ _
  have stepping : 0 < step := Nat.pos_of_mul_pos_left moves
  have size : piece * step * (frames - 1) + piece * pieces =
      (step * (frames - 1) + pieces) * piece := by
    rw [Nat.mul_assoc, ← Nat.mul_add, Nat.mul_comm]
  have front : signal.shape.take (signal.shape.length - 2) = outer := by
    rw [shape, List.length_append]
    exact List.take_left' rfl
  have back : signal.shape.drop (signal.shape.length - 2) = [frames, piece * pieces] := by
    rw [shape, List.length_append]
    exact List.drop_left' rfl
  obtain ⟨source, cut, cutShape, cutFound⟩ :=
    @viewPieces K signal outer frames pieces piece (shape.trans (by rw [Nat.mul_comm]))
  obtain ⟨total, added, addedShape, addedFound⟩ :=
    @piecesAdded K kernel outer source frames pieces step piece cutShape
  obtain ⟨u, joined, done, found⟩ := @viewJoin K total outer [] _ piece addedShape
  have opened : signal.viewOpen outer [piece] = Option.some source := by
    rw [@viewOpened K signal outer [piece] (frames * pieces), cut]
    · rw [List.prod_append, List.prod_singleton]
      exact Nat.mul_pos full positive
    · rw [signal.size, shape, Nat.mul_comm piece pieces]
      simp only [List.prod_append, List.prod_cons, List.prod_nil, Nat.mul_one, Nat.mul_assoc]
  have closed : total.viewOpen outer [] = Option.some u := by
    rw [@viewOpened K total outer [] ((step * (frames - 1) + pieces) * piece), joined]
    · rw [List.append_nil]
      exact full
    · rw [total.size, addedShape, prodSplit]
  refine ⟨u, ?_, ?_, fun start sample rank inside => ?_⟩
  · simp only [overlapAndAdd, front, back, common, Nat.mul_div_cancel_left _ positive, size,
      Nat.mul_div_cancel _ positive, opened, unfoldRange stepping some, Option.bind_eq_bind,
      Option.bind_some, added, closed]
  · rw [done, size]
  · have parts := Nat.div_add_mod' sample piece
    have column := Nat.mod_lt sample positive
    rw [← parts, done] at inside
    have entry := found start (sample / piece) (sample % piece) [] rank column
    rw [parts] at entry
    have within := (insideSplit rank column).mp inside
    rw [entry, addedFound start _ _ (addedShape ▸ within) rank, coveringPieces positive]
    refine congrArg Option.some (List.foldl_ext _ _ _ fun value frame covered => ?_)
    obtain ⟨-, covers⟩ := List.mem_filter.mp covered
    obtain ⟨early, late⟩ := of_decide_eq_true covers
    have before : frame * step ≤ sample / piece := by
      rw [Nat.le_div_iff_mul_le positive, Nat.mul_assoc, Nat.mul_comm step]
      exact early
    have after : sample / piece < frame * step + pieces := by
      rw [Nat.div_lt_iff_lt_mul positive, Nat.add_mul, Nat.mul_assoc, Nat.mul_comm step,
        Nat.mul_comm pieces]
      exact late
    have moved : (sample / piece - frame * step) * piece + sample % piece =
        sample - frame * (piece * step) := by
      have floor := Nat.mul_le_mul_right piece before
      rw [Nat.mul_assoc, Nat.mul_comm step] at floor
      rw [Nat.sub_mul, Nat.mul_assoc, Nat.mul_comm step, ← Nat.sub_add_comm floor, parts]
    rw [Tensor.read, Tensor.read, cutFound start frame _ _ rank (by omega) column, moved]

def plainOverlapAndAdd (signal : Tensor K) (outer : List Nat) (frames frameLength frameStep : Nat) :
    Tensor K :=
  Tensor.tabulate (outer ++ [frameStep * (frames - 1) + frameLength]) fun place =>
    summed kernel signal frames frameLength frameStep place.dropLast (place.getLastD 0)

/- The pieces change neither what is added nor in which order, whatever the numbers are. -/
theorem overlapAddPlain (signal : Tensor K) {outer : List Nat} {frames frameLength frameStep : Nat}
    (shape : signal.shape = outer ++ [frames, frameLength]) (full : 0 < outer.prod)
    (some : 1 ≤ frames) (long : 1 ≤ frameLength) (moves : 1 ≤ frameStep) :
    overlapAndAdd kernel signal frameStep =
      Option.some (plainOverlapAndAdd kernel signal outer frames frameLength frameStep) := by
  obtain ⟨u, added, done, found⟩ := overlapAdded kernel shape full some long moves
  rw [added]
  refine congrArg Option.some (tensorExt done fun place => ?_)
  by_cases inside : Inside u.shape place
  · obtain ⟨start, sample, rfl, front, less⟩ := insideSnoc.mp (done ▸ inside)
    rw [found start sample front.length_eq inside, plainOverlapAndAdd,
      tabulatedEntry _ (done ▸ inside), List.dropLast_concat, List.getLastD_concat]
  · rw [entryOutside inside, plainOverlapAndAdd, tabulatedOutside _ (done ▸ inside)]

theorem overlapAddPlainTwo :
    let signal := Tensor.tabulate [2, 3, 6] fun place => (place.getD 2 0).toFloat32
    overlapAndAdd floatKernel signal 4 =
      some (plainOverlapAndAdd floatKernel signal [2] 3 6 4) := by
  intro signal
  exact @overlapAddPlain Float32 floatKernel signal [2] 3 6 4 rfl (by decide) (by decide)
    (by decide) (by decide)

end KaraokeAnything.Tasnet
