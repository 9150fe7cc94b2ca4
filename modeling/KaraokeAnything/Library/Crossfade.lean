import Mathlib.Algebra.Order.Floor.Ring
import Mathlib.Data.List.Induction
import Mathlib.Tactic.GCongr
import Mathlib.Tactic.Positivity
import Mathlib.Tactic.Ring

/-! Crossfades over a sequence of segments of varying length: the head of each segment is
mixed with the tail of the one before. Samples are interleaved, and every segment is as
long as it was. -/
namespace Crossfade
variable {α : Type}

/- The frames that a segment of so many frames overlaps the one before, and the mixture of
two samples in one of these frames. At most half of a segment is mixed. -/
structure Fading (α : Type) where
  channels : Nat
  overlap : Nat → Nat
  mix : Nat → Nat → α → α → α
  positive : 0 < channels
  halves : ∀ frames, 2 * overlap frames ≤ frames

namespace Fading
variable (f : Fading α)

def frames (raw : List α) : Nat := raw.length / f.channels

def overlapFrames (raw : List α) : Nat := f.overlap (f.frames raw)

def overlapSamples (raw : List α) : Nat := f.overlapFrames raw * f.channels

def mixHead (tail raw : List α) : List α :=
  raw.mapIdx (fun j sample => match tail[j]? with
    | some old =>
      if j / f.channels < f.overlapFrames raw then
        f.mix (j / f.channels) (f.overlapFrames raw) old sample
      else sample
    | none => sample)

def fadeIn (tail : Option (List α)) (raw : List α) : List α :=
  match tail with
  | some tail => if tail.length < f.overlapSamples raw then raw else f.mixHead tail raw
  | none => raw

def lastFrames (faded : List α) : Option (List α) :=
  if f.overlapSamples faded = 0 then none
  else some (faded.drop (faded.length - f.overlapSamples faded))

def outputs : Option (List α) → List (List α) → List (List α)
  | _, [] => []
  | tail, raw :: rest => f.fadeIn tail raw :: outputs (f.lastFrames (f.fadeIn tail raw)) rest

end Fading

def previous (raws : List (List α)) : Nat → Option (List α)
  | 0 => none
  | k + 1 => raws[k]?

section Lengths
variable {f : Fading α} {tail : Option (List α)} {raw : List α}

theorem fadeInLength : (f.fadeIn tail raw).length = raw.length := by
  cases tail with
  | none => rfl
  | some tail =>
    rw [Fading.fadeIn]
    split
    · rfl
    · rw [Fading.mixHead, List.length_mapIdx]

theorem fadedOverlap : f.overlapSamples (f.fadeIn tail raw) = f.overlapSamples raw := by
  rw [Fading.overlapSamples, Fading.overlapFrames, Fading.frames, fadeInLength]
  rfl

theorem overlapTwice (f : Fading α) (raw : List α) : 2 * f.overlapSamples raw ≤ raw.length := by
  have half := f.halves (f.frames raw)
  calc 2 * f.overlapSamples raw = 2 * f.overlapFrames raw * f.channels := by
        rw [Fading.overlapSamples, Nat.mul_assoc]
    _ ≤ f.frames raw * f.channels := Nat.mul_le_mul_right _ half
    _ ≤ raw.length := Nat.div_mul_le_self ..

theorem inOverlap (f : Fading α) (raw : List α) (j : Nat) :
    j / f.channels < f.overlapFrames raw ↔ j < f.overlapSamples raw :=
  Nat.div_lt_iff_lt_mul f.positive

theorem mixHeadAt (tail : List α) {j : Nat} {sample : α} (found : raw[j]? = some sample) :
    (f.mixHead tail raw)[j]? = some (match tail[j]? with
      | some old =>
        if j / f.channels < f.overlapFrames raw then
          f.mix (j / f.channels) (f.overlapFrames raw) old sample
        else sample
      | none => sample) := by
  rw [Fading.mixHead, List.getElem?_mapIdx, found, Option.map_some]

theorem keptBehind {j : Nat} (behind : f.overlapSamples raw ≤ j) :
    (f.fadeIn tail raw)[j]? = raw[j]? := by
  cases tail with
  | none => rfl
  | some tail =>
    rw [Fading.fadeIn]
    split
    · rfl
    · cases found : raw[j]? with
      | none =>
        rw [List.getElem?_eq_none_iff] at found ⊢
        rwa [Fading.mixHead, List.length_mapIdx]
      | some sample =>
        have after : ¬ j / f.channels < f.overlapFrames raw :=
          fun inside => Nat.not_lt.mpr behind ((inOverlap f raw j).mp inside)
        rw [mixHeadAt tail found]
        split <;> simp [after]

theorem lastUnmixed : f.lastFrames (f.fadeIn tail raw) = f.lastFrames raw := by
  rw [Fading.lastFrames, Fading.lastFrames, fadedOverlap, fadeInLength]
  split
  · rfl
  · refine congrArg some (List.ext_getElem? fun j => ?_)
    have twice := overlapTwice f raw
    rw [List.getElem?_drop, List.getElem?_drop, keptBehind (by omega)]

end Lengths

section Runs
variable (f : Fading α)

theorem outputsAt {tail : Option (List α)} {raws : List (List α)} {k : Nat} {raw : List α}
    (found : raws[k]? = some raw) : (f.outputs tail raws)[k]? =
      some (f.fadeIn (if k = 0 then tail else (previous raws k).bind f.lastFrames) raw) := by
  induction raws generalizing tail k with
  | nil => simp at found
  | cons head rest ih =>
    rw [Fading.outputs, lastUnmixed]
    cases k with
    | zero =>
      cases Option.some.inj found
      rfl
    | succ k =>
      rw [List.getElem?_cons_succ] at found ⊢
      rw [ih found, if_neg (Nat.succ_ne_zero k)]
      cases k <;> rfl

theorem outputsLength (tail : Option (List α)) (raws : List (List α)) :
    (f.outputs tail raws).length = raws.length := by
  induction raws generalizing tail with
  | nil => rfl
  | cons raw rest ih => rw [Fading.outputs, List.length_cons, List.length_cons, ih]

theorem outputsSnoc (raws : List (List α)) (raw : List α) : f.outputs none (raws ++ [raw]) =
    f.outputs none raws ++ [f.fadeIn (raws.getLast?.bind f.lastFrames) raw] := by
  have general (tail : Option (List α)) (raws : List (List α)) : f.outputs tail (raws ++ [raw]) =
      f.outputs tail raws ++ [f.fadeIn ((raws.getLast?.map f.lastFrames).getD tail) raw] := by
    induction raws generalizing tail with
    | nil => rfl
    | cons head rest ih =>
      rw [List.cons_append, Fading.outputs, Fading.outputs, lastUnmixed, ih]
      cases rest with
      | nil => rfl
      | cons next rest =>
        rw [List.getLast?_cons_cons]
        cases last : (next :: rest).getLast? with
        | none => simp at last
        | some segment => rfl
  rw [general]
  cases raws.getLast? <;> rfl

end Runs

section Samples
variable (f : Fading α)

structure Faded (before : Option (List α)) (raw out : List α) : Prop where
  length : out.length = raw.length
  mixed : ∀ last, before = some last → 0 < f.overlapFrames raw →
    f.overlapFrames raw ≤ f.overlapFrames last →
    ∀ i < f.overlapFrames raw, ∀ c < f.channels, ∃ old sample,
      last[(f.frames last - f.overlapFrames last + i) * f.channels + c]? = some old ∧
      raw[i * f.channels + c]? = some sample ∧
      out[i * f.channels + c]? = some (f.mix i (f.overlapFrames raw) old sample)
  kept : ∀ j, (¬ ∃ last, before = some last ∧ f.overlapFrames raw ≤ f.overlapFrames last ∧
    j / f.channels < f.overlapFrames raw) → out[j]? = raw[j]?

variable {f} {before : Option (List α)} {raw : List α}

theorem lastFound {last : List α} (whole : f.channels ∣ last.length)
    (some : f.overlapSamples last ≠ 0) {i c : Nat} :
    ((f.lastFrames last).getD [])[i * f.channels + c]? =
      last[(f.frames last - f.overlapFrames last + i) * f.channels + c]? := by
  have total : last.length = f.frames last * f.channels := (Nat.div_mul_cancel whole).symm
  have place : f.frames last * f.channels - f.overlapSamples last + (i * f.channels + c) =
      (f.frames last - f.overlapFrames last + i) * f.channels + c := by
    rw [Fading.overlapSamples, ← Nat.sub_mul, Nat.add_mul, Nat.add_assoc]
  rw [Fading.lastFrames, if_neg some, Option.getD_some, List.getElem?_drop, ← place, ← total]

theorem usableTail {last : List α} (some : f.overlapSamples last ≠ 0) :
    ∃ tail, f.lastFrames last = Option.some tail ∧ tail.length = f.overlapSamples last := by
  have twice := overlapTwice f last
  refine ⟨_, if_neg some, ?_⟩
  rw [List.length_drop]
  omega

theorem mixedFrame {last : List α} (whole : f.channels ∣ last.length)
    (longer : f.overlapFrames raw ≤ f.overlapFrames last) {i c : Nat}
    (frame : i < f.overlapFrames raw) (channel : c < f.channels) : ∃ old sample,
      last[(f.frames last - f.overlapFrames last + i) * f.channels + c]? = some old ∧
      raw[i * f.channels + c]? = some sample ∧
      (f.fadeIn (f.lastFrames last) raw)[i * f.channels + c]? =
        some (f.mix i (f.overlapFrames raw) old sample) := by
  have wider := Nat.mul_le_mul_right f.channels longer
  have inside : i * f.channels + c < f.overlapSamples raw := by
    calc i * f.channels + c < (i + 1) * f.channels := by rw [Nat.succ_mul]; omega
      _ ≤ f.overlapSamples raw := Nat.mul_le_mul_right _ frame
  have twice := overlapTwice f raw
  have nonempty : f.overlapSamples last ≠ 0 := by
    rw [Fading.overlapSamples] at inside ⊢
    omega
  obtain ⟨tail, usable, size⟩ := usableTail nonempty
  have enough : ¬ tail.length < f.overlapSamples raw := by
    rw [size]
    exact Nat.not_lt.mpr wider
  have inTail : i * f.channels + c < tail.length := by omega
  have inRaw : i * f.channels + c < raw.length := by omega
  have old := List.getElem?_eq_getElem inTail
  have sample := List.getElem?_eq_getElem inRaw
  have quotient : (i * f.channels + c) / f.channels = i := by
    rw [Nat.mul_comm, Nat.mul_add_div f.positive, Nat.div_eq_of_lt channel, Nat.add_zero]
  refine ⟨tail[i * f.channels + c], raw[i * f.channels + c], ?_, sample, ?_⟩
  · rw [← lastFound whole nonempty, usable]
    exact old
  · rw [usable, Fading.fadeIn, if_neg enough, mixHeadAt tail sample, old]
    simp only [quotient, if_pos frame]

theorem fadeInFaded (whole : ∀ last, before = some last → f.channels ∣ last.length) :
    Faded f before raw (f.fadeIn (before.bind f.lastFrames) raw) where
  length := fadeInLength
  mixed last known _ longer i frame c channel := by
    rw [known]
    exact mixedFrame (whole last known) longer frame channel
  kept j none := by
    by_cases behind : f.overlapSamples raw ≤ j
    · exact keptBehind behind
    · cases before with
      | none => rfl
      | some last =>
        have inside := (inOverlap f raw j).mpr (Nat.not_le.mp behind)
        have shorter : f.overlapFrames last < f.overlapFrames raw :=
          Nat.not_le.mp (fun longer => none ⟨last, rfl, longer, inside⟩)
        have less := Nat.mul_lt_mul_of_pos_right shorter f.positive
        by_cases empty : f.overlapSamples last = 0
        · rw [Option.bind_some, Fading.lastFrames, if_pos empty]
          rfl
        · obtain ⟨tail, usable, size⟩ := usableTail empty
          rw [Option.bind_some, usable, Fading.fadeIn, if_pos (by rw [size]; exact less)]

structure AllFaded (f : Fading α) (raws outs : List (List α)) : Prop where
  count : outs.length = raws.length
  faded : ∀ k raw, raws[k]? = some raw →
    ∃ out, outs[k]? = some out ∧ Faded f (previous raws k) raw out

theorem outputsFaded {raws : List (List α)} (whole : ∀ raw ∈ raws, f.channels ∣ raw.length) :
    AllFaded f raws (f.outputs none raws) := by
  refine ⟨outputsLength f none raws, fun k raw found => ⟨_, outputsAt f found, ?_⟩⟩
  have none : (if k = 0 then none else (previous raws k).bind f.lastFrames) =
      (previous raws k).bind f.lastFrames := by
    cases k <;> rfl
  rw [none]
  refine fadeInFaded (fun last known => ?_)
  cases k with
  | zero => contradiction
  | succ k => exact whole last (List.mem_of_getElem? known)

theorem outputsKeep (kept : α → Prop)
    (mixes : ∀ {i n old sample}, i < n → kept old → kept sample → kept (f.mix i n old sample))
    {tail : Option (List α)} (before : ∀ old ∈ tail.getD [], kept old) {raws : List (List α)}
    (given : ∀ raw ∈ raws, ∀ sample ∈ raw, kept sample) :
    ∀ out ∈ f.outputs tail raws, ∀ sample ∈ out, kept sample := by
  induction raws generalizing tail with
  | nil => nofun
  | cons raw rest ih =>
    have own := given raw List.mem_cons_self
    have faded : ∀ sample ∈ f.fadeIn tail raw, kept sample := by
      cases tail with
      | none => exact own
      | some tail =>
        intro sample inside
        rw [Fading.fadeIn] at inside
        split at inside
        · exact own sample inside
        · obtain ⟨j, here⟩ := List.mem_iff_getElem?.mp inside
          rw [Fading.mixHead, List.getElem?_mapIdx, Option.map_eq_some_iff] at here
          obtain ⟨was, found, rfl⟩ := here
          have good := own was (List.mem_of_getElem? found)
          split
          · rename_i old there
            split
            · exact mixes ‹_› (before old (List.mem_of_getElem? there)) good
            · exact good
          · exact good
    intro out inside
    rcases List.mem_cons.mp inside with rfl | later
    · exact faded
    · refine ih (fun old held => faded old ?_) (fun other more => given other (List.mem_cons_of_mem _ more))
        out later
      rw [Fading.lastFrames] at held
      split at held
      · contradiction
      · exact List.mem_of_mem_drop held

end Samples

section Exact
variable {K : Type} [Field K] [LinearOrder K] [IsStrictOrderedRing K] [FloorRing K]

def roundEven (x : K) : Int :=
  if Int.fract x < 1 / 2 then ⌊x⌋
  else if 1 / 2 < Int.fract x then ⌊x⌋ + 1
  else ⌊x⌋ + ⌊x⌋ % 2

omit [FloorRing K] in
theorem mixBounded {alpha x y bound : K} (low : 0 ≤ alpha) (high : alpha ≤ 1) (first : |x| ≤ bound)
    (second : |y| ≤ bound) : |x * (1 - alpha) + y * alpha| ≤ bound := by
  have rest : 0 ≤ 1 - alpha := sub_nonneg.mpr high
  calc |x * (1 - alpha) + y * alpha| ≤ |x * (1 - alpha)| + |y * alpha| := abs_add_le _ _
    _ = |x| * (1 - alpha) + |y| * alpha := by
        rw [abs_mul, abs_mul, abs_of_nonneg rest, abs_of_nonneg low]
    _ ≤ bound * (1 - alpha) + bound * alpha := by gcongr
    _ = bound := by ring

omit [FloorRing K] in
theorem fadeBounded {i n : Nat} {x y bound : K} (inside : i < n) (first : |x| ≤ bound)
    (second : |y| ≤ bound) :
    |x * (1 - ((i + 1 : Nat) : K) / (n + 1 : Nat)) + y * (((i + 1 : Nat) : K) / (n + 1 : Nat))| ≤
      bound := by
  have positive : (0 : K) < (n + 1 : Nat) := by positivity
  have most : ((i + 1 : Nat) : K) ≤ (n + 1 : Nat) := by exact_mod_cast Nat.succ_le_succ inside.le
  exact mixBounded (by positivity) ((div_le_one positive).mpr most) first second

end Exact

end Crossfade
