import Mathlib.Algebra.GroupWithZero.Nat
import Mathlib.Algebra.Order.Group.Nat
import KaraokeAnything.Library.Runs

/-! Machines that come to rest. Some of the events advance the machine: each of them uses
up work that is left, and no other event of its own adds any. -/
namespace Settling
open Runs
variable {σ ε : Type}

section Bound
variable {step : σ → ε → Option σ} {invariant : σ → Prop} {inner : ε → Prop} {advances : ε → Bool}
  {work : σ → Nat}

structure Consumes (step : σ → ε → Option σ) (invariant : σ → Prop) (inner : ε → Prop)
    (advances : ε → Bool) (work : σ → Nat) : Prop where
  kept : ∀ s e t, invariant s → step s e = some t → invariant t
  lowers : ∀ s e t, invariant s → advances e = true → step s e = some t → work t < work s
  keeps : ∀ s e t, invariant s → inner e → advances e = false → step s e = some t → work t = work s

theorem advancesBounded (consumes : Consumes step invariant inner advances work) {s t : σ}
    (holds : invariant s) {events : List ε} (own : ∀ e ∈ events, inner e)
    (ran : run step s events = some t) : events.countP advances + work t ≤ work s := by
  induction events generalizing s with
  | nil =>
    cases Option.some.inj ran
    simp
  | cons e rest ih =>
    obtain ⟨r, taken, later⟩ := Option.bind_eq_some_iff.mp ran
    have others := ih (consumes.kept s e r holds taken)
      (fun e inside => own e (List.mem_cons_of_mem _ inside)) later
    cases moves : advances e with
    | true =>
      have less := consumes.lowers s e r holds moves taken
      rw [List.countP_cons_of_pos moves]
      omega
    | false =>
      have same := consumes.keeps s e r holds (own e List.mem_cons_self) moves taken
      rw [List.countP_cons_of_neg (by simp [moves])]
      omega

/- Where every state that is not at rest can go on by some of the advancing events, these
bring each one to rest. -/
theorem reachesRest (consumes : Consumes step invariant inner advances work) (rests : σ → Prop)
    (proceeds : ε → Prop) (advancing : ∀ e, proceeds e → advances e = true)
    (progress : ∀ s, invariant s → rests s ∨ ∃ e t, proceeds e ∧ step s e = some t)
    (s : σ) (holds : invariant s) :
    ∃ events t, (∀ e ∈ events, proceeds e) ∧ run step s events = some t ∧ rests t := by
  induction left : work s using Nat.strong_induction_on generalizing s with
  | _ n ih =>
    rcases progress s holds with complete | ⟨e, r, moves, taken⟩
    · exact ⟨[], s, by simp, rfl, complete⟩
    · have less := consumes.lowers s e r holds (advancing e moves) taken
      obtain ⟨events, t, all, ran, complete⟩ :=
        ih (work r) (left ▸ less) r (consumes.kept s e r holds taken) rfl
      refine ⟨e :: events, t, ?_, ?_, complete⟩
      · rintro _ (_ | ⟨_, inside⟩)
        · exact moves
        · exact all _ inside
      · rw [run, taken]
        exact ran

end Bound

section Slots
variable {α : Type} (weight : α → Nat) {items : List α} {t : Nat} {old : α}

theorem weightSet (found : items[t]? = some old) (new : α) :
    ((items.set t new).map weight).sum + weight old = (items.map weight).sum + weight new := by
  induction items generalizing t with
  | nil => simp at found
  | cons item rest ih =>
    cases t with
    | zero =>
      cases Option.some.inj found
      simp only [List.set_cons_zero, List.map_cons, List.sum_cons]
      omega
    | succ t =>
      have later := ih found
      simp only [List.set_cons_succ, List.map_cons, List.sum_cons]
      omega

end Slots

end Settling
