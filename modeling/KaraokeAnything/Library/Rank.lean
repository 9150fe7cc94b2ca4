import KaraokeAnything.Library.Runs
import Mathlib.Algebra.GroupWithZero.Nat

/-! How many steps of one kind a run can take: a rank that each of them lowers, and
that the other steps raise by what they cost at most. The rank of a system of clients
is the weight of where they stand, summed up. -/
namespace Rank
open Runs

section Weights
variable {α : Type} {items : List α} {t : Nat} {old new : α} (weight : α → Nat)

theorem weighSet (present : items[t]? = some old) :
    ((items.set t new).map weight).sum + weight old = (items.map weight).sum + weight new := by
  induction items generalizing t with
  | nil => simp at present
  | cons head rest ih =>
    cases t with
    | zero =>
      have here : head = old := by simpa using present
      subst here
      simp only [List.set_cons_zero, List.map_cons, List.sum_cons]
      omega
    | succ t =>
      have later := ih (by simpa using present)
      simp only [List.set_cons_succ, List.map_cons, List.sum_cons]
      omega

theorem weighAppend : ((items ++ [new]).map weight).sum = (items.map weight).sum + weight new := by
  simp

end Weights

section Bounds
variable {σ ε : Type} {step : σ → ε → Option σ} {condition : σ → ε → Prop}

theorem runRank (invariant : σ → Prop) (rank : σ → Nat) (counts : ε → Bool) (cost : ε → Nat)
    {s t : σ} {events : List ε} (initial : invariant s)
    (kept : ∀ r e u, invariant r → condition r e → step r e = some u → invariant u)
    (lowers : ∀ r e u, invariant r → condition r e → step r e = some u →
      rank u + (counts e).toNat ≤ rank r + cost e)
    (along : Along step condition s events) (ran : run step s events = some t) :
    rank t + events.countP counts ≤ rank s + (events.map cost).sum := by
  induction events using List.reverseRecOn generalizing t with
  | nil =>
    cases ran
    simp
  | append_singleton events e ih =>
    obtain ⟨r, before, taken⟩ := runSnoc.mp ran
    have sooner := alongPrefix (List.prefix_append _ _) along
    have holds : invariant r := runInvariantAlong invariant initial kept sooner before
    have earlier := ih sooner before
    have last := lowers r e t holds (alongLast along before) taken
    have counted : (events ++ [e]).countP counts = events.countP counts + (counts e).toNat := by
      cases counted : counts e <;> simp [counted]
    rw [counted, List.map_append, List.sum_append, List.map_singleton, List.sum_singleton]
    omega

end Bounds

end Rank
