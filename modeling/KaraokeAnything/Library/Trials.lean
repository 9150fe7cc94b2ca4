import KaraokeAnything.Library.Lockstep

/-! A flag that is to say how the last trial went: it is right as long as a failure that
does not raise it only follows another failure. -/
namespace Trials
open Lockstep

inductive Trial where
  | quiet
  | passed
  | failed (raises : Bool)
  | cleared
  deriving DecidableEq, Repr

def flagAfter (flag : Bool) : Trial → Bool
  | .quiet => flag
  | .passed => false
  | .failed raises => raises || flag
  | .cleared => false

def failedAfter (failed : Bool) : Trial → Bool
  | .quiet => failed
  | .passed => false
  | .failed _ => true
  | .cleared => false

def lastFailed (trials : List Trial) : Bool := trials.foldl failedAfter false

theorem lastFailedSnoc (trials : List Trial) (trial : Trial) :
    lastFailed (trials ++ [trial]) = failedAfter (lastFailed trials) trial := by
  rw [lastFailed, List.foldl_append]
  rfl

theorem staysRight (flag : Bool) (trial : Trial) :
    flagAfter flag trial = failedAfter flag trial ↔ (trial = .failed false → flag = true) := by
  cases trial with
  | quiet => simp [flagAfter, failedAfter]
  | passed => simp [flagAfter, failedAfter]
  | failed raises => cases raises <;> simp [flagAfter, failedAfter]
  | cleared => simp [flagAfter, failedAfter]

variable {σ ε : Type}

theorem flagRight (next : σ → ε → Trial × σ) (flag : σ → Bool) {s : σ} {events : List ε}
    (down : flag s = false)
    (moves : ∀ before event, before ++ [event] <+: events →
      let r := final next s before
      flag (next r event).2 = flagAfter (flag r) (next r event).1) :
    (∀ before, before <+: events → flag (final next s before) = lastFailed (answers next s before)) ↔
      ∀ before event, before ++ [event] <+: events →
        (next (final next s before) event).1 = .failed false →
          lastFailed (answers next s before) = true := by
  induction events using List.reverseRecOn with
  | nil =>
    refine ⟨fun _ before event cut => by simp at cut, fun _ before cut => ?_⟩
    cases List.prefix_nil.mp cut
    exact down
  | append_singleton events event ih =>
    have earlier := ih (fun before e cut => moves before e (cut.trans (List.prefix_append _ _)))
    have last := moves events event (List.prefix_refl _)
    constructor
    · intro right before e cut silent
      rcases List.prefix_concat_iff.mp cut with whole | sooner
      · obtain ⟨rfl, rfl⟩ := List.append_singleton_inj.mp whole
        have here := right before (List.prefix_append _ _)
        have there := right _ (List.prefix_refl _)
        rw [finalSnoc, answersSnoc, lastFailedSnoc, last, here] at there
        exact (staysRight _ _).mp there silent
      · exact earlier.mp (fun head inside => right head (inside.trans (List.prefix_append _ _)))
          before e sooner silent
    · intro raised before cut
      have sooner := earlier.mpr
        (fun head e inside => raised head e (inside.trans (List.prefix_append _ _)))
      rcases List.prefix_concat_iff.mp cut with rfl | inside
      · rw [finalSnoc, answersSnoc, lastFailedSnoc, last, sooner events (List.prefix_refl _)]
        exact (staysRight _ _).mpr (raised events event (List.prefix_refl _))
      · exact sooner before inside

end Trials
