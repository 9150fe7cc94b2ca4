import Mathlib.Data.List.Induction

/-! Runs of a partial step function: a list of events taken one after another. -/
namespace Runs
variable {σ ε : Type}

def run (step : σ → ε → Option σ) (s : σ) : List ε → Option σ
  | [] => some s
  | e :: rest => (step s e).bind (fun t => run step t rest)

variable {step : σ → ε → Option σ}

theorem runAppend (s : σ) (first rest : List ε) :
    run step s (first ++ rest) = (run step s first).bind (fun t => run step t rest) := by
  induction first generalizing s with
  | nil => rfl
  | cons e first ih =>
    simp only [List.cons_append, run, Option.bind_assoc]
    cases step s e <;> simp [ih]

theorem runSnoc {s t : σ} {events : List ε} {e : ε} :
    run step s (events ++ [e]) = some t ↔ ∃ r, run step s events = some r ∧ step r e = some t := by
  rw [runAppend, Option.bind_eq_some_iff]
  simp [run]

def Along (step : σ → ε → Option σ) (condition : σ → ε → Prop) (s : σ) (events : List ε) : Prop :=
  ∀ before e r, before ++ [e] <+: events → run step s before = some r → condition r e

theorem alongPrefix {condition : σ → ε → Prop} {s : σ} {before events : List ε}
    (cut : before <+: events) (along : Along step condition s events) :
    Along step condition s before := fun _ _ _ inside ran => along _ _ _ (inside.trans cut) ran

theorem alongLast {condition : σ → ε → Prop} {s r : σ} {events : List ε} {e : ε}
    (along : Along step condition s (events ++ [e])) (ran : run step s events = some r) :
    condition r e := along events e r (List.prefix_refl _) ran

theorem alongRest {condition : σ → ε → Prop} {s r : σ} {before events : List ε}
    (along : Along step condition s (before ++ events)) (ran : run step s before = some r) :
    Along step condition r events := by
  intro head e t inside taken
  refine along (before ++ head) e t ?_ ?_
  · rw [List.append_assoc]
    exact (List.prefix_append_right_inj before).mpr inside
  · rw [runAppend, ran]
    exact taken

theorem alongBoth {left right : σ → ε → Prop} {s : σ} {events : List ε}
    (first : Along step left s events) (second : Along step right s events) :
    Along step (fun t e => left t e ∧ right t e) s events :=
  fun before e r cut ran => ⟨first before e r cut ran, second before e r cut ran⟩

theorem alongNil {condition : σ → ε → Prop} {s : σ} : Along step condition s [] := by
  intro before e r inside
  simp at inside

theorem alongCons {condition : σ → ε → Prop} {s t : σ} {e : ε} {events : List ε}
    (head : step s e = some t) (holds : condition s e) (tail : Along step condition t events) :
    Along step condition s (e :: events) := by
  intro before last r inside ran
  cases before with
  | nil =>
    obtain ⟨rest, same⟩ := inside
    cases (List.cons.inj same).1
    cases ran
    exact holds
  | cons first before =>
    obtain ⟨same, within⟩ := List.cons_prefix_cons.mp inside
    rw [same, run, head] at ran
    exact tail before last r within ran

theorem alongSnoc {condition : σ → ε → Prop} {s r : σ} {events : List ε} {e : ε}
    (ran : run step s events = some r) (along : Along step condition s events)
    (holds : condition r e) : Along step condition s (events ++ [e]) := by
  intro before last u inside reached
  rcases List.prefix_concat_iff.mp inside with whole | earlier
  · obtain ⟨same, rfl⟩ := List.append_singleton_inj.mp whole
    rw [same, ran] at reached
    cases reached
    exact holds
  · exact along before last u earlier reached

theorem runInvariantAlong {condition : σ → ε → Prop} (invariant : σ → Prop) {s t : σ}
    {events : List ε} (initial : invariant s)
    (kept : ∀ r e u, invariant r → condition r e → step r e = some u → invariant u)
    (along : Along step condition s events) (ran : run step s events = some t) : invariant t := by
  induction events using List.reverseRecOn generalizing t with
  | nil =>
    cases Option.some.inj ran
    exact initial
  | append_singleton events e ih =>
    obtain ⟨r, before, taken⟩ := runSnoc.mp ran
    have earlier := ih (alongPrefix (List.prefix_append _ _) along) before
    exact kept r e t earlier (alongLast along before) taken

theorem runInvariant (invariant : σ → Prop) {s t : σ} {events : List ε} (initial : invariant s)
    (kept : ∀ r e u, invariant r → step r e = some u → invariant u)
    (ran : run step s events = some t) : invariant t := by
  have everywhere : Along step (fun _ _ => True) s events := fun _ _ _ _ _ => trivial
  exact runInvariantAlong invariant initial (fun r e u holds _ => kept r e u holds) everywhere ran

/- A log that only grows has nothing but good entries exactly if the run is along the
condition under which a step adds nothing but good ones. -/
theorem logAlong {α : Type} {condition : σ → ε → Prop} (invariant : σ → Prop) (log : σ → List α)
    (good : α → Prop) {s t : σ} {events : List ε} (initial : invariant s) (empty : log s = [])
    (kept : ∀ r e u, invariant r → step r e = some u → invariant u)
    (grows : ∀ r e u, invariant r → step r e = some u →
      ∃ new, log u = log r ++ new ∧ ((∀ x ∈ new, good x) ↔ condition r e))
    (ran : run step s events = some t) :
    (∀ x ∈ log t, good x) ↔ Along step condition s events := by
  induction events using List.reverseRecOn generalizing t with
  | nil =>
    cases Option.some.inj ran
    simp [empty, alongNil]
  | append_singleton events e ih =>
    obtain ⟨r, before, taken⟩ := runSnoc.mp ran
    obtain ⟨new, added, exactly⟩ := grows r e t (runInvariant invariant initial kept before) taken
    rw [added, List.forall_mem_append, ih before, exactly]
    refine ⟨fun both => alongSnoc before both.1 both.2, fun along => ?_⟩
    exact ⟨alongPrefix (List.prefix_append _ _) along, alongLast along before⟩

theorem foundSnoc {α : Type} {items : List α} {last item : α} {u : Nat}
    (found : (items ++ [last])[u]? = some item) :
    items[u]? = some item ∨ (u = items.length ∧ item = last) := by
  rw [List.getElem?_append] at found
  split at found
  · exact .inl found
  · rename_i beyond
    have here : u - items.length = 0 := by
      by_contra more
      rw [List.getElem?_eq_none (by simpa using Nat.one_le_iff_ne_zero.mpr more)] at found
      contradiction
    rw [here] at found
    exact .inr ⟨by omega, (Option.some.inj found).symm⟩

end Runs
