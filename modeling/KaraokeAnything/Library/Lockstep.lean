import Mathlib.Data.List.Induction

/-! Machines that answer every event, and when two of them give the same answers. -/
namespace Lockstep
variable {σ τ ε ω : Type}

def final (next : σ → ε → ω × σ) (s : σ) (events : List ε) : σ :=
  events.foldl (fun s event => (next s event).2) s

def answers (next : σ → ε → ω × σ) : σ → List ε → List ω
  | _, [] => []
  | s, event :: rest => (next s event).1 :: answers next (next s event).2 rest

variable {next : σ → ε → ω × σ} {other : τ → ε → ω × τ} {s : σ} {t : τ} {events : List ε}

theorem finalSnoc (event : ε) :
    final next s (events ++ [event]) = (next (final next s events) event).2 := by
  rw [final, List.foldl_append]
  rfl

theorem answersSnoc (event : ε) : answers next s (events ++ [event]) =
    answers next s events ++ [(next (final next s events) event).1] := by
  induction events generalizing s with
  | nil => rfl
  | cons head rest ih =>
    rw [List.cons_append, answers, answers, ih]
    rfl

theorem answersLength : (answers next s events).length = events.length := by
  induction events generalizing s with
  | nil => rfl
  | cons head rest ih => rw [answers, List.length_cons, ih, List.length_cons]

variable (next s) in
theorem answersPrefix {before : List ε} (cut : before <+: events) :
    answers next s before <+: answers next s events := by
  obtain ⟨after, rfl⟩ := cut
  induction before generalizing s with
  | nil => exact List.nil_prefix
  | cons head rest ih => exact (List.prefix_cons_inj _).mpr (ih _)

theorem lockstep {view : σ → τ} (steps : ∀ before event, before ++ [event] <+: events →
    other (view (final next s before)) event =
      ((next (final next s before) event).1, view (next (final next s before) event).2)) :
    answers other (view s) events = answers next s events ∧
      final other (view s) events = view (final next s events) := by
  induction events using List.reverseRecOn with
  | nil => exact ⟨rfl, rfl⟩
  | append_singleton events event ih =>
    obtain ⟨same, last⟩ := ih (fun before event cut =>
      steps before event (cut.trans (List.prefix_append _ _)))
    have step := steps events event (List.prefix_refl _)
    rw [answersSnoc, answersSnoc, finalSnoc, finalSnoc, same, last, step]
    exact ⟨rfl, rfl⟩

/- The events as another machine gets them, each rewritten by the state it comes to. -/
def seen {δ : Type} (next : σ → ε → ω × σ) (image : σ → ε → δ) : σ → List ε → List δ
  | _, [] => []
  | s, event :: rest => image s event :: seen next image (next s event).2 rest

theorem seenSnoc {δ : Type} {image : σ → ε → δ} (event : ε) : seen next image s (events ++ [event]) =
    seen next image s events ++ [image (final next s events) event] := by
  induction events generalizing s with
  | nil => rfl
  | cons head rest ih =>
    rw [List.cons_append, seen, seen, ih]
    rfl

variable (next s) in
theorem seenAt {δ : Type} (image : σ → ε → δ) {before : List ε} {event : ε}
    (cut : before ++ [event] <+: events) :
    (seen next image s events)[before.length]? = some (image (final next s before) event) := by
  obtain ⟨after, rfl⟩ := cut
  induction before generalizing s with
  | nil => rfl
  | cons head rest ih => exact ih (next s head).2

theorem lockstepSeen {δ : Type} {other : τ → δ → ω × τ} (view : σ → τ) (image : σ → ε → δ)
    (steps : ∀ before event, before ++ [event] <+: events →
      other (view (final next s before)) (image (final next s before) event) =
        ((next (final next s before) event).1, view (next (final next s before) event).2)) :
    answers other (view s) (seen next image s events) = answers next s events ∧
      final other (view s) (seen next image s events) = view (final next s events) := by
  induction events using List.reverseRecOn with
  | nil => exact ⟨rfl, rfl⟩
  | append_singleton events event ih =>
    obtain ⟨same, last⟩ := ih (fun before event cut =>
      steps before event (cut.trans (List.prefix_append _ _)))
    have step := steps events event (List.prefix_refl _)
    rw [seenSnoc, answersSnoc, answersSnoc, finalSnoc, finalSnoc, same, last, step]
    exact ⟨rfl, rfl⟩

theorem answersRelated {R : σ → τ → Prop} (image : ε → ε) (steps : ∀ s t event, R s t →
      (next s event).1 = (other t (image event)).1 ∧ R (next s event).2 (other t (image event)).2)
    (related : R s t) : answers next s events = answers other t (events.map image) := by
  induction events generalizing s t with
  | nil => rfl
  | cons event rest ih =>
    obtain ⟨same, after⟩ := steps s t event related
    rw [List.map_cons, answers, answers, same, ih after]

theorem answersEvent (same : answers other t events = answers next s events) {before : List ε}
    {event : ε} (cut : before ++ [event] <+: events) :
    (other (final other t before) event).1 = (next (final next s before) event).1 := by
  have left := answersPrefix other t cut
  have right := answersPrefix next s cut
  rw [same] at left
  have lengths : (answers other t (before ++ [event])).length =
      (answers next s (before ++ [event])).length := by rw [answersLength, answersLength]
  have both := (List.prefix_of_prefix_length_le left right (Nat.le_of_eq lengths)).eq_of_length lengths
  rw [answersSnoc, answersSnoc] at both
  exact List.singleton_inj.mp (List.append_inj_right both (by rw [answersLength, answersLength]))

end Lockstep
