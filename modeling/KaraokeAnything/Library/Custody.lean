import Mathlib.Data.List.TakeDrop

/-! Items in the custody of a stage that buffers them: at its input, in work, or ready
to leave. What the stage does is a list of moves that never look at an item, so the same
moves take along whatever is known of the items beside the stage. -/
namespace Custody

@[ext] structure Line (α : Type) where
  ready : List α := []
  active : List α := []
  input : List α := []

/- The work is done or lost, the new item comes in or passes through, the oldest ones
are dropped or go to work, and everything is forgotten. -/
inductive Move where
  | settle
  | lose
  | enqueue
  | pass
  | drop (count : Nat)
  | launch (count : Nat)
  | clear
  deriving DecidableEq

def Move.Behind : Move → Prop
  | .settle | .pass | .clear => False
  | _ => True

namespace Line
variable {α β : Type}

def moved (item : Option α) (l : Line α) : Move → Line α
  | .settle => { l with ready := l.ready ++ l.active, active := [] }
  | .lose => { l with active := [] }
  | .enqueue => { l with input := l.input ++ item.toList }
  | .pass => { l with ready := l.ready ++ item.toList }
  | .drop count => { l with input := l.input.drop count }
  | .launch count => { l with active := l.input.take count, input := l.input.drop count }
  | .clear => {}

def after (item : Option α) (l : Line α) (moves : List Move) : Line α := moves.foldl (moved item) l

def release (l : Line α) (count : Nat) : Line α := { l with ready := l.ready.drop count }
def behind (items : List α) (l : Line α) : Line α := { l with ready := items ++ l.ready }

def map (f : α → β) (l : Line α) : Line β := ⟨l.ready.map f, l.active.map f, l.input.map f⟩

def All (P : α → Prop) (l : Line α) : Prop :=
  (∀ x ∈ l.ready, P x) ∧ (∀ x ∈ l.active, P x) ∧ ∀ x ∈ l.input, P x

variable {item : Option α} {l : Line α} {moves : List Move}

@[simp] theorem afterNil (item : Option α) (l : Line α) : l.after item [] = l := rfl

@[simp] theorem afterCons (item : Option α) (l : Line α) (move : Move) (moves : List Move) :
    l.after item (move :: moves) = (l.moved item move).after item moves := rfl

theorem afterAppend (item : Option α) (l : Line α) (first rest : List Move) :
    l.after item (first ++ rest) = (l.after item first).after item rest := List.foldl_append

theorem afterPasses (x : α) (l : Line α) {γ : Type} (outputs : List γ) :
    l.after (some x) (outputs.map fun _ => .pass) =
      { l with ready := l.ready ++ outputs.map fun _ => x } := by
  induction outputs generalizing l with
  | nil => simp
  | cons output outputs ih =>
    rw [List.map_cons, afterCons, ih]
    simp [moved]

theorem movedMap (f : α → β) (item : Option α) (l : Line α) (move : Move) :
    (l.moved item move).map f = (l.map f).moved (item.map f) move := by
  cases move <;> cases item <;> simp [moved, map, List.map_drop, List.map_take]

theorem afterMap (f : α → β) (item : Option α) (l : Line α) (moves : List Move) :
    (l.after item moves).map f = (l.map f).after (item.map f) moves := by
  induction moves generalizing l with
  | nil => rfl
  | cons move moves ih => rw [afterCons, afterCons, ih, movedMap]

theorem mapEmpty {f : α → β} (empty : l.map f = {}) : l = {} := by
  obtain ⟨ready, active, input⟩ := Line.mk.inj empty
  exact Line.ext (List.map_eq_nil_iff.mp ready) (List.map_eq_nil_iff.mp active)
    (List.map_eq_nil_iff.mp input)

section Leave
variable {f : α → β} {items : List β} {rest : Line β}

theorem leaving (seen : l.map f = rest.behind items) :
    (l.ready.take items.length).map f = items ∧ (l.release items.length).map f = rest := by
  obtain ⟨ready, active, input⟩ := Line.mk.inj seen
  refine ⟨?_, Line.ext ?_ active input⟩
  · rw [List.map_take, ready, List.take_left]
  · simp only [map, release, List.map_drop, ready, List.drop_left]

theorem leavingLength (seen : l.map f = rest.behind items) : items.length ≤ l.ready.length := by
  obtain ⟨taken, _⟩ := leaving seen
  have length := congrArg List.length taken
  rw [List.length_map, List.length_take] at length
  omega

end Leave

section Pairs
variable {γ : Type} {f : α → β} {g : γ → β} {outputs : List γ} {sources : List α}

theorem pairSources (outputs : List γ) (sources : List α) :
    (outputs.zip sources).map Prod.snd = sources.take outputs.length := by
  induction outputs generalizing sources with
  | nil => simp
  | cons output outputs ih => cases sources <;> simp [ih]

theorem pairSeen (seen : (sources.take outputs.length).map f = outputs.map g) :
    ∀ pair ∈ outputs.zip sources, g pair.1 = f pair.2 := by
  induction outputs generalizing sources with
  | nil => simp
  | cons output outputs ih =>
    cases sources with
    | nil => simp
    | cons source sources =>
      simp only [List.length_cons, List.take_succ_cons, List.map_cons, List.cons.injEq] at seen
      exact List.forall_mem_cons.mpr ⟨seen.1.symm, ih seen.2⟩

end Pairs

section All
variable {P : α → Prop}

theorem allMono {Q : α → Prop} (weaker : ∀ x, P x → Q x) (all : l.All P) : l.All Q :=
  ⟨fun x inside => weaker x (all.1 x inside), fun x inside => weaker x (all.2.1 x inside),
    fun x inside => weaker x (all.2.2 x inside)⟩

theorem allEmpty : All P {} := by simp [All]

theorem movedAll (all : l.All P) (new : ∀ x ∈ item, P x) (move : Move) :
    (l.moved item move).All P := by
  obtain ⟨ready, active, input⟩ := all
  have fresh : ∀ x ∈ item.toList, P x := by simpa using new
  cases move with
  | settle => exact ⟨List.forall_mem_append.mpr ⟨ready, active⟩, by simp [moved], input⟩
  | lose => exact ⟨ready, by simp [moved], input⟩
  | enqueue => exact ⟨ready, active, List.forall_mem_append.mpr ⟨input, fresh⟩⟩
  | pass => exact ⟨List.forall_mem_append.mpr ⟨ready, fresh⟩, active, input⟩
  | drop count => exact ⟨ready, active, fun x inside => input x (List.mem_of_mem_drop inside)⟩
  | launch count =>
    exact ⟨ready, fun x inside => input x (List.mem_of_mem_take inside),
      fun x inside => input x (List.mem_of_mem_drop inside)⟩
  | clear => exact allEmpty

theorem afterAll (all : l.All P) (new : ∀ x ∈ item, P x) (moves : List Move) :
    (l.after item moves).All P := by
  induction moves generalizing l with
  | nil => exact all
  | cons move moves ih => exact ih (movedAll all new move)

theorem releaseAll (all : l.All P) (count : Nat) : (l.release count).All P :=
  ⟨fun x inside => all.1 x (List.mem_of_mem_drop inside), all.2⟩

end All

theorem afterBehind (later : ∀ move ∈ moves, move.Behind) : (l.after item moves).ready = l.ready := by
  induction moves generalizing l with
  | nil => rfl
  | cons move moves ih =>
    obtain ⟨first, rest⟩ := List.forall_mem_cons.mp later
    rw [afterCons, ih rest]
    cases move <;> first | rfl | exact first.elim

end Line

end Custody
