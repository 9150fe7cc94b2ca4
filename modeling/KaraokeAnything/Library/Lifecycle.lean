import Mathlib.Logic.Function.Basic

/-! The calls an object receives, as a log of begins and ends, and the order in which
a component with a start and a stop may receive them. -/
namespace Lifecycle

inductive Method (P : Type) where
  | start
  | process (item : P)
  | reset
  | flush
  | stop
  deriving DecidableEq, Repr

/- `ends` also stands for a call that raised, but for a `start` that `fails`. -/
inductive Phase where
  | begins
  | ends
  | fails
  deriving DecidableEq, Repr

structure Call (P : Type) where
  target : Nat
  method : Method P
  phase : Phase
  deriving DecidableEq, Repr

inductive Stage (P : Type) where
  | unborn
  | starting
  | ready
  | busy (method : Method P)
  | stopping
  | stopped
  | dead
  deriving DecidableEq, Repr

variable {P : Type} [DecidableEq P]

def advance : Stage P → Method P → Phase → Option (Stage P)
  | .unborn, .start, .begins => some .starting
  | .starting, .start, .ends => some .ready
  | .starting, .start, .fails => some .dead
  | .ready, .start, _ => none
  | .ready, .stop, .begins => some .stopping
  | .ready, method, .begins => some (.busy method)
  | .busy method, ending, .ends => if ending = method then some .ready else none
  | .stopping, .stop, .ends => some .stopped
  | _, _, _ => none

def stageOf (calls : List (Call P)) (target : Nat) : Option (Stage P) :=
  (calls.filter (·.target == target)).foldlM (fun stage call => advance stage call.method call.phase)
    .unborn

theorem stageSnoc (calls : List (Call P)) (call : Call P) (target : Nat) :
    stageOf (calls ++ [call]) target =
      if call.target = target then
        (stageOf calls target).bind (fun stage => advance stage call.method call.phase)
      else stageOf calls target := by
  unfold stageOf
  rw [List.filter_append, List.foldlM_append]
  by_cases same : call.target = target
  · simp [same]
  · simp [same]

def Staged (calls : List (Call P)) (stage : Nat → Stage P) : Prop :=
  ∀ target, stageOf calls target = some (stage target)

theorem stagedNil : Staged ([] : List (Call P)) (fun _ => .unborn) := fun _ => rfl

theorem stagedSnoc {calls : List (Call P)} {stage : Nat → Stage P} (call : Call P)
    (next : Stage P) (staged : Staged calls stage)
    (advances : advance (stage call.target) call.method call.phase = some next) :
    Staged (calls ++ [call]) (Function.update stage call.target next) := by
  intro other
  rw [stageSnoc, staged other]
  by_cases same : call.target = other
  · subst same
    simp [advances]
  · simp [same, Function.update_of_ne (Ne.symm same)]

end Lifecycle
