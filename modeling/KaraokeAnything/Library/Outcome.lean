/-! Results of a computation that can return, fail with a message or abort: the
three ways a checked systems program ends. Indexing, slicing and fixed-width
arithmetic abort as the language defines them. -/

inductive Outcome (α : Type) where
  | value (result : α)
  | error (message : String)
  | aborted
  deriving DecidableEq, Repr

namespace Outcome

instance : Monad Outcome where
  pure := value
  bind
    | value a, next => next a
    | error message, _ => error message
    | aborted, _ => aborted

variable {α β : Type}

@[simp] theorem pureValue (a : α) : (pure a : Outcome α) = value a := rfl
@[simp] theorem valueBind (a : α) (next : α → Outcome β) : (value a >>= next) = next a := rfl
@[simp] theorem errorBind (message : String) (next : α → Outcome β) :
    ((error message : Outcome α) >>= next) = error message := rfl
@[simp] theorem abortedBind (next : α → Outcome β) :
    ((aborted : Outcome α) >>= next) = aborted := rfl

theorem bindValue {first : Outcome α} {next : α → Outcome β} {b : β} :
    (first >>= next) = value b ↔ ∃ a, first = value a ∧ next a = value b := by
  cases first <;> simp

theorem bindReturns {first : Outcome α} {next : α → Outcome β} (head : first ≠ aborted)
    (tail : ∀ a, first = value a → next a ≠ aborted) : (first >>= next) ≠ aborted := by
  cases first with
  | value a => exact tail a rfl
  | error message => simp
  | aborted => contradiction

def bailIf (condition : Prop) [Decidable condition] (message : String) : Outcome Unit :=
  if condition then error message else value ()

@[simp] theorem bailIfValue {condition : Prop} [Decidable condition] {message : String} {u : Unit} :
    bailIf condition message = value u ↔ ¬ condition := by
  unfold bailIf
  split <;> simp [*]

theorem bailIfHolds {condition : Prop} [Decidable condition] (message : String) (h : condition) :
    bailIf condition message = error message := if_pos h

theorem bailIfPasses {condition : Prop} [Decidable condition] (message : String)
    (h : ¬ condition) : bailIf condition message = value () := if_neg h

theorem bailIfReturns (condition : Prop) [Decidable condition] (message : String) :
    bailIf condition message ≠ aborted := by
  unfold bailIf
  split <;> simp

def index (items : List α) (i : Nat) : Outcome α :=
  match items[i]? with
  | some item => value item
  | none => aborted

theorem indexInside {items : List α} {i : Nat} (inside : i < items.length) :
    index items i = value items[i] := by
  simp [index, inside]

def slice (items : List α) (first last : Nat) : Outcome (List α) :=
  if first ≤ last ∧ last ≤ items.length then value ((items.drop first).take (last - first))
  else aborted

theorem sliceInside {items : List α} {first last : Nat} (order : first ≤ last)
    (inside : last ≤ items.length) :
    slice items first last = value ((items.drop first).take (last - first)) :=
  if_pos ⟨order, inside⟩

/- The conversion of a slice into an array of `size` items, unwrapped: it panics on any
other length. -/
def exactly (size : Nat) (items : List α) : Outcome (List α) :=
  if items.length = size then value items else aborted

def mulBelow (limit a b : Nat) : Outcome Nat :=
  if a * b < limit then value (a * b) else aborted

theorem mulBelowFits {limit a b : Nat} (fits : a * b < limit) :
    mulBelow limit a b = value (a * b) := if_pos fits

def addBelow (limit a b : Nat) : Outcome Nat :=
  if a + b < limit then value (a + b) else aborted

theorem addBelowFits {limit a b : Nat} (fits : a + b < limit) :
    addBelow limit a b = value (a + b) := if_pos fits

end Outcome
