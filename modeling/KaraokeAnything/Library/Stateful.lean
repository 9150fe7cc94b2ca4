/-! Computations over a mutable state that may raise. A raise keeps the state it
was reached with, as an exception of an object's method does. -/

abbrev Stateful (σ ε α : Type) := ExceptT ε (StateM σ) α

namespace Stateful
variable {σ ε α β : Type}

def exec (m : Stateful σ ε α) (s : σ) : Except ε α × σ := (ExceptT.run m).run s

@[simp] theorem execPure (a : α) (s : σ) : exec (pure a : Stateful σ ε α) s = (.ok a, s) := rfl

@[simp] theorem execThrow (e : ε) (s : σ) :
    exec (throw e : Stateful σ ε α) s = (.error e, s) := rfl

@[simp] theorem execGet (s : σ) : exec (get : Stateful σ ε σ) s = (.ok s, s) := rfl

@[simp] theorem execModify (f : σ → σ) (s : σ) :
    exec (modify f : Stateful σ ε Unit) s = (.ok (), f s) := rfl

@[simp] theorem execOfExcept (r : Except ε α) (s : σ) :
    exec (ofExcept r : Stateful σ ε α) s = (r, s) := by
  cases r <;> rfl

theorem execBind (m : Stateful σ ε α) (next : α → Stateful σ ε β) (s : σ) :
    exec (m >>= next) s =
      match exec m s with
      | (.ok a, t) => exec (next a) t
      | (.error e, t) => (.error e, t) := by
  change ExceptT.bindCont next (m s).1 (m s).2 = match m s with
    | (.ok a, t) => next a t
    | (.error e, t) => (.error e, t)
  rcases m s with ⟨result, t⟩
  cases result <;> rfl

theorem execBindOk {m : Stateful σ ε α} {next : α → Stateful σ ε β} {s t : σ} {a : α}
    (head : exec m s = (.ok a, t)) : exec (m >>= next) s = exec (next a) t := by
  rw [execBind, head]

theorem execBindError {m : Stateful σ ε α} {next : α → Stateful σ ε β} {s t : σ} {e : ε}
    (head : exec m s = (.error e, t)) : exec (m >>= next) s = (.error e, t) := by
  rw [execBind, head]

def Indifferent (R : σ → σ → Prop) (m : Stateful σ ε α) : Prop :=
  ∀ s t, R s t → (exec m s).1 = (exec m t).1 ∧ R (exec m s).2 (exec m t).2

section Indifferent
variable {R : σ → σ → Prop}

theorem indifferentPure (a : α) : Indifferent R (pure a : Stateful σ ε α) :=
  fun _ _ related => ⟨rfl, related⟩

theorem indifferentThrow (e : ε) : Indifferent R (throw e : Stateful σ ε α) :=
  fun _ _ related => ⟨rfl, related⟩

theorem indifferentOfExcept (r : Except ε α) : Indifferent R (ofExcept r : Stateful σ ε α) := by
  intro s t related
  rw [execOfExcept, execOfExcept]
  exact ⟨rfl, related⟩

theorem indifferentModify {f : σ → σ} (kept : ∀ s t, R s t → R (f s) (f t)) :
    Indifferent R (modify f : Stateful σ ε Unit) :=
  fun s t related => ⟨rfl, kept s t related⟩

theorem indifferentBind {m : Stateful σ ε α} {next : α → Stateful σ ε β}
    (head : Indifferent R m) (tail : ∀ a, Indifferent R (next a)) : Indifferent R (m >>= next) := by
  intro s t related
  obtain ⟨same, after⟩ := head s t related
  rcases first : exec m s with ⟨result, u⟩
  rcases second : exec m t with ⟨other, v⟩
  rw [first, second] at same after
  cases same
  cases result with
  | ok a =>
    rw [execBindOk first, execBindOk second]
    exact tail a u v after
  | error e =>
    rw [execBindError first, execBindError second]
    exact ⟨rfl, after⟩

theorem indifferentGet {next : σ → Stateful σ ε β} (reads : ∀ s t, R s t → next s = next t)
    (tail : ∀ s, Indifferent R (next s)) : Indifferent R (get >>= next) := by
  intro s t related
  rw [execBindOk (execGet s), execBindOk (execGet t), reads s t related]
  exact tail t s t related

end Indifferent

end Stateful
