import Mathlib.Tactic.ByContra

/-! Mutual exclusion by a lock, over any kind of holder. -/
namespace Mutex
variable {η : Type} {locked : Bool} {holds holds' : η → Prop}

structure Exclusive (locked : Bool) (holds : η → Prop) : Prop where
  taken : locked = true ↔ ∃ h, holds h
  one : ∀ a b, holds a → holds b → a = b

theorem keeps (exclusive : Exclusive locked holds) (same : ∀ h, holds' h ↔ holds h) :
    Exclusive locked holds' where
  taken := by simp only [exclusive.taken, same]
  one a b left right := exclusive.one a b ((same a).mp left) ((same b).mp right)

theorem free (exclusive : Exclusive false holds) (h : η) : ¬ holds h :=
  fun inside => absurd (exclusive.taken.mpr ⟨h, inside⟩) (by simp)

theorem acquires (h : η) (exclusive : Exclusive false holds) (mine : holds' h)
    (others : ∀ a, a ≠ h → holds' a → holds a) : Exclusive true holds' := by
  have only (a : η) (inside : holds' a) : a = h := by
    by_contra other
    exact free exclusive a (others a other inside)
  exact ⟨⟨fun _ => ⟨h, mine⟩, fun _ => rfl⟩,
    fun a b left right => (only a left).trans (only b right).symm⟩

theorem releases (h : η) (exclusive : Exclusive locked holds) (mine : holds h) (left : ¬ holds' h)
    (others : ∀ a, a ≠ h → holds' a → holds a) : Exclusive false holds' := by
  have nobody (a : η) : ¬ holds' a := by
    intro inside
    by_cases same : a = h
    · exact left (same ▸ inside)
    · exact same (exclusive.one a h (others a same inside) mine)
  exact ⟨⟨fun taken => by contradiction, fun ⟨a, inside⟩ => absurd inside (nobody a)⟩,
    fun a b inside _ => absurd inside (nobody a)⟩

end Mutex
