import Mathlib.Data.Option.Basic

/-! Records updated by partial records: what of an update a record has already, under a
test of sameness that need not hold of a value and itself. -/
namespace Overlay
variable {Key : Type} {Value : Key → Type}

abbrev Patch (Value : Key → Type) := (key : Key) → Option (Value key)

def overlay (record : (key : Key) → Value key) (patch : Patch Value) (key : Key) : Value key :=
  (patch key).getD (record key)

def news (same : (key : Key) → Value key → Value key → Bool) (patch : Patch Value)
    (record : (key : Key) → Value key) : Patch Value :=
  fun key => (patch key).filter (fun value => !same key value (record key))

section News
variable {same : (key : Key) → Value key → Value key → Bool} {patch : Patch Value}
  {record : (key : Key) → Value key} {key : Key} {value : Value key}

theorem newsSome : news same patch record key = some value ↔
    patch key = some value ∧ same key value (record key) = false := by
  rw [news, Option.filter_eq_some_iff, Bool.not_eq_true']

theorem newsNone : news same patch record key = none ↔
    ∀ value, patch key = some value → same key value (record key) = true := by
  cases offered : patch key <;> simp [news, offered, Option.filter]

theorem overlayKept (absent : patch key = none) : overlay record (news same patch record) key = record key := by
  rw [overlay, news, absent]
  rfl

/- What it brings is there afterwards, once it is the same as itself. -/
theorem overlaySet (offered : patch key = some value)
    (itself : news same patch record key = some value → same key value value = true) :
    same key value (overlay record (news same patch record) key) = true := by
  cases new : news same patch record key with
  | none =>
    rw [overlay, new]
    exact newsNone.mp new value offered
  | some brought =>
    cases Option.some.inj ((newsSome.mp new).1.symm.trans offered)
    rw [overlay, new]
    exact itself new

theorem newsAgain (itself : ∀ value, news same patch record key = some value →
    same key value value = true) :
    news same patch (overlay record (news same patch record)) key = none :=
  newsNone.mpr (fun value offered => overlaySet offered (itself value))

theorem newsItself (whole : patch key = some (record key)) :
    news same patch record key = none ↔ same key (record key) (record key) = true := by
  rw [newsNone, whole]
  exact ⟨fun all => all _ rfl, fun itself value found => by cases found; exact itself⟩

end News

end Overlay
