import Mathlib.Data.List.Forall2

/-! A chain of stages that hands items on: what comes out, in order, and each item
from a source of its own. A stage may drop items, and keep less of an item than it
got. Components that follow one another put out one group of items each. -/
namespace Relay
open List (Forall₂ SublistForall₂)

section Draws
variable {α β : Type} {R : α → β → Prop} {a c : List α} {b d : List β}

theorem drawsPrefix (b : List β) (right : SublistForall₂ R c d) : SublistForall₂ R c (b ++ d) := by
  induction b with
  | nil => exact right
  | cons y b ih => exact .cons_right ih

theorem drawsAppend (left : SublistForall₂ R a b) (right : SublistForall₂ R c d) :
    SublistForall₂ R (a ++ c) (b ++ d) := by
  induction left with
  | nil => exact drawsPrefix _ right
  | cons related _ ih => exact .cons related ih
  | cons_right _ ih => exact .cons_right ih

theorem drawsAll (related : Forall₂ R a b) : SublistForall₂ R a b :=
  List.sublistForall₂_iff.mpr ⟨b, related, List.Sublist.refl b⟩

theorem drawsFewer (fewer : c.Sublist a) (related : Forall₂ R a b) : SublistForall₂ R c b := by
  induction related generalizing c with
  | nil =>
    rw [List.sublist_nil.mp fewer]
    exact .nil
  | cons first _ ih =>
    cases fewer with
    | cons _ fewer => exact .cons_right (ih fewer)
    | cons_cons _ fewer => exact .cons first (ih fewer)

theorem drawsFirst (all : SublistForall₂ R (a ++ c) b) : SublistForall₂ R a b := by
  obtain ⟨sources, related, within⟩ := List.sublistForall₂_iff.mp all
  refine List.sublistForall₂_iff.mpr ⟨sources.take a.length, ?_,
    (List.take_sublist _ _).trans within⟩
  have first := List.forall₂_take a.length related
  rwa [List.take_left] at first

end Draws

section Succession
variable {α : Type} (owner : α → Nat)

def Grouped (owners : List Nat) (outputs : List α) : Prop :=
  ∃ groups, Forall₂ (fun i group => ∀ x ∈ group, owner x = i) owners groups ∧
    outputs = groups.flatten

variable {owner}

theorem groupedNew {owners : List Nat} {outputs : List α} (i : Nat)
    (grouped : Grouped owner owners outputs) : Grouped owner (owners ++ [i]) outputs := by
  obtain ⟨groups, owned, rfl⟩ := grouped
  refine ⟨groups ++ [[]], List.rel_append owned (.cons (by simp) .nil), ?_⟩
  rw [List.flatten_append, List.flatten_singleton, List.append_nil]

theorem groupedMore {owners : List Nat} {i : Nat} {outputs more : List α}
    (grouped : Grouped owner (owners ++ [i]) outputs) (mine : ∀ x ∈ more, owner x = i) :
    Grouped owner (owners ++ [i]) (outputs ++ more) := by
  obtain ⟨groups, owned, rfl⟩ := grouped
  have flipped := List.forall₂_reverse_iff.mpr owned
  rw [List.reverse_append, List.reverse_singleton, List.singleton_append] at flipped
  obtain ⟨group, rest, last, before, same⟩ := List.forall₂_cons_left_iff.mp flipped
  have split : groups = rest.reverse ++ [group] := by
    rw [← List.reverse_reverse groups, same, List.reverse_cons]
  refine ⟨rest.reverse ++ [group ++ more], List.rel_append ?_ (.cons ?_ .nil), ?_⟩
  · exact List.forall₂_reverse_iff.mp (by rwa [List.reverse_reverse])
  · intro x inside
    rcases List.mem_append.mp inside with old | new
    · exact last x old
    · exact mine x new
  · rw [split, List.flatten_append, List.flatten_append, List.flatten_singleton,
      List.flatten_singleton, List.append_assoc]

end Succession

end Relay
