import Mathlib.Data.List.Nodup
import Mathlib.Data.Set.Function

/-! Dictionaries that keep their keys in the order in which they were first set. -/
namespace Dictionaries
variable {K L V : Type}

structure Dict (K V : Type) where
  items : List (K × V)
  distinct : (items.map Prod.fst).Nodup

def Dict.keys (self : Dict K V) : List K := self.items.map Prod.fst

section Set
variable [DecidableEq K] {key : K} {items : List (K × V)}

def setItem (key : K) (value : V) : List (K × V) → List (K × V)
  | [] => [(key, value)]
  | (k, v) :: rest => if k = key then (k, value) :: rest else (k, v) :: setItem key value rest

theorem setOld (value : V) (present : key ∈ items.map Prod.fst) :
    (setItem key value items).map Prod.fst = items.map Prod.fst := by
  induction items with
  | nil => contradiction
  | cons item rest ih =>
    rw [List.map_cons, List.mem_cons] at present
    rw [setItem]
    split
    · rfl
    · rename_i other
      have later := present.resolve_left (Ne.symm other)
      rw [List.map_cons, ih later, List.map_cons]

theorem setNew (value : V) (absent : key ∉ items.map Prod.fst) :
    setItem key value items = items ++ [(key, value)] := by
  induction items with
  | nil => rfl
  | cons item rest ih =>
    rw [List.map_cons, List.mem_cons, not_or] at absent
    rw [setItem, if_neg (Ne.symm absent.1), ih absent.2, List.cons_append]

theorem setDistinct (key : K) (value : V) (distinct : (items.map Prod.fst).Nodup) :
    ((setItem key value items).map Prod.fst).Nodup := by
  by_cases present : key ∈ items.map Prod.fst
  · rw [setOld value present]
    exact distinct
  · rw [setNew value present, List.map_append]
    exact distinct.append (List.nodup_singleton key) (by simpa using present)

end Set

section Find
variable [DecidableEq K]

def Dict.find (self : Dict K V) (key : K) : Option V := self.items.lookup key

def Dict.contains (self : Dict K V) (key : K) : Bool := (self.find key).isSome

end Find

section Construct
variable [DecidableEq K]

def Dict.set (self : Dict K V) (key : K) (value : V) : Dict K V where
  items := setItem key value self.items
  distinct := setDistinct key value self.distinct

def Dict.ofItems (items : List (K × V)) : Dict K V :=
  items.foldl (fun self item => self.set item.1 item.2) ⟨[], List.nodup_nil⟩

theorem foldDistinct {self : Dict K V} {items : List (K × V)}
    (distinct : ((self.items ++ items).map Prod.fst).Nodup) :
    (items.foldl (fun self item => self.set item.1 item.2) self).items = self.items ++ items := by
  induction items generalizing self with
  | nil => simp
  | cons item rest ih =>
    have fresh : item.1 ∉ self.items.map Prod.fst := by
      rw [List.map_append, List.map_cons] at distinct
      exact (List.nodup_middle.mp distinct).notMem ∘ fun inside => List.mem_append_left _ inside
    have set : (self.set item.1 item.2).items = self.items ++ [item] := setNew item.2 fresh
    rw [List.foldl_cons, ih, set, List.append_assoc, List.singleton_append]
    rw [set, List.append_assoc, List.singleton_append]
    exact distinct

theorem ofDistinct {items : List (K × V)} (distinct : (items.map Prod.fst).Nodup) :
    (Dict.ofItems items).items = items := foldDistinct distinct

end Construct

section Rename

theorem ofRenamed [DecidableEq L] (self : Dict K V) {rename : K → L}
    (injective : Set.InjOn rename {key | key ∈ self.keys}) :
    (Dict.ofItems (self.items.map (Prod.map rename id))).items =
      self.items.map (Prod.map rename id) := by
  refine ofDistinct ?_
  have keys : (self.items.map (Prod.map rename id)).map Prod.fst = self.keys.map rename := by
    rw [Dict.keys, List.map_map, List.map_map]
    rfl
  rw [keys]
  exact List.Nodup.map_on (fun a inside b within => injective inside within) self.distinct

end Rename

end Dictionaries
