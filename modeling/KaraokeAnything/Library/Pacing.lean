import Mathlib.Data.Finset.Card
import Mathlib.Order.Interval.Finset.Nat

/-! Items that are worked on in batches of `k`, and handed back one by one: which items
a batch has, at which calls they are back, and how often a call gets nothing. -/
namespace Pacing

section Batches
variable {α : Type} (k : Nat)

def batch (items : List α) (j : Nat) : List α := (items.drop (j * k)).take k

def batches (items : List α) : List (List α) := (List.range (items.length / k)).map (batch k items)

variable {k} {items : List α} {item : α}

theorem batchLength {j : Nat} (whole : j < items.length / k) : (batch k items j).length = k := by
  have inside : (j + 1) * k ≤ items.length :=
    (Nat.mul_le_mul_right k whole).trans (Nat.div_mul_le_self _ _)
  rw [Nat.succ_mul] at inside
  rw [batch, List.length_take, List.length_drop]
  omega

theorem batchAppend {j : Nat} (whole : j < items.length / k) :
    batch k (items ++ [item]) j = batch k items j := by
  have inside : (j + 1) * k ≤ items.length :=
    (Nat.mul_le_mul_right k whole).trans (Nat.div_mul_le_self _ _)
  rw [Nat.succ_mul] at inside
  rw [batch, batch, List.drop_append_of_le_length (by omega),
    List.take_append_of_le_length (by rw [List.length_drop]; omega)]

theorem batchesKept : (List.range (items.length / k)).map (batch k (items ++ [item])) =
    batches k items :=
  List.map_congr_left (fun _ inside => batchAppend (List.mem_range.mp inside))

theorem batchesSnoc : batches k (items ++ [item]) = batches k items ++
    if k ∣ items.length + 1 then [batch k (items ++ [item]) (items.length / k)] else [] := by
  rw [batches, List.length_append, List.length_singleton, Nat.succ_div]
  split
  · rw [List.range_succ, List.map_append, batchesKept]
    rfl
  · rw [Nat.add_zero, batchesKept, List.append_nil]

theorem batchesFlatten : (batches k items).flatten = items.take (items.length / k * k) := by
  rw [batches]
  generalize items.length / k = count
  induction count with
  | zero => rw [Nat.zero_mul, List.take_zero]; rfl
  | succ count ih =>
    rw [List.range_succ, List.map_append, List.flatten_append, ih, Nat.add_mul, Nat.one_mul,
      List.take_add]
    simp [batch]

def pending (k : Nat) (items : List α) : List α := items.drop (items.length / k * k)

theorem pendingSnoc : pending k (items ++ [item]) =
    if k ∣ items.length + 1 then [] else pending k items ++ [item] := by
  rw [pending, List.length_append, List.length_singleton, Nat.succ_div]
  split
  · rename_i whole
    have same : (items.length / k + 1) * k = items.length + 1 := by
      rw [← Nat.succ_div_of_dvd whole, Nat.div_mul_cancel whole]
    rw [same]
    exact List.drop_eq_nil_of_le (by simp)
  · rw [Nat.add_zero, List.drop_append_of_le_length (Nat.div_mul_le_self _ _)]
    rfl

theorem pendingLast (positive : 0 < k) (whole : k ∣ items.length + 1) :
    batch k (items ++ [item]) (items.length / k) = pending k items ++ [item] := by
  have same : items.length / k * k + k = items.length + 1 := by
    rw [← Nat.succ_mul, Nat.succ_eq_add_one, ← Nat.succ_div_of_dvd whole, Nat.div_mul_cancel whole]
  rw [batch, List.drop_append_of_le_length (Nat.div_mul_le_self _ _), pending]
  refine List.take_of_length_le ?_
  rw [List.length_append, List.length_drop, List.length_singleton]
  omega

theorem pendingLength : (pending k items).length = items.length % k := by
  have split := Nat.div_add_mod' items.length k
  rw [pending, List.length_drop]
  omega

theorem pendingWhole (whole : k ∣ items.length + 1) : (pending k items).length + 1 = k := by
  have same : (items.length / k + 1) * k = items.length + 1 := by
    rw [← Nat.succ_div_of_dvd whole, Nat.div_mul_cancel whole]
  have split := Nat.div_add_mod' items.length k
  rw [Nat.add_mul, Nat.one_mul] at same
  rw [pendingLength]
  omega

theorem pendingShort (positive : 0 < k) (ragged : ¬ k ∣ items.length + 1) :
    (pending k items).length + 1 < k := by
  have less := Nat.mod_lt items.length positive
  have split := Nat.div_add_mod' items.length k
  rw [pendingLength]
  by_contra full
  refine ragged ⟨items.length / k + 1, ?_⟩
  rw [Nat.mul_comm, Nat.add_mul, Nat.one_mul]
  omega

end Batches

/- The log of a line after `calls` calls, for batches of `k` items that are worked on
for less than `delay` further calls. -/
structure Steady (k delay calls : Nat) (log : List Nat) : Prop where
  increasing : log.Pairwise (· < ·)
  window : ∀ i call, log[i]? = some call → i + 1 + k ≤ call ∧ call ≤ i + k + delay
  past : ∀ call ∈ log, call ≤ calls
  least : calls + 1 ≤ log.length + k + delay

variable {k delay calls : Nat} {log : List Nat}

theorem steadyNil (some : 1 ≤ delay) : Steady k delay 0 [] :=
  ⟨.nil, nofun, nofun, by simp only [List.length_nil]; omega⟩

theorem steadyEmit (steady : Steady k delay calls log) (due : log.length + k ≤ calls) :
    Steady k delay (calls + 1) (log ++ [calls + 1]) where
  increasing := by
    refine List.pairwise_append.mpr ⟨steady.increasing, List.pairwise_singleton _ _, ?_⟩
    intro call inside last same
    cases List.mem_singleton.mp same
    exact Nat.lt_succ_of_le (steady.past call inside)
  window i call known := by
    have least := steady.least
    rcases Nat.lt_trichotomy i log.length with before | rfl | after
    · rw [List.getElem?_append_left before] at known
      exact steady.window i call known
    · rw [List.getElem?_concat_length] at known
      cases Option.some.inj known
      omega
    · rw [List.getElem?_eq_none (by rw [List.length_append]; exact after)] at known
      contradiction
  past call inside := by
    rcases List.mem_append.mp inside with before | last
    · exact (steady.past call before).trans (Nat.le_succ _)
    · exact Nat.le_of_eq (List.mem_singleton.mp last)
  least := by
    have least := steady.least
    rw [List.length_append, List.length_singleton]
    omega

theorem steadyWait (steady : Steady k delay calls log)
    (late : calls + 2 ≤ log.length + k + delay) : Steady k delay (calls + 1) log :=
  ⟨steady.increasing, steady.window,
    fun call inside => (steady.past call inside).trans (Nat.le_succ _), late⟩

theorem steadyMost (steady : Steady k delay calls log) (some : log ≠ []) :
    log.length + k ≤ calls := by
  have length := List.length_pos_iff.mpr some
  have last : log[log.length - 1]? = Option.some (log.getLast some) := by
    rw [List.getLast_eq_getElem, List.getElem?_eq_getElem]
  have window := steady.window _ _ last
  have past := steady.past _ (List.getLast_mem some)
  omega

theorem steadyCall (steady : Steady k delay calls log) {ready : Nat} (finished : Nat)
    (count : log.length + ready = finished * k) (past : finished * k ≤ calls)
    (late : calls + 2 ≤ finished * k + k + delay) :
    Steady k delay (calls + 1) (log ++ List.replicate (min 1 ready) (calls + 1)) := by
  cases ready with
  | zero => simpa using steadyWait steady (by omega)
  | succ ready =>
    have due : log.length + k ≤ calls := by
      by_cases some : log = []
      · rcases Nat.eq_zero_or_pos finished with rfl | positive
        · rw [Nat.zero_mul] at count
          omega
        · have one := Nat.le_mul_of_pos_left k positive
          rw [some, List.length_nil]
          omega
      · exact steadyMost steady some
    simpa using steadyEmit steady due

theorem steadyDue (steady : Steady k delay calls log) {i : Nat} (passed : i + k + delay ≤ calls) :
    i < log.length := by
  have least := steady.least
  omega

theorem steadyGaps (steady : Steady k delay calls log) {first : Nat} (head : log.head? = some first) :
    {call ∈ Finset.Ioc first calls | call ∉ log}.card ≤ delay - 1 := by
  obtain ⟨rest, rfl⟩ := List.head?_eq_some_iff.mp head
  have increasing := List.pairwise_cons.mp steady.increasing
  have distinct : rest.Nodup := increasing.2.imp Nat.ne_of_lt
  have window := steady.window 0 first rfl
  have least := steady.least
  have emitted : rest.toFinset ⊆ {call ∈ Finset.Ioc first calls | call ∈ first :: rest} := by
    intro call inside
    have member := List.mem_toFinset.mp inside
    have later := List.mem_cons_of_mem first member
    exact Finset.mem_filter.mpr
      ⟨Finset.mem_Ioc.mpr ⟨increasing.1 call member, steady.past call later⟩, later⟩
  have count := Finset.card_le_card emitted
  have total := Finset.card_filter_add_card_filter_not (s := Finset.Ioc first calls) (· ∈ first :: rest)
  rw [List.toFinset_card_of_nodup distinct] at count
  rw [Nat.card_Ioc] at total
  rw [List.length_cons] at least
  omega

end Pacing
