import Mathlib.Data.List.Basic
import Mathlib.Tactic.Ring

/-! Fixed-width unsigned words in both byte orders, and the cutting of a byte
string into blocks of one size. Nothing here knows a message format. -/
namespace ByteOrder

abbrev Bytes := List UInt8

def readLE : Bytes → Nat
  | [] => 0
  | b :: rest => b.toNat + 256 * readLE rest

def le : (width value : Nat) → Bytes
  | 0, _ => []
  | width + 1, value => UInt8.ofNat value :: le width (value / 256)

def readBE (raw : Bytes) : Nat := readLE raw.reverse
def be (width value : Nat) : Bytes := (le width value).reverse

@[simp] theorem leLength (width value : Nat) : (le width value).length = width := by
  induction width generalizing value with
  | zero => rfl
  | succ width ih => simp [le, ih]

@[simp] theorem beLength (width value : Nat) : (be width value).length = width := by
  simp [be]

@[simp] theorem beDropped {width count : Nat} (whole : width ≤ count) (value : Nat) :
    (be width value).drop count = [] := List.drop_of_length_le (by simpa using whole)

theorem readLeBound (raw : Bytes) : readLE raw < 256 ^ raw.length := by
  induction raw with
  | nil => simp [readLE]
  | cons b rest ih =>
    have byte := b.toNat_lt
    have scale : 256 ^ (b :: rest).length = 256 * 256 ^ rest.length := by
      rw [List.length_cons, pow_succ]; ring
    rw [scale, readLE]
    omega

theorem readBeBound (raw : Bytes) : readBE raw < 256 ^ raw.length := by
  simpa [readBE] using readLeBound raw.reverse

theorem readLeEncoded (width value : Nat) (bound : value < 256 ^ width) :
    readLE (le width value) = value := by
  induction width generalizing value with
  | zero => simp [le, readLE] at *; omega
  | succ width ih =>
    have high : value / 256 < 256 ^ width := by
      rw [pow_succ] at bound
      omega
    have low : (UInt8.ofNat value).toNat = value % 256 := by simp
    rw [le, readLE, ih _ high, low]
    omega

theorem readBeEncoded (width value : Nat) (bound : value < 256 ^ width) :
    readBE (be width value) = value := by
  simpa [readBE, be] using readLeEncoded width value bound

theorem leDecoded (raw : Bytes) : le raw.length (readLE raw) = raw := by
  induction raw with
  | nil => rfl
  | cons b rest ih =>
    have byte := b.toNat_lt
    have low : UInt8.ofNat (b.toNat + 256 * readLE rest) = b := by
      apply UInt8.toNat_inj.mp
      simp only [UInt8.toNat_ofNat']
      omega
    have high : (b.toNat + 256 * readLE rest) / 256 = readLE rest := by omega
    rw [List.length_cons, readLE, le, low, high, ih]

theorem beDecoded (raw : Bytes) : be raw.length (readBE raw) = raw := by
  have h := leDecoded raw.reverse
  rw [List.length_reverse] at h
  rw [be, readBE, h, List.reverse_reverse]

def chunksExact {α : Type} (size : Nat) (items : List α) : List (List α) :=
  (List.range (items.length / size)).map (fun i => (items.drop (i * size)).take size)

@[simp] theorem chunksExactLength {α : Type} (size : Nat) (items : List α) :
    (chunksExact size items).length = items.length / size := by
  simp [chunksExact]

theorem chunksExactCons {α : Type} {size : Nat} (positive : 0 < size) (head rest : List α)
    (block : head.length = size) :
    chunksExact size (head ++ rest) = head :: chunksExact size rest := by
  have count : (head ++ rest).length / size = rest.length / size + 1 := by
    rw [List.length_append, block, Nat.add_comm, Nat.add_div_right _ positive]
  have later (i : Nat) : (head ++ rest).drop ((i + 1) * size) = rest.drop (i * size) := by
    have split : (i + 1) * size = head.length + i * size := by rw [block]; ring
    rw [split, List.drop_append, List.drop_eq_nil_of_le (Nat.le_add_right _ _),
      Nat.add_sub_cancel_left, List.nil_append]
  simp only [chunksExact, count, List.range_succ_eq_map, List.map_cons, List.map_map,
    Function.comp_def, Nat.succ_eq_add_one, later]
  simp [← block]

theorem chunksExactFlatten {α : Type} {size : Nat} (positive : 0 < size) (blocks : List (List α))
    (sizes : ∀ block ∈ blocks, block.length = size) :
    chunksExact size blocks.flatten = blocks := by
  induction blocks with
  | nil => simp [chunksExact]
  | cons block rest ih =>
    have head := sizes block List.mem_cons_self
    have tail := ih (fun b hb => sizes b (List.mem_cons_of_mem _ hb))
    rw [List.flatten_cons, chunksExactCons positive _ _ head, tail]

theorem chunksExactSize {α : Type} {size : Nat} (positive : 0 < size) (items : List α) :
    ∀ block ∈ chunksExact size items, block.length = size := by
  intro block member
  obtain ⟨i, inside, rfl⟩ := List.mem_map.mp member
  have below : (i + 1) * size ≤ items.length := by
    have h : i + 1 ≤ items.length / size := List.mem_range.mp inside
    exact (Nat.mul_le_mul_right size h).trans (Nat.div_mul_le_self _ _)
  rw [Nat.add_mul, Nat.one_mul] at below
  rw [List.length_take, List.length_drop]
  omega

theorem chunksExactJoin {α : Type} {size : Nat} (positive : 0 < size) (items : List α)
    (whole : size ∣ items.length) : (chunksExact size items).flatten = items := by
  obtain ⟨count, total⟩ := whole
  induction count generalizing items with
  | zero =>
    have empty : items = [] := by simpa using total
    subst empty
    simp [chunksExact]
  | succ count ih =>
    have enough : size ≤ items.length := by rw [total, Nat.mul_succ]; omega
    have head : (items.take size).length = size := by simp [enough]
    have rest : (items.drop size).length = size * count := by
      rw [List.length_drop, total, Nat.mul_succ]; omega
    have cut := chunksExactCons positive (items.take size) (items.drop size) head
    rw [List.take_append_drop] at cut
    rw [cut, List.flatten_cons, ih _ rest, List.take_append_drop]

end ByteOrder
