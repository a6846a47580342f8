/-
  ImxrtUsbd.Lib.Bytes

  A byte memory as a total function from addresses, with block loads and
  stores of byte lists.  The lemmas say what a block store changes
  (`store_apply`), that a load reads back a store, and that a load does not
  see a store to a disjoint range.
-/
import Mathlib

namespace Lib

abbrev Byte := BitVec 8

/-- Memory contents by byte address. -/
abbrev Mem := Nat → Byte

namespace Mem

/-- The `n` bytes from address `a` on. -/
def load (m : Mem) (a n : Nat) : List Byte := (List.range n).map fun i => m (a + i)

/-- Store a list of bytes from address `a` on. -/
def store (m : Mem) (a : Nat) : List Byte → Mem
  | [] => m
  | b :: bs => store (Function.update m a b) (a + 1) bs

@[simp] theorem length_load (m : Mem) (a n : Nat) : (m.load a n).length = n := by
  simp [load]

@[simp] theorem load_zero (m : Mem) (a : Nat) : m.load a 0 = [] := rfl

theorem load_succ (m : Mem) (a n : Nat) : m.load a (n + 1) = m a :: m.load (a + 1) n := by
  simp only [load, List.range_succ_eq_map, List.map_cons, List.map_map, Nat.add_zero,
    List.cons.injEq, true_and]
  apply List.map_congr_left
  intro i _
  simp only [Function.comp, Nat.succ_eq_add_one]
  congr 1
  omega

/-- A prefix of a load is a shorter load. -/
theorem take_load (m : Mem) (a : Nat) {k n : Nat} (h : k ≤ n) :
    (m.load a n).take k = m.load a k := by
  simp [load, ← List.map_take, List.take_range, Nat.min_eq_left h]

/-- What a block store leaves at an address. -/
theorem store_apply (m : Mem) (a : Nat) (bs : List Byte) (x : Nat) :
    m.store a bs x = if a ≤ x then (bs[x - a]?).getD (m x) else m x := by
  induction bs generalizing m a with
  | nil => simp [store]
  | cons b bs ih =>
    rw [store, ih]
    -- the first byte lies at `a`, the others from `a + 1` on
    by_cases hx : x = a
    · subst hx
      have hlt : ¬ x + 1 ≤ x := by omega
      simp [hlt]
    · by_cases hlt : a + 1 ≤ x
      · have h1 : a ≤ x := by omega
        have h2 : x - a = (x - (a + 1)) + 1 := by omega
        simp [hlt, h1, h2, Function.update_of_ne hx]
      · have h1 : ¬ a ≤ x := by omega
        simp [hlt, h1, Function.update_of_ne hx]

/-- Addresses outside the stored block keep their byte. -/
theorem store_of_outside (m : Mem) {a x : Nat} {bs : List Byte}
    (h : x < a ∨ a + bs.length ≤ x) : m.store a bs x = m x := by
  rw [store_apply]
  split
  · rw [List.getElem?_eq_none (by omega), Option.getD_none]
  · rfl

/-- A load sees nothing of a store to a disjoint range. -/
theorem load_store_of_disjoint (m : Mem) {a c n : Nat} {bs : List Byte}
    (h : c + n ≤ a ∨ a + bs.length ≤ c) : (m.store a bs).load c n = m.load c n := by
  apply List.map_congr_left
  intro i hi
  rw [List.mem_range] at hi
  exact store_of_outside m (by omega)

/-- Loading a range whose front was stored. -/
theorem load_store_front (m : Mem) (a : Nat) {n : Nat} {bs : List Byte} (h : bs.length ≤ n) :
    (m.store a bs).load a n = bs ++ (m.load a n).drop bs.length := by
  apply List.ext_getElem
  · simp
    omega
  · intro i h1 _
    rw [length_load] at h1
    simp only [load, List.getElem_map, List.getElem_range, List.getElem_append, List.getElem_drop]
    rw [store_apply, if_pos (Nat.le_add_right a i), Nat.add_sub_cancel_left]
    -- a stored byte, or one behind the stored front
    by_cases hi : i < bs.length
    · simp [hi]
    · have h2 : bs.length + (i - bs.length) = i := by omega
      simp [hi, h2]

/-- When the bytes in memory are the front of a list. -/
theorem load_eq_take_iff (m : Mem) (a : Nat) {k : Nat} {bs : List Byte} (hk : k ≤ bs.length) :
    m.load a k = bs.take k ↔ ∀ i b, i < k → bs[i]? = some b → m (a + i) = b := by
  constructor
  · intro h i b hi hb
    have hget : (m.load a k)[i]? = (bs.take k)[i]? := by rw [h]
    rw [List.getElem?_take_of_lt hi, hb, List.getElem?_eq_getElem (by rw [length_load]; exact hi)]
      at hget
    simpa [load] using hget
  · intro h
    apply List.ext_getElem
    · simp [hk]
    · intro i h1 h2
      rw [length_load] at h1
      have hlt : i < bs.length := by omega
      simpa [load] using h i bs[i] h1 (List.getElem?_eq_getElem hlt)

end Mem

/-- The two halves of a 64-bit word make up the whole. -/
theorem append_halves (x : BitVec 64) :
    (x.extractLsb' 32 32 ++ x.extractLsb' 0 32 : BitVec 64) = x := by
  apply BitVec.eq_of_getLsbD_eq
  intro i hi
  rw [BitVec.getLsbD_append, BitVec.getLsbD_extractLsb', BitVec.getLsbD_extractLsb']
  by_cases h : i < 32
  · simp [h]
  · have h1 : i - 32 < 32 := by omega
    have h2 : 32 + (i - 32) = i := by omega
    simp [h, h1, h2]

end Lib
