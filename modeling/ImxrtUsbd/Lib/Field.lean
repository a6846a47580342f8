/-
  ImxrtUsbd.Lib.Field

  Bit fields of a machine word, as register access layers describe them: an
  offset and a width.  `get` reads a field, `put` is the word with the field
  set and every other bit 0, `set` is a read-modify-write of the field.

  Everything is characterised bit by bit (`getLsbD_*`), and the round trips
  follow.
-/
import Mathlib

namespace Lib

/-- A bit field: `width` bits from bit `offset` up. -/
structure Field where
  offset : Nat
  width : Nat
  deriving DecidableEq, Repr

namespace Field

variable {w : Nat}

/-- The bits of the field. -/
def mask (f : Field) (w : Nat) : BitVec w := BitVec.ofNat w (2 ^ f.width - 1) <<< f.offset

/-- Read the field. -/
def get (f : Field) (v : BitVec w) : BitVec w := (v &&& f.mask w) >>> f.offset

/-- The word with the field set to `x` and all other bits clear. -/
def put (f : Field) (x : BitVec w) : BitVec w := (x <<< f.offset) &&& f.mask w

/-- Read-modify-write of the field. -/
def set (f : Field) (x v : BitVec w) : BitVec w := (v &&& ~~~ f.mask w) ||| f.put x

/-- Bit `j` of a word belongs to the field. -/
def Has (f : Field) (j : Nat) : Prop := f.offset ≤ j ∧ j < f.offset + f.width

instance (f : Field) (j : Nat) : Decidable (f.Has j) := by unfold Has; infer_instance

/-- Two fields share no bit. -/
def Disjoint (f g : Field) : Prop :=
  f.offset + f.width ≤ g.offset ∨ g.offset + g.width ≤ f.offset

instance (f g : Field) : Decidable (f.Disjoint g) := by unfold Disjoint; infer_instance

/-! ## Bit by bit -/

theorem getLsbD_mask (f : Field) {j : Nat} (hj : j < w) :
    (f.mask w).getLsbD j = decide (f.Has j) := by
  unfold mask Has
  rw [BitVec.getLsbD_shiftLeft, BitVec.getLsbD_ofNat, Nat.testBit_two_pow_sub_one]
  -- the shift fills with zeros below the field; above them stand `width` ones
  by_cases h : j < f.offset
  · have h1 : ¬ (f.offset ≤ j ∧ j < f.offset + f.width) := by omega
    simp [h, h1]
  · have h1 : j - f.offset < w := by omega
    have h2 : f.offset ≤ j := by omega
    have h3 : (j - f.offset < f.width) ↔ j < f.offset + f.width := by omega
    simp [h, hj, h1, h2, h3]

theorem getLsbD_get (f : Field) (v : BitVec w) (j : Nat) :
    (f.get v).getLsbD j = (decide (j < f.width) && v.getLsbD (f.offset + j)) := by
  unfold get
  rw [BitVec.getLsbD_ushiftRight, BitVec.getLsbD_and]
  -- a field that reaches beyond the word reads 0 there
  by_cases hw : f.offset + j < w
  · rw [getLsbD_mask f hw, Bool.and_comm]
    congr 1
    simp [Has]
  · simp [BitVec.getLsbD_of_ge v (f.offset + j) (by omega)]

theorem getLsbD_put (f : Field) (x : BitVec w) {j : Nat} (hj : j < w) :
    (f.put x).getLsbD j = (decide (f.Has j) && x.getLsbD (j - f.offset)) := by
  unfold put
  rw [BitVec.getLsbD_and, getLsbD_mask f hj, BitVec.getLsbD_shiftLeft]
  by_cases h : f.Has j
  · have : ¬ j < f.offset := by have := h.1; omega
    simp [h, hj, this]
  · simp [h]

theorem getLsbD_set (f : Field) (x v : BitVec w) {j : Nat} (hj : j < w) :
    (f.set x v).getLsbD j = if f.Has j then x.getLsbD (j - f.offset) else v.getLsbD j := by
  unfold set
  rw [BitVec.getLsbD_or, BitVec.getLsbD_and, BitVec.getLsbD_not, getLsbD_mask f hj,
    getLsbD_put f x hj]
  by_cases h : f.Has j <;> simp [h, hj]

/-! ## Round trips -/

/-- Reading a field after writing it gives the value back, cut to the width. -/
theorem get_set_self (f : Field) (x v : BitVec w) (h : f.offset + f.width ≤ w) :
    (f.get (f.set x v)).toNat = x.toNat % 2 ^ f.width := by
  apply Nat.eq_of_testBit_eq
  intro j
  rw [← BitVec.getLsbD, getLsbD_get, Nat.testBit_mod_two_pow]
  by_cases hj : j < f.width
  · have hHas : f.Has (f.offset + j) := ⟨by omega, by omega⟩
    rw [getLsbD_set f x v (by omega), if_pos hHas, Nat.add_sub_cancel_left, BitVec.getLsbD]
  · simp [hj]

/-- A value that fits is read back. -/
theorem get_set (f : Field) {x : BitVec w} (v : BitVec w) (h : f.offset + f.width ≤ w)
    (hx : x.toNat < 2 ^ f.width) : f.get (f.set x v) = x := by
  apply BitVec.eq_of_toNat_eq
  rw [get_set_self f x v h, Nat.mod_eq_of_lt hx]

/-- Writing one field leaves a disjoint one as it was. -/
theorem get_set_of_disjoint (f g : Field) (x v : BitVec w) (h : f.Disjoint g) :
    f.get (g.set x v) = f.get v := by
  apply BitVec.eq_of_getLsbD_eq
  intro j _
  rw [getLsbD_get, getLsbD_get]
  by_cases hj : j < f.width
  · by_cases hw : f.offset + j < w
    · have hHas : ¬ g.Has (f.offset + j) := by
        rintro ⟨h1, h2⟩
        rcases h with h | h <;> omega
      rw [getLsbD_set g x v hw, if_neg hHas]
    · simp [BitVec.getLsbD_of_ge _ _ (Nat.le_of_not_lt hw)]
  · simp [hj]

/-- Clearing bits outside the field leaves it as it was. -/
theorem get_and_not (f : Field) {m : BitVec w} (hm : ∀ j, f.Has j → m.getLsbD j = false)
    (v : BitVec w) : f.get (v &&& ~~~ m) = f.get v := by
  apply BitVec.eq_of_getLsbD_eq
  intro j _
  rw [getLsbD_get, getLsbD_get]
  by_cases hj : j < f.width
  · have hclear := hm (f.offset + j) ⟨by omega, by omega⟩
    by_cases hw : f.offset + j < w
    · rw [BitVec.getLsbD_and, BitVec.getLsbD_not, hclear, decide_eq_true hw]
      simp
    · rw [BitVec.getLsbD_of_ge _ _ (Nat.le_of_not_lt hw),
        BitVec.getLsbD_of_ge _ _ (Nat.le_of_not_lt hw)]
  · rw [decide_eq_false hj, Bool.false_and, Bool.false_and]

theorem get_toNat_lt (f : Field) (v : BitVec w) : (f.get v).toNat < 2 ^ f.width := by
  apply Nat.lt_pow_two_of_testBit
  intro j hj
  rw [← BitVec.getLsbD, getLsbD_get]
  simp [Nat.not_lt.mpr hj]

@[simp] theorem get_zero (f : Field) : f.get 0#w = 0#w := by
  simp [get]

/-- The last write of a field counts. -/
theorem set_set (f : Field) (x y v : BitVec w) : f.set x (f.set y v) = f.set x v := by
  apply BitVec.eq_of_getLsbD_eq
  intro j hj
  rw [getLsbD_set f _ _ hj, getLsbD_set f _ _ hj, getLsbD_set f _ _ hj]
  by_cases h : f.Has j <;> simp [h]

/-- Fields that share no bit can be written in either order. -/
theorem set_comm (f g : Field) (h : f.Disjoint g) (x y v : BitVec w) :
    f.set x (g.set y v) = g.set y (f.set x v) := by
  apply BitVec.eq_of_getLsbD_eq
  intro j hj
  rw [getLsbD_set f _ _ hj, getLsbD_set g _ _ hj, getLsbD_set g _ _ hj, getLsbD_set f _ _ hj]
  by_cases hf : f.Has j
  · have hg : ¬ g.Has j := by
      unfold Has Disjoint at *
      omega
    rw [if_pos hf, if_neg hg, if_pos hf]
  · rw [if_neg hf, if_neg hf]

/-- A one-bit field is its bit. -/
theorem get_bit_eq_one (f : Field) (v : BitVec w) (hf : f.width = 1) (hw : 0 < w) :
    (f.get v == 1) = v.getLsbD f.offset := by
  have h0 : (f.get v).getLsbD 0 = v.getLsbD f.offset := by
    rw [getLsbD_get, hf]
    simp
  -- the value read is 0 or 1, so it is settled by its lowest bit
  have hlt : (f.get v).toNat < 2 := by
    have := f.get_toNat_lt v
    rwa [hf] at this
  have h1 : (1 : BitVec w).toNat = 1 := by
    show 1 % 2 ^ w = 1
    exact Nat.mod_eq_of_lt (Nat.one_lt_two_pow (by omega))
  rw [← h0, Bool.eq_iff_iff, beq_iff_eq, BitVec.getLsbD, Nat.testBit_zero, decide_eq_true_eq]
  constructor
  · intro h
    rw [h, h1]
  · intro h
    apply BitVec.eq_of_toNat_eq
    omega

/-! ## Single bits -/

theorem getLsbD_bit (i j : Nat) :
    (1#w <<< i).getLsbD j = (decide (j < w) && decide (j = i)) := by
  rw [BitVec.getLsbD_shiftLeft, BitVec.getLsbD_one]
  -- the one bit has moved to `i`, and only zeros come in below it
  by_cases hji : j = i
  · subst hji
    by_cases hj : j < w <;> simp [hj]
    omega
  · by_cases hlt : j < i
    · simp [hlt, hji]
    · have : j - i ≠ 0 := by omega
      simp [this, hji]

/-- Testing a word against a shifted bit. -/
theorem and_bit_ne_zero (v : BitVec w) {i : Nat} (hi : i < w) :
    ((v &&& (1#w <<< i)) != 0) = v.getLsbD i := by
  -- of the word only bit `i` is left
  have hbit : ∀ j, j < w → (v &&& (1#w <<< i)).getLsbD j = (decide (j = i) && v.getLsbD i) := by
    intro j hj
    rw [BitVec.getLsbD_and, getLsbD_bit]
    by_cases hji : j = i
    · subst hji
      simp [hj]
    · simp [hji]
  cases hv : v.getLsbD i with
  | false =>
    have hz : v &&& (1#w <<< i) = 0 := by
      apply BitVec.eq_of_getLsbD_eq
      intro j hj
      simp [hbit j hj, hv]
    simp [hz]
  | true =>
    have hne : v &&& (1#w <<< i) ≠ 0 := by
      intro hz
      have := hbit i hi
      rw [hz] at this
      simp [hv] at this
    simpa using hne

/-- A word contains a single-bit flag when it has the bit. -/
theorem and_bit_eq_bit (v : BitVec w) {i : Nat} (hi : i < w) :
    ((v &&& (1#w <<< i)) == (1#w <<< i)) = v.getLsbD i := by
  rw [← and_bit_ne_zero v hi, Bool.eq_iff_iff, beq_iff_eq, bne_iff_ne]
  constructor
  · intro h hz
    have hb : (1#w <<< i).getLsbD i = true := by
      rw [getLsbD_bit]
      simp [hi]
    rw [← h, hz] at hb
    simp at hb
  · intro h
    have hv : v.getLsbD i = true := by
      rw [← and_bit_ne_zero v hi]
      simpa using h
    apply BitVec.eq_of_getLsbD_eq
    intro j hj
    rw [BitVec.getLsbD_and, getLsbD_bit]
    by_cases hji : j = i
    · subst hji
      simp [hv]
    · simp [hji]

/-- Testing a read field against a shifted bit tests one bit of the word. -/
theorem get_and_bit_ne_zero (f : Field) (v : BitVec w) {i : Nat} (hi : i < f.width)
    (hw : f.offset + f.width ≤ w) :
    ((f.get v &&& (1#w <<< i)) != 0) = v.getLsbD (f.offset + i) := by
  rw [and_bit_ne_zero _ (by omega), getLsbD_get]
  simp [hi]

end Field

end Lib
