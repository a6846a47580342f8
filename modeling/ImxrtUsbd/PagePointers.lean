/-
  ImxrtUsbd.PagePointers

  The page pointers `set_buffer` writes.  `setBuffer_exact` says for every
  address of static memory and every size the five pointers can span, that the
  controller, which goes through them page by page, finds the bytes of one
  piece of memory; and that an empty transfer leaves no pointer behind.
-/
import ImxrtUsbd.Replay

namespace ImxrtUsbd

open Lib

/-- The transfer of the descriptor is the `size` bytes from `ptr` up. -/
structure Td.Spans (t : Td) (ptr size : Nat) : Prop where
  total_eq : t.totalBytes = size
  last_eq : t.lastTransferSize.toNat = size
  addr_eq : ∀ i < size, t.dmaAddr i = ptr + i

/-- The tokens differ in `TOTAL_BYTES` at most. -/
def Td.SameFlags (t t' : Td) : Prop :=
  ∀ j < 32, ¬ TOKEN.TOTAL_BYTES.Has j → t'.token.getLsbD j = t.token.getLsbD j

namespace Td

variable (t : Td) (ptr : Nat) {size : Nat}

theorem totalBytes_withBuffer (h : size < 2 ^ 15) : (t.withBuffer ptr size).totalBytes = size := by
  show (TOKEN.TOTAL_BYTES.get (TOKEN.TOTAL_BYTES.set _ _)).toNat = size
  rw [Field.get_set_self _ _ _ (by decide), BitVec.toNat_ofNat]
  show size % 2 ^ 32 % 2 ^ 15 = size
  omega

theorem sameFlags_withBuffer (size : Nat) : t.SameFlags (t.withBuffer ptr size) := by
  intro j hj hnot
  show (TOKEN.TOTAL_BYTES.set _ t.token).getLsbD j = _
  rw [Field.getLsbD_set _ _ _ hj, if_neg hnot]

/-- The pointers reach over 16 KiB, wherever in its page the buffer starts. -/
theorem spans_withBuffer {ptr : Nat} (hptr : ptr < 0xE0000000) (hpos : 1 ≤ size)
    (hsize : size ≤ 16384) : (t.withBuffer ptr size).Spans ptr size where
  total_eq := t.totalBytes_withBuffer ptr (by omega)
  last_eq := by
    show (BitVec.ofNat 32 size).toNat = size
    rw [BitVec.toNat_ofNat]
    omega
  addr_eq := by
    intro i hi
    refine dmaAddr_eq hptr (fun j => ?_) (by omega)
    show (if size = 0 then 0 else pageWord ptr j.val) = pageWord ptr j.val
    rw [if_neg (by omega)]

end Td

/-- For every descriptor and whatever it held before: `set_buffer` of 1 to 16384
    bytes of static memory returns (none of its additions overflows), and the
    transfer is those bytes; `set_buffer` of no bytes clears all pointers. -/
theorem setBuffer_exact (t : TdRef) (ptr : Nat) (s : Sys) :
    (∀ size, ptr < 0xE0000000 → 1 ≤ size → size ≤ 16384 →
      ∃ d, run (t.setBuffer ptr size) s = ⟨.ok (), s.setTdAt t d, []⟩ ∧
        d.Spans ptr size ∧ (s.tdAt t).SameFlags d) ∧
    ∃ d, run (t.setBuffer ptr 0) s = ⟨.ok (), s.setTdAt t d, []⟩ ∧
      (∀ i, d.bufferPointers i = 0) ∧ d.totalBytes = 0 := by
  constructor
  · intro size hptr hpos hsize
    exact ⟨_, run_setBuffer t size s hptr, (s.tdAt t).spans_withBuffer hptr hpos hsize,
      (s.tdAt t).sameFlags_withBuffer ptr size⟩
  · refine ⟨_, run_setBuffer_zero t ptr s, fun i => ?_, ?_⟩
    · show (if 0 = 0 then 0 else pageWord ptr i.val) = 0
      rw [if_pos rfl]
    · exact (s.tdAt t).totalBytes_withBuffer ptr (by omega)

/-- A buffer that starts 4 bytes before a page boundary and ends in the fifth page. -/
theorem setBuffer_exact_pages :
    ∃ d, run ((TdRef.list 3).setBuffer 0x20200FFC 16384) device =
        ⟨.ok (), device.setTdAt (.list 3) d, []⟩ ∧ d.dmaAddr 4 = 0x20201000 ∧
      d.dmaAddr 16383 = 0x20204FFB := by
  obtain ⟨d, hrun, hspans, -⟩ := (setBuffer_exact (.list 3) 0x20200FFC device).1 16384 (by omega)
    (by omega) (by omega)
  exact ⟨d, hrun, hspans.addr_eq 4 (by omega), hspans.addr_eq 16383 (by omega)⟩

end ImxrtUsbd
