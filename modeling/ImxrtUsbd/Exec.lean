/-
  ImxrtUsbd.Exec

  What the primitive accesses, the register macros and the methods of
  `Descriptor` do when run on the system: one lemma for each, so that the
  lemmas about endpoints and the driver never unfold them.
-/
import ImxrtUsbd.Controller

namespace ImxrtUsbd

open Lib

variable {α β : Type} {s : Sys}

/-! ## Program structure -/

@[simp] theorem run_pure (a : α) (s : Sys) : run (pure a) s = ⟨.ok a, s, []⟩ := (rfl)

@[simp] theorem run_ret (a : α) (s : Sys) : run (.ret a) s = ⟨.ok a, s, []⟩ := (rfl)

@[simp] theorem run_fail (f : Fault) (s : Sys) :
    run (.fail f : UsbM α) s = ⟨.fail f, s, []⟩ := (rfl)

@[simp] theorem run_bind (p : UsbM α) (f : α → UsbM β) (s : Sys) :
    run (p >>= f) s = (run p s).andThen fun a s' => run (f a) s' :=
  exec_bind usb 1 p f s

theorem run_require {c : Prop} [Decidable c] (f : Fault) (h : c) :
    run (.require f c) s = ⟨.ok (), s, []⟩ :=
  exec_require usb 1 f s h

@[simp] theorem run_unwrap_some (a : α) (s : Sys) :
    run (unwrap (some a)) s = ⟨.ok a, s, []⟩ := (rfl)

@[simp] theorem run_unwrap_none (s : Sys) :
    run (unwrap (none : Option α)) s = ⟨.fail .panic, s, []⟩ := (rfl)

@[simp] theorem run_getOr_some (f : Fault) (a : α) (s : Sys) :
    run (.getOr f (some a)) s = ⟨.ok a, s, []⟩ := (rfl)

theorem run_repeatUntil_some {body : UsbM (Option β)} {s' : Sys} {b : β} {o : List Obs}
    (h : run body s = ⟨.ok (some b), s', o⟩) :
    run (.repeatUntil body) s = ⟨.ok b, s', o⟩ :=
  exec_repeatUntil_some usb 0 body h

/-! ## Accesses -/

@[simp] theorem run_readReg (r : Reg) (s : Sys) :
    run (readReg r) s = ⟨.ok (s.reg r), s, []⟩ := (rfl)

/-- Register writes other than a prime are not observed. -/
theorem run_writeReg (r : Reg) (v : Word) (s : Sys) (h : r ≠ .ENDPTPRIME) :
    run (writeReg r v) s = ⟨.ok (), s.writeReg r v, []⟩ := by
  rw [run, writeReg, exec_access]
  simp [usb, usbAct, h]

theorem run_writePrime (v : Word) (s : Sys) :
    run (writeReg .ENDPTPRIME v) s =
      ⟨.ok (), s.writeReg .ENDPTPRIME v, [.prime v (s.reg .ENDPTSTAT)]⟩ := (rfl)

@[simp] theorem run_loadTd (t : TdRef) (w : TdWord) (s : Sys) :
    run (loadTd t w) s = ⟨.ok ((s.tdAt t).get w), s, []⟩ := (rfl)

@[simp] theorem run_storeTd (t : TdRef) (w : TdWord) (v : Word) (s : Sys) :
    run (storeTd t w v) s = ⟨.ok (), s.setTdAt t ((s.tdAt t).put w v), []⟩ := (rfl)

@[simp] theorem run_loadCapabilities (i : Nat) (s : Sys) :
    run (loadCapabilities i) s = ⟨.ok (s.qh i).capabilities, s, []⟩ := (rfl)

@[simp] theorem run_storeCapabilities (i : Nat) (v : Word) (s : Sys) :
    run (storeCapabilities i v) s = ⟨.ok (),
      { s with qh := Function.update s.qh i { s.qh i with capabilities := v } }, []⟩ := (rfl)

theorem run_loadSetup (i : Nat) (high : Bool) (s : Sys) :
    run (loadSetup i high) s =
      ⟨.ok ((s.qh i).setup.extractLsb' (if high then 32 else 0) 32), s,
        [.setup high ((s.qh i).setup.extractLsb' (if high then 32 else 0) 32)]⟩ := (rfl)

@[simp] theorem run_loadByte (a : Nat) (s : Sys) :
    run (loadByte a) s = ⟨.ok (s.mem a), s, []⟩ := (rfl)

@[simp] theorem run_storeByte (a : Nat) (b : Byte) (s : Sys) :
    run (storeByte a b) s = ⟨.ok (), { s with mem := Function.update s.mem a b }, []⟩ := (rfl)

@[simp] theorem run_dccimvac (a : Word) (s : Sys) :
    run (dccimvac a) s = ⟨.ok (), s, []⟩ := (rfl)

@[simp] theorem run_addrOfSelf (s : Sys) :
    run addrOfSelf s = ⟨.ok s.stack, s, []⟩ := (rfl)

@[simp] theorem run_getDriver (s : Sys) :
    run getDriver s = ⟨.ok s.driver, s, []⟩ := (rfl)

@[simp] theorem run_setDriver (d : Driver) (s : Sys) :
    run (setDriver d) s = ⟨.ok (), { s with driver := d }, []⟩ := (rfl)

/-! ## Register macros and checked arithmetic -/

@[simp] theorem run_readField (r : Reg) (f : Field) (s : Sys) :
    run (readField r f) s = ⟨.ok (f.get (s.reg r)), s, []⟩ := (rfl)

theorem run_modifyReg (r : Reg) (fs : List (Field × Word)) (s : Sys) (h : r ≠ .ENDPTPRIME) :
    run (modifyReg r fs) s = ⟨.ok (), s.writeReg r (setFields fs (s.reg r)), []⟩ := by
  simp [modifyReg, run_writeReg _ _ _ h]

theorem run_writeBack (r : Reg) (s : Sys) (h : r ≠ .ENDPTPRIME) :
    run (writeBack r) s = ⟨.ok (), s.writeReg r (s.reg r), []⟩ := by
  simp [writeBack, run_writeReg _ _ _ h]

/-- A register that reads as 0 is not waited for. -/
theorem run_waitZero (r : Reg) (s : Sys) (h : s.reg r = 0) :
    run (waitZero r) s = ⟨.ok (), s, []⟩ := by
  apply run_repeatUntil_some
  simp [h]

theorem run_bit32 {i : Nat} (h : i < 32) (s : Sys) :
    run (bit32 i) s = ⟨.ok (1#32 <<< i), s, []⟩ := by
  simp [bit32, run_require _ h]

theorem run_bit16 {i : Nat} (h : i < 16) (s : Sys) :
    run (bit16 i) s = ⟨.ok (1#16 <<< i), s, []⟩ := by
  simp [bit16, run_require _ h]

theorem run_addU32 {a b : Word} (h : a.toNat + b.toNat < 2 ^ 32) (s : Sys) :
    run (addU32 a b) s = ⟨.ok (a + b), s, []⟩ := by
  simp only [addU32, run_bind, run_require _ h, Out.andThen_ok, run_pure]

theorem run_addUsize {a b : Nat} (h : a + b < 2 ^ 32) (s : Sys) :
    run (addUsize a b) s = ⟨.ok (a + b), s, []⟩ := by
  simp only [addUsize, run_bind, run_require _ h, Out.andThen_ok, run_pure]

theorem run_subUsize {a b : Nat} (h : b ≤ a) (s : Sys) :
    run (subUsize a b) s = ⟨.ok (a - b), s, []⟩ := by
  simp only [subUsize, run_bind, run_require _ h, Out.andThen_ok, run_pure]

theorem run_sliceTo {buffer : List Byte} {size : Nat} (h : size ≤ buffer.length) (s : Sys) :
    run (sliceTo buffer size) s = ⟨.ok (buffer.take size), s, []⟩ := by
  simp only [sliceTo, run_bind, run_require _ h, Out.andThen_ok, run_pure]

/-! ## Cache maintenance -/

theorem run_cleanInvalidateLines (n : Nat) :
    ∀ (addr : Nat) (s : Sys), addr + 32 * n < 2 ^ 32 →
      run (cleanInvalidateLines n addr) s = ⟨.ok (), s, []⟩ := by
  induction n with
  | zero => intro addr s _; rfl
  | succ n ih =>
    intro addr s h
    rw [cleanInvalidateLines, run_bind, run_dccimvac, Out.andThen_ok, run_bind,
      run_addUsize (by omega), Out.andThen_ok]
    exact ih _ _ (by omega)

/-- Cache maintenance below the top of the address space does nothing here. -/
theorem run_cleanInvalidate {addr size : Nat} (h : addr + size + 64 < 2 ^ 32) (s : Sys) :
    run (cleanInvalidateDcacheByAddress addr size) s = ⟨.ok (), s, []⟩ := by
  unfold cleanInvalidateDcacheByAddress
  split
  · rfl
  · -- the lines start at or below `addr`, and there are at most `size / 32 + 1`
    have hle : addr &&& 0xFFFFFFE0 ≤ addr := Nat.and_le_left
    apply run_cleanInvalidateLines
    omega

/-! ## Endpoint memory -/

@[simp] theorem run_loadBytes (n : Nat) : ∀ (a : Nat) (s : Sys),
    run (loadBytes a n) s = ⟨.ok (s.mem.load a n), s, []⟩ := by
  induction n with
  | zero => intro a s; rfl
  | succ n ih => intro a s; simp [loadBytes, ih, Mem.load_succ]

@[simp] theorem run_storeBytes (bs : List Byte) : ∀ (a : Nat) (s : Sys),
    run (storeBytes a bs) s = ⟨.ok (), { s with mem := s.mem.store a bs }, []⟩ := by
  induction bs with
  | nil => intro a s; rfl
  | cons b bs ih => intro a s; simp [storeBytes, ih, Mem.store]

theorem run_volatileRead (b : Buffer) (buffer : List Byte) (s : Sys) :
    run (b.volatileRead buffer) s =
      ⟨.ok (min buffer.length b.len,
        s.mem.load b.ptr (min buffer.length b.len) ++ buffer.drop (min buffer.length b.len)),
        s, []⟩ := by
  simp [Buffer.volatileRead]

theorem run_volatileWrite (b : Buffer) (buffer : List Byte) (s : Sys) :
    run (b.volatileWrite buffer) s =
      ⟨.ok (min buffer.length b.len),
        { s with mem := s.mem.store b.ptr (buffer.take (min buffer.length b.len)) }, []⟩ := by
  simp [Buffer.volatileWrite]

/-! ## Descriptors -/

namespace Sys

@[simp] theorem tdAt_setTdAt_self (s : Sys) (t : TdRef) (d : Td) :
    (s.setTdAt t d).tdAt t = d := by
  cases t <;> simp [setTdAt, tdAt]

@[simp] theorem setTdAt_setTdAt (s : Sys) (t : TdRef) (d d' : Td) :
    (s.setTdAt t d).setTdAt t d' = s.setTdAt t d' := by
  cases t <;> simp [setTdAt]

@[simp] theorem stack_setTdAt (s : Sys) (t : TdRef) (d : Td) :
    (s.setTdAt t d).stack = s.stack := by
  cases t <;> rfl

@[simp] theorem driver_setTdAt (s : Sys) (t : TdRef) (d : Td) :
    (s.setTdAt t d).driver = s.driver := by
  cases t <;> rfl

@[simp] theorem reg_setTdAt (s : Sys) (t : TdRef) (d : Td) : (s.setTdAt t d).reg = s.reg := by
  cases t <;> rfl

@[simp] theorem setTdAt_list (s : Sys) (i : Nat) (d : Td) :
    s.setTdAt (.list i) d = { s with td := Function.update s.td i d } := rfl

@[simp] theorem setTdAt_overlay (s : Sys) (i : Nat) (d : Td) :
    s.setTdAt (.overlay i) d =
      { s with qh := Function.update s.qh i { s.qh i with overlay := d } } := rfl

@[simp] theorem tdAt_list (s : Sys) (i : Nat) : s.tdAt (.list i) = s.td i := rfl

@[simp] theorem tdAt_overlay (s : Sys) (i : Nat) : s.tdAt (.overlay i) = (s.qh i).overlay := rfl

end Sys

@[simp] theorem run_modifyTd (t : TdRef) (w : TdWord) (f : Field) (v : Word) (s : Sys) :
    run (modifyTd t w f v) s =
      ⟨.ok (), s.setTdAt t ((s.tdAt t).put w (f.set v ((s.tdAt t).get w))), []⟩ := (rfl)

/-- The page pointers of a transfer from `ptr`: `ptr` itself, then the pages
    that follow its page. -/
def pageWord (ptr : Nat) : Nat → Word
  | 0 => BitVec.ofNat 32 ptr
  | k + 1 => (pageWord ptr k &&& TdRef.PTR_MASK) + TdRef.PTR_ALIGNMENT

/-- Masking rounds down to the page. -/
theorem toNat_and_ptrMask (x : Word) :
    (x &&& TdRef.PTR_MASK).toNat = x.toNat / 4096 * 4096 := by
  -- the mask has its ones from bit 12 up
  have h : x &&& TdRef.PTR_MASK = (x >>> 12) <<< 12 := by
    apply BitVec.eq_of_getLsbD_eq
    intro i hi
    have hm : TdRef.PTR_MASK.getLsbD i = decide (12 ≤ i) := by
      revert i
      decide
    rw [BitVec.getLsbD_and, hm, BitVec.getLsbD_shiftLeft, BitVec.getLsbD_ushiftRight]
    by_cases h12 : i < 12
    · have : ¬ 12 ≤ i := by omega
      simp [h12, this]
    · have h1 : 12 ≤ i := by omega
      have h2 : 12 + (i - 12) = i := by omega
      simp [h12, h1, h2, hi]
  have hx := x.isLt
  rw [h, BitVec.toNat_shiftLeft, BitVec.toNat_ushiftRight, Nat.shiftRight_eq_div_pow,
    Nat.shiftLeft_eq]
  exact Nat.mod_eq_of_lt (by omega)

/-- Below the system region no page pointer wraps. -/
theorem toNat_pageWord_succ {ptr : Nat} (h : ptr < 0xE0000000) {k : Nat} (hk : k < 5) :
    (pageWord ptr (k + 1)).toNat = (ptr / 4096 + (k + 1)) * 4096 := by
  induction k with
  | zero =>
    have h0 : (BitVec.ofNat 32 ptr).toNat = ptr := by
      rw [BitVec.toNat_ofNat]; omega
    rw [pageWord, BitVec.toNat_add, toNat_and_ptrMask, pageWord, h0]
    show (ptr / 4096 * 4096 + 4096) % 2 ^ 32 = _
    omega
  | succ k ih =>
    have ih' := ih (by omega)
    -- the pointer before is page aligned, so masking leaves it as it is
    rw [pageWord, BitVec.toNat_add, toNat_and_ptrMask, ih']
    show ((ptr / 4096 + (k + 1)) * 4096 / 4096 * 4096 + 4096) % 2 ^ 32 = _
    omega

theorem pageWord_no_overflow {ptr : Nat} (h : ptr < 0xE0000000) {k : Nat} (hk : k < 5) :
    (pageWord ptr k &&& TdRef.PTR_MASK).toNat + TdRef.PTR_ALIGNMENT.toNat < 2 ^ 32 := by
  rw [toNat_and_ptrMask]
  show (pageWord ptr k).toNat / 4096 * 4096 + 4096 < 2 ^ 32
  cases k with
  | zero =>
    have h0 : (pageWord ptr 0).toNat = ptr := by
      rw [pageWord, BitVec.toNat_ofNat]; omega
    omega
  | succ k =>
    rw [toNat_pageWord_succ h (by omega)]
    omega

/-- The descriptor after `set_buffer`. -/
def Td.withBuffer (t : Td) (ptr size : Nat) : Td :=
  { t with
    token := TOKEN.TOTAL_BYTES.set (BitVec.ofNat 32 size) t.token
    lastTransferSize := BitVec.ofNat 32 size
    bufferPointers := fun i => if size = 0 then 0 else pageWord ptr i.val }

theorem run_setNextPointer {t : TdRef} {ptr : Nat} {idx : Fin 5} {k : Nat} (s : Sys)
    (hptr : ptr < 0xE0000000) (hk : k < 5)
    (h : (s.tdAt t).bufferPointers (idx - 1) = pageWord ptr k) :
    run (t.setNextPointer idx) s =
      ⟨.ok (), s.setTdAt t ((s.tdAt t).put (.BUFFER_POINTERS idx) (pageWord ptr (k + 1))), []⟩ := by
  have hov := pageWord_no_overflow hptr hk
  simp only [TdRef.setNextPointer, run_bind, run_loadTd, Td.get, h, Out.andThen_ok,
    run_addU32 hov, run_storeTd, pageWord]

/-- Writing all five pointers one after the other. -/
theorem update_pointers (f : Fin 5 → Word) (g : Nat → Word) :
    Function.update (Function.update (Function.update (Function.update (Function.update f
      0 (g 0)) 1 (g 1)) 2 (g 2)) 3 (g 3)) 4 (g 4) = fun i => g i.val := by
  funext i
  fin_cases i <;> rfl

/-- An empty transfer has no pages, wherever it is. -/
theorem run_setBuffer_zero (t : TdRef) (ptr : Nat) (s : Sys) :
    run (t.setBuffer ptr 0) s = ⟨.ok (), s.setTdAt t ((s.tdAt t).withBuffer ptr 0), []⟩ := by
  simp only [TdRef.setBuffer, Prog.each, run_bind, run_modifyTd, run_storeTd, Out.andThen_ok,
    run_ret, ne_eq, not_true_eq_false, if_false, Sys.tdAt_setTdAt_self, Sys.setTdAt_setTdAt]
  congr 3
  simp only [Td.put, Td.withBuffer, Td.get, if_true, Td.mk.injEq, true_and, and_true]
  exact update_pointers _ fun _ => 0

theorem run_setBuffer (t : TdRef) {ptr : Nat} (size : Nat) (s : Sys) (hptr : ptr < 0xE0000000) :
    run (t.setBuffer ptr size) s = ⟨.ok (), s.setTdAt t ((s.tdAt t).withBuffer ptr size), []⟩ := by
  by_cases h0 : size = 0
  · subst h0
    exact run_setBuffer_zero t ptr s
  · rw [TdRef.setBuffer]
    simp only [run_bind, run_modifyTd, run_storeTd, Out.andThen_ok, ne_eq, h0, not_false_eq_true,
      if_true, Prog.each, Sys.tdAt_setTdAt_self, Sys.setTdAt_setTdAt]
    -- the four passes of the pointer loop
    rw [run_setNextPointer (k := 0) _ hptr (by omega) (by simp [Td.put, pageWord]), Out.andThen_ok,
      run_setNextPointer (k := 1) _ hptr (by omega) (by simp [Td.put]), Out.andThen_ok,
      run_setNextPointer (k := 2) _ hptr (by omega) (by simp [Td.put]), Out.andThen_ok,
      run_setNextPointer (k := 3) _ hptr (by omega) (by simp [Td.put]), Out.andThen_ok, run_ret]
    simp only [Sys.tdAt_setTdAt_self, Sys.setTdAt_setTdAt]
    congr 3
    simp only [Td.put, Td.withBuffer, Td.get, h0, if_false, Td.mk.injEq, true_and, and_true]
    exact update_pointers _ (pageWord ptr)

end ImxrtUsbd
