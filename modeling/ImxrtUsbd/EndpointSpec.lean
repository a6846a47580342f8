/-
  ImxrtUsbd.EndpointSpec

  What the methods of `Endpoint` do to the system, for an endpoint that sits
  at its own place in the lists (`Endpoint.At`).  Every effect is a register
  update (`Sys.setReg`), a store to endpoint memory, or `Sys.arm`, and the
  simp lemmas say what each of these leaves of the parts the invariants speak
  about.
-/
import ImxrtUsbd.Exec

namespace ImxrtUsbd

open Lib

/-! ## Endpoint numbers -/

namespace EpId

theorem forall_iff {p : EpId → Prop} :
    (∀ e, p e) ↔ ∀ n : Fin 8, p ⟨.Out, n⟩ ∧ p ⟨.In, n⟩ := by
  constructor
  · exact fun h n => ⟨h _, h _⟩
  · rintro h ⟨d, n⟩
    cases d
    · exact (h n).1
    · exact (h n).2

theorem bit_lt (e : EpId) : e.bit < 32 := by
  have := e.num.isLt
  unfold bit inBit
  split <;> omega

theorem slot_lt (e : EpId) : e.slot < 16 := by
  have := e.num.isLt
  unfold slot inBit
  split <;> omega

theorem bit_inj {e f : EpId} : e.bit = f.bit ↔ e = f := by
  constructor
  · obtain ⟨d, n⟩ := e
    obtain ⟨d', n'⟩ := f
    have := n.isLt
    have := n'.isLt
    intro h
    have hn : n.val = n'.val ∧ d = d' := by
      cases d <;> cases d' <;> simp [bit, inBit] at h ⊢ <;> omega
    rw [Fin.ext hn.1, hn.2]
  · exact fun h => by rw [h]

theorem slot_inj {e f : EpId} : e.slot = f.slot ↔ e = f := by
  constructor
  · obtain ⟨d, n⟩ := e
    obtain ⟨d', n'⟩ := f
    intro h
    have hn : n.val = n'.val ∧ d = d' := by
      cases d <;> cases d' <;> simp [slot, inBit] at h ⊢ <;> omega
    rw [Fin.ext hn.1, hn.2]
  · exact fun h => by rw [h]

/-- Updating one endpoint's place in a list. -/
theorem update_slot {β : Type} (g : Nat → β) (e f : EpId) (b : β) :
    Function.update g f.slot b e.slot = if e = f then b else g e.slot := by
  by_cases he : e = f
  · subst he
    simp
  · have hs : e.slot ≠ f.slot := fun hs => he (slot_inj.mp hs)
    rw [Function.update_of_ne hs, if_neg he]

theorem getLsbD_mask (e : EpId) (j : Nat) : e.mask.getLsbD j = decide (j = e.bit) := by
  have hb := e.bit_lt
  rw [mask, Field.getLsbD_bit]
  by_cases h : j = e.bit
  · subst h
    simp [hb]
  · simp [h]

@[simp] theorem address_direction (e : EpId) : e.address.direction = e.dir := by
  revert e
  rw [forall_iff]
  decide

@[simp] theorem address_index (e : EpId) : e.address.index = e.num.val := by
  revert e
  rw [forall_iff]
  decide

@[simp] theorem index_address (e : EpId) : index e.address = e.slot := by
  rw [index, address_direction, address_index]
  rfl

/-- A prime, a completion bit or a NAK bit is written through the half of the
    endpoint's direction. -/
theorem rxHalf_put (n : Fin 8) : rxHalf.put (1#32 <<< n.val) = (⟨.Out, n⟩ : EpId).mask := by
  revert n
  decide

theorem txHalf_put (n : Fin 8) : txHalf.put (1#32 <<< n.val) = (⟨.In, n⟩ : EpId).mask := by
  revert n
  decide

/-- Every list index below 16 is an endpoint's, and so is every address there. -/
theorem exists_of_index_lt {addr : EndpointAddress} (h : index addr < 16) :
    ∃ e : EpId, e.address = addr := by
  -- bit 7 is the direction and bits 0..2 the number; bits 3..6 are clear
  have hlt : addr.index < 8 := by
    unfold index at h
    omega
  refine ⟨⟨addr.direction, ⟨addr.index, hlt⟩⟩, ?_⟩
  obtain ⟨raw⟩ := addr
  revert raw
  decide

theorem address_inj {e f : EpId} : e.address = f.address ↔ e = f := by
  constructor
  · intro h
    rw [← slot_inj, ← index_address, ← index_address, h]
  · exact fun h => by rw [h]

/-- The control register of the endpoint's number. -/
def ctrlReg (e : EpId) : Reg :=
  if h : e.num.val = 0 then .ENDPTCTRL0
  else .ENDPTCTRL ⟨e.num.val - 1, by have := e.num.isLt; omega⟩

theorem ctrlReg_cases (e : EpId) : e.ctrlReg = .ENDPTCTRL0 ∨ ∃ i, e.ctrlReg = .ENDPTCTRL i := by
  unfold ctrlReg
  split
  · exact Or.inl rfl
  · exact Or.inr ⟨_, rfl⟩

theorem ctrlReg_inj {e f : EpId} : e.ctrlReg = f.ctrlReg ↔ e.num = f.num := by
  constructor
  · intro h
    apply Fin.ext
    unfold ctrlReg at h
    split at h <;> split at h
    · omega
    · simp at h
    · simp at h
    · simp only [Reg.ENDPTCTRL.injEq, Fin.mk.injEq] at h
      omega
  · intro h
    unfold ctrlReg
    simp only [h]

end EpId

/-! ## What an update leaves as it was -/

namespace Sys

@[simp] theorem reg_setReg_self (s : Sys) (r : Reg) (v : Word) : (s.setReg r v).reg r = v := by
  simp [setReg]

theorem reg_setReg_of_ne (s : Sys) {r r' : Reg} (v : Word) (h : r' ≠ r) :
    (s.setReg r v).reg r' = s.reg r' := by
  simp [setReg, Function.update_of_ne h]

@[simp] theorem td_setReg (s : Sys) (r : Reg) (v : Word) : (s.setReg r v).td = s.td := rfl
@[simp] theorem qh_setReg (s : Sys) (r : Reg) (v : Word) : (s.setReg r v).qh = s.qh := rfl
@[simp] theorem mem_setReg (s : Sys) (r : Reg) (v : Word) : (s.setReg r v).mem = s.mem := rfl
@[simp] theorem stack_setReg (s : Sys) (r : Reg) (v : Word) :
    (s.setReg r v).stack = s.stack := rfl
@[simp] theorem driver_setReg (s : Sys) (r : Reg) (v : Word) :
    (s.setReg r v).driver = s.driver := rfl

@[simp] theorem td_lower (s : Sys) (r : Reg) (m : Word) : (s.lower r m).td = s.td := rfl
@[simp] theorem qh_lower (s : Sys) (r : Reg) (m : Word) : (s.lower r m).qh = s.qh := rfl
@[simp] theorem mem_lower (s : Sys) (r : Reg) (m : Word) : (s.lower r m).mem = s.mem := rfl
@[simp] theorem driver_lower (s : Sys) (r : Reg) (m : Word) :
    (s.lower r m).driver = s.driver := rfl

theorem reg_lower_of_ne (s : Sys) {r r' : Reg} (m : Word) (h : r' ≠ r) :
    (s.lower r m).reg r' = s.reg r' :=
  reg_setReg_of_ne s _ h

/-- Clearing the bits of a mask, for a bit that is in the mask exactly when `p`. -/
theorem getLsbD_lower (s : Sys) (r : Reg) (m : Word) {j : Nat} (p : Prop) [Decidable p]
    (hp : (s.reg r).getLsbD j = true → (m.getLsbD j = true ↔ p)) :
    ((s.lower r m).reg r).getLsbD j = ((s.reg r).getLsbD j && !decide p) := by
  rw [lower, reg_setReg_self, BitVec.getLsbD_and, BitVec.getLsbD_not]
  cases hb : (s.reg r).getLsbD j with
  | false => simp
  | true =>
    have hj : j < 32 := BitVec.lt_of_getLsbD hb
    have hm : m.getLsbD j = decide p := by
      rw [Bool.eq_iff_iff, decide_eq_true_iff]
      exact hp hb
    rw [hm, decide_eq_true hj]
    rfl

/-- What a completion, a NAK, a SETUP or a status bit written as one does. -/
theorem writeReg_w1c (s : Sys) {r : Reg} (v : Word)
    (h : r = .USBSTS ∨ r = .ENDPTNAK ∨ r = .ENDPTSETUPSTAT ∨ r = .ENDPTCOMPLETE) :
    s.writeReg r v = s.lower r v := by
  rcases h with rfl | rfl | rfl | rfl <;> rfl

theorem writeReg_ctrl (s : Sys) (e : EpId) (v : Word) :
    s.writeReg e.ctrlReg v = s.setReg e.ctrlReg (v &&& ~~~ toggleResetBits) := by
  rcases e.ctrlReg_cases with h | ⟨i, h⟩ <;> rw [h] <;> rfl

/-- A command that does not ask for a controller reset. -/
theorem writeReg_usbcmd (s : Sys) {v : Word} (h : v.getLsbD 1 = false) :
    s.writeReg .USBCMD v = s.setReg .USBCMD v := by
  have hb := Field.get_bit_eq_one USBCMD.RST v rfl (by decide)
  have hn : ¬ USBCMD.RST.get v = 1 := by
    intro h1
    rw [h1, show USBCMD.RST.offset = 1 from rfl, h] at hb
    simp at hb
  rw [writeReg, if_neg hn]

end Sys

/-! ## Endpoints in their place -/

/-- The endpoint is `e`, with the queue head and the descriptor at `e`'s place
    and a buffer in static memory. -/
structure Endpoint.At (ep : Endpoint) (e : EpId) : Prop where
  address : ep.address = e.address
  qh : ep.qh = e.slot
  td : ep.td = e.slot
  ptr_lt : ep.buffer.ptr + ep.buffer.len < 0xE0000000

/-- The stack lies in static memory. -/
def Sys.StackOk (s : Sys) : Prop := s.stack < 0xE0000000

namespace Sys

/-- The maximum packet length in the endpoint's queue head. -/
def maxPacketLen (s : Sys) (e : EpId) : Nat :=
  (CAPABILITIES.MAXIMUM_PACKET_LENGTH.get (s.qh e.slot).capabilities).toNat

/-- The endpoint's stall bit. -/
def stalled (s : Sys) (e : EpId) : Bool :=
  match e.dir with
  | .In => ENDPTCTRL.TXS.get (s.reg e.ctrlReg) == 1
  | .Out => ENDPTCTRL.RXS.get (s.reg e.ctrlReg) == 1

/-- The endpoint's enable bit; endpoint 0 is always enabled. -/
def enabled (s : Sys) (e : EpId) : Bool :=
  e.num.val == 0 || match e.dir with
    | .In => ENDPTCTRL.TXE.get (s.reg e.ctrlReg) == 1
    | .Out => ENDPTCTRL.RXE.get (s.reg e.ctrlReg) == 1

/-- Read-modify-write of the endpoint's control register, which reads its
    toggle reset bits as 0. -/
def modifyCtrl (s : Sys) (e : EpId) (fs : List (Field × Word)) : Sys :=
  s.setReg e.ctrlReg (setFields fs (s.reg e.ctrlReg) &&& ~~~ toggleResetBits)

def setStall (s : Sys) (e : EpId) (stall : Bool) : Sys :=
  s.modifyCtrl e
    [(match e.dir with | .In => ENDPTCTRL.TXS | .Out => ENDPTCTRL.RXS, if stall then 1 else 0)]

def enableEp (s : Sys) (e : EpId) (kind : EndpointType) : Sys :=
  s.modifyCtrl e (match e.dir with
    | .In => [(ENDPTCTRL.TXE, 1), (ENDPTCTRL.TXR, 1), (ENDPTCTRL.TXT, intoRawEndpointType kind)]
    | .Out => [(ENDPTCTRL.RXE, 1), (ENDPTCTRL.RXR, 1), (ENDPTCTRL.RXT, intoRawEndpointType kind)])

def disableEp (s : Sys) (e : EpId) : Sys :=
  s.modifyCtrl e (match e.dir with
    | .In => [(ENDPTCTRL.TXE, 0), (ENDPTCTRL.TXT, intoRawEndpointType .Bulk)]
    | .Out => [(ENDPTCTRL.RXE, 0), (ENDPTCTRL.RXT, intoRawEndpointType .Bulk)])

end Sys

/-- How many bytes the last transfer moved. -/
def Td.transferred (t : Td) : Nat := t.lastTransferSize.toNat - t.totalBytes

/-- The descriptor as `schedule_transfer` leaves it. -/
def Td.armed (t : Td) (ptr size : Nat) : Td :=
  { next := 1
    token := TOKEN.STATUS.set Status.ACTIVE (TOKEN.IOC.set 1
      (TOKEN.TOTAL_BYTES.set (BitVec.ofNat 32 size) t.token))
    bufferPointers := fun i => if size = 0 then 0 else pageWord ptr i.val
    lastTransferSize := BitVec.ofNat 32 size }

/-- The queue head as `schedule_transfer` leaves it. -/
def Qh.armed (q : Qh) (tdAddr : Nat) : Qh :=
  { q with overlay := { q.overlay with
      next := BitVec.ofNat 32 tdAddr
      token := TOKEN.STATUS.set 0 q.overlay.token } }

/-- The effect of `schedule_transfer`. -/
def Sys.arm (s : Sys) (e : EpId) (ptr size : Nat) : Sys :=
  { s with
    td := Function.update s.td e.slot ((s.td e.slot).armed ptr size)
    qh := Function.update s.qh e.slot
      ((s.qh e.slot).armed (s.driver.epAllocator.tdList + 32 * e.slot))
    reg := Function.update s.reg .ENDPTSTAT (s.reg .ENDPTSTAT ||| e.mask) }

/-- What the bus sees of it. -/
def Sys.armObs (s : Sys) (e : EpId) : List Obs := [.prime e.mask (s.reg .ENDPTSTAT)]

/-- How many bytes `read` takes into a slice of `n` bytes. -/
def Sys.readSize (s : Sys) (e : EpId) (n : Nat) : Nat :=
  min (min (s.maxPacketLen e) n) (s.td e.slot).transferred

/-- The state after `read_setup`: `ENDPTSETUPSTAT` cleared, the tripwire down. -/
def Sys.takeSetup (s : Sys) : Sys :=
  (s.lower .ENDPTSETUPSTAT 1).setReg .USBCMD (USBCMD.SUTW.set 0 (s.reg .USBCMD))

/-- The two halves of the setup buffer, as loaded. -/
def Sys.setupObs (s : Sys) : List Obs :=
  [.setup false ((s.qh 0).setup.extractLsb' 0 32), .setup true ((s.qh 0).setup.extractLsb' 32 32)]

section Methods

variable {ep : Endpoint} {e : EpId} {s : Sys}

/-- The control register lookup never fails for an endpoint of the controller. -/
theorem run_endpointControlRegister (e : EpId) (s : Sys) :
    run (endpointControlRegister e.num.val) s = ⟨.ok e.ctrlReg, s, []⟩ := by
  have hlt := e.num.isLt
  by_cases h : e.num.val = 0
  · simp [endpointControlRegister, EpId.ctrlReg, h]
  · have h7 : e.num.val - 1 < 7 := by omega
    simp [endpointControlRegister, EpId.ctrlReg, h, h7]

theorem run_modifyCtrl (e : EpId) (fs : List (Field × Word)) (s : Sys) :
    run (modifyReg e.ctrlReg fs) s = ⟨.ok (), s.modifyCtrl e fs, []⟩ := by
  have hne : e.ctrlReg ≠ .ENDPTPRIME := by
    rcases e.ctrlReg_cases with h | ⟨i, h⟩ <;> rw [h] <;> simp
  rw [run_modifyReg _ _ _ hne, Sys.writeReg_ctrl]
  rfl

theorem run_isPrimed (h : ep.At e) (s : Sys) :
    run ep.isPrimed s = ⟨.ok (s.primed e), s, []⟩ := by
  obtain ⟨d, n⟩ := e
  have hn := n.isLt
  have h32 : n.val < 32 := by omega
  rw [Endpoint.isPrimed, h.address, EpId.address_direction, EpId.address_index]
  cases d with
  | Out =>
    simp only [run_bind, run_readField, Out.andThen_ok, run_bit32 h32, run_pure]
    rw [Field.get_and_bit_ne_zero _ _ (by exact hn) (by decide)]
    simp [Sys.primed, EpId.bit, EpId.inBit, rxHalf]
  | In =>
    simp only [run_bind, run_readField, Out.andThen_ok, run_bit32 h32, run_pure]
    rw [Field.get_and_bit_ne_zero _ _ (by exact hn) (by decide)]
    simp [Sys.primed, EpId.bit, EpId.inBit, txHalf, Nat.add_comm]

theorem status_contains (x : Word) {k : Nat} (hk : k = 3 ∨ k = 5 ∨ k = 6) :
    Status.contains (Status.fromBitsTruncate (TOKEN.STATUS.get x)) (1#32 <<< k) =
      x.getLsbD k := by
  have h32 : k < 32 := by omega
  have h8 : k < TOKEN.STATUS.width := by
    show k < 8
    omega
  -- truncation keeps the three error bits
  have hm : (Status.ACTIVE ||| Status.HALTED ||| Status.DATA_BUFFER_ERROR |||
      Status.TRANSACTION_ERROR).getLsbD k = true := by
    rcases hk with rfl | rfl | rfl <;> decide
  have ho : TOKEN.STATUS.offset + k = k := by
    show 0 + k = k
    omega
  rw [Status.contains, Field.and_bit_eq_bit _ h32, Status.fromBitsTruncate, BitVec.getLsbD_and, hm,
    Field.getLsbD_get, ho]
  simp [h8]

theorem run_checkErrors (h : ep.At e) (s : Sys) :
    run ep.checkErrors s =
      ⟨.ok (if (s.td e.slot).errored then .error .InvalidState else .ok ()), s, []⟩ := by
  have h3 := status_contains (s.td e.slot).token (k := 3) (Or.inl rfl)
  have h5 := status_contains (s.td e.slot).token (k := 5) (Or.inr (Or.inl rfl))
  have h6 := status_contains (s.td e.slot).token (k := 6) (Or.inr (Or.inr rfl))
  rw [Endpoint.checkErrors, h.td, run_bind, TdRef.status, run_bind, run_loadTd, Out.andThen_ok,
    run_pure, Out.andThen_ok]
  have he : (Status.contains (Status.fromBitsTruncate (TOKEN.STATUS.get (s.td e.slot).token))
        Status.TRANSACTION_ERROR ||
      Status.contains (Status.fromBitsTruncate (TOKEN.STATUS.get (s.td e.slot).token))
        Status.DATA_BUFFER_ERROR ||
      Status.contains (Status.fromBitsTruncate (TOKEN.STATUS.get (s.td e.slot).token))
        Status.HALTED) = (s.td e.slot).errored := by
    rw [Td.errored, ← h3, ← h5, ← h6]
    rfl
  show run (if _ then _ else _) s = _
  rw [Sys.tdAt_list, Td.get, he]
  split <;> rfl

theorem run_hasSetup (h : ep.At .ep0Out) (s : Sys) :
    run ep.hasSetup s = ⟨.ok s.setupPending, s, []⟩ := by
  have h32 : EpId.ep0Out.num.val < 32 := by decide
  rw [Endpoint.hasSetup, h.address, EpId.address_index]
  simp only [run_bind, run_readReg, Out.andThen_ok, run_bit32 h32, run_pure]
  rw [Field.and_bit_ne_zero _ (by decide)]
  rfl

theorem run_maxPacketLen (h : ep.At e) (s : Sys) :
    run ep.maxPacketLen s = ⟨.ok (s.maxPacketLen e), s, []⟩ := by
  rw [Endpoint.maxPacketLen, Qh.maxPacketLen, h.qh]
  simp [Sys.maxPacketLen]

/-- Write the endpoint's bit to a register that clears what is written as one. -/
theorem run_clearBit {r : Reg} (h : ep.At e) (hr : r = .ENDPTNAK ∨ r = .ENDPTCOMPLETE)
    (s : Sys) :
    run (do
      let bit ← bit32 ep.address.index
      match ep.address.direction with
      | .In => writeField r txHalf bit
      | .Out => writeField r rxHalf bit) s = ⟨.ok (), s.lower r e.mask, []⟩ := by
  obtain ⟨d, n⟩ := e
  have h32 : n.val < 32 := by have := n.isLt; omega
  have hne : r ≠ .ENDPTPRIME := by rcases hr with rfl | rfl <;> simp
  have hw : r = .USBSTS ∨ r = .ENDPTNAK ∨ r = .ENDPTSETUPSTAT ∨ r = .ENDPTCOMPLETE := by
    rcases hr with rfl | rfl <;> simp
  rw [h.address, EpId.address_direction, EpId.address_index, run_bind, run_bit32 h32,
    Out.andThen_ok]
  cases d with
  | Out =>
    simp only [writeField]
    rw [EpId.rxHalf_put, run_writeReg _ _ _ hne, Sys.writeReg_w1c _ _ hw]
  | In =>
    simp only [writeField]
    rw [EpId.txHalf_put, run_writeReg _ _ _ hne, Sys.writeReg_w1c _ _ hw]

theorem run_clearComplete (h : ep.At e) (s : Sys) :
    run ep.clearComplete s = ⟨.ok (), s.lower .ENDPTCOMPLETE e.mask, []⟩ :=
  run_clearBit h (Or.inr rfl) s

theorem run_clearNack (h : ep.At e) (s : Sys) :
    run ep.clearNack s = ⟨.ok (), s.lower .ENDPTNAK e.mask, []⟩ :=
  run_clearBit h (Or.inl rfl) s

theorem run_setStalled (h : ep.At e) (stall : Bool) (s : Sys) :
    run (ep.setStalled stall) s = ⟨.ok (), s.setStall e stall, []⟩ := by
  obtain ⟨d, n⟩ := e
  rw [Endpoint.setStalled, h.address, EpId.address_direction, EpId.address_index, run_bind,
    run_endpointControlRegister, Out.andThen_ok]
  cases d <;> exact run_modifyCtrl _ _ s

theorem run_isStalled (h : ep.At e) (s : Sys) :
    run ep.isStalled s = ⟨.ok (s.stalled e), s, []⟩ := by
  obtain ⟨d, n⟩ := e
  rw [Endpoint.isStalled, h.address, EpId.address_direction, EpId.address_index, run_bind,
    run_endpointControlRegister, Out.andThen_ok]
  cases d <;> rfl

/-- Rewrite the control register of an endpoint other than 0, with fields of
    its direction. -/
theorem run_modifyNonzero (h : ep.At e) (fsIn fsOut : List (Field × Word)) (s : Sys) :
    run (do
      if ep.address.index ≠ 0 then
        let endptctrl ← endpointControlRegister ep.address.index
        match ep.address.direction with
        | .In => modifyReg endptctrl fsIn
        | .Out => modifyReg endptctrl fsOut) s =
      ⟨.ok (), if e.num.val = 0 then s
        else s.modifyCtrl e (match e.dir with | .In => fsIn | .Out => fsOut), []⟩ := by
  obtain ⟨d, n⟩ := e
  rw [h.address, EpId.address_direction, EpId.address_index]
  by_cases h0 : n.val = 0
  · simp [h0]
  · simp only [ne_eq, h0, not_false_eq_true, if_true, if_false]
    have hr := run_endpointControlRegister ⟨d, n⟩ s
    rw [run_bind, hr, Out.andThen_ok]
    cases d <;> exact run_modifyCtrl _ _ s

theorem run_enable (h : ep.At e) (s : Sys) :
    run ep.enable s = ⟨.ok (), if e.num.val = 0 then s else s.enableEp e ep.kind, []⟩ :=
  run_modifyNonzero h _ _ s

theorem run_initializeEp (h : ep.At e) (s : Sys) :
    run ep.initializeEp s = ⟨.ok (), if e.num.val = 0 then s else s.disableEp e, []⟩ :=
  run_modifyNonzero h _ _ s

theorem run_isEnabled (h : ep.At e) (s : Sys) :
    run ep.isEnabled s = ⟨.ok (s.enabled e), s, []⟩ := by
  obtain ⟨d, n⟩ := e
  rw [Endpoint.isEnabled, h.address, EpId.address_direction, EpId.address_index]
  by_cases h0 : n.val = 0
  · simp [h0, Sys.enabled]
  · simp only [h0, if_false]
    have hr := run_endpointControlRegister ⟨d, n⟩ s
    rw [run_bind, hr, Out.andThen_ok]
    cases d <;> simp [Sys.enabled, h0]

/-- Write the endpoint's bit to `ENDPTPRIME` and wait. -/
theorem run_primeEndpoint (h : ep.At e) (s : Sys) (hp : s.reg .ENDPTPRIME = 0) :
    run (do
      let bit ← bit32 ep.address.index
      match ep.address.direction with
      | .In => writeField .ENDPTPRIME ENDPTPRIME.PETB bit
      | .Out => writeField .ENDPTPRIME ENDPTPRIME.PERB bit
      waitZero .ENDPTPRIME) s =
      ⟨.ok (), s.setReg .ENDPTSTAT (s.reg .ENDPTSTAT ||| e.mask), s.armObs e⟩ := by
  obtain ⟨d, n⟩ := e
  have h32 : n.val < 32 := by have := n.isLt; omega
  have hw : (s.writeReg .ENDPTPRIME (⟨d, n⟩ : EpId).mask).reg .ENDPTPRIME = 0 := by
    rw [Sys.writeReg, Sys.reg_setReg_of_ne _ _ (by simp), hp]
  rw [h.address, EpId.address_direction, EpId.address_index, run_bind, run_bit32 h32,
    Out.andThen_ok]
  cases d with
  | Out =>
    simp only [run_bind, writeField]
    rw [EpId.rxHalf_put, run_writePrime, Out.andThen_ok_obs, run_waitZero _ _ hw]
    rfl
  | In =>
    simp only [run_bind, writeField]
    rw [EpId.txHalf_put, run_writePrime, Out.andThen_ok_obs, run_waitZero _ _ hw]
    rfl

theorem run_scheduleTransfer (h : ep.At e) (size : Nat) (hs : s.StackOk)
    (hp : s.reg .ENDPTPRIME = 0) :
    run (ep.scheduleTransfer size) s = ⟨.ok (), s.arm e ep.buffer.ptr size, s.armObs e⟩ := by
  have hptr : ep.buffer.ptr < 0xE0000000 := by
    have := h.ptr_lt
    omega
  -- both descriptors are flushed at the address of the reference, on the stack
  have hstack : s.stack < 0xE0000000 := hs
  have hc32 : ∀ s' : Sys, run (cleanInvalidateDcacheByAddress s.stack 32) s' = ⟨.ok (), s', []⟩ :=
    fun s' => run_cleanInvalidate (by omega) s'
  have hc64 : ∀ s' : Sys, run (cleanInvalidateDcacheByAddress s.stack 64) s' = ⟨.ok (), s', []⟩ :=
    fun s' => run_cleanInvalidate (by omega) s'
  simp only [Endpoint.scheduleTransfer, h.td, h.qh, TdRef.setTerminate,
    TdRef.setInterruptOnComplete, TdRef.setActive, TdRef.cleanInvalidateDcache,
    Qh.cleanInvalidateDcache, TdRef.setNext, TdRef.clearStatus, run_bind, run_storeTd,
    Out.andThen_ok, run_setBuffer _ _ _ hptr, run_modifyTd, run_addrOfSelf, run_getDriver,
    Sys.stack_setTdAt, Sys.driver_setTdAt, Sys.tdAt_setTdAt_self, Sys.setTdAt_setTdAt, hc32, hc64,
    if_true]
  -- what is left of the program is the prime
  rw [← run_bind]
  exact run_primeEndpoint h _ hp

/-- Reading a packet: as much of it as the caller's slice holds. -/
theorem run_read (h : ep.At e) (hlen : s.maxPacketLen e ≤ ep.buffer.len)
    (hle : (s.td e.slot).totalBytes ≤ (s.td e.slot).lastTransferSize.toNat) (buf : List Byte) :
    run (ep.read buf) s =
      ⟨.ok (s.readSize e buf.length,
        s.mem.load ep.buffer.ptr (s.readSize e buf.length) ++ buf.drop (s.readSize e buf.length)),
        s, []⟩ := by
  -- the checked subtraction: what is left is never more than what was armed
  have hbt : run (TdRef.list ep.td).bytesTransferred s =
      ⟨.ok (s.td e.slot).transferred, s, []⟩ := by
    simp only [TdRef.bytesTransferred, h.td, run_bind, run_loadTd, Out.andThen_ok]
    exact run_subUsize hle s
  have hmin : s.readSize e buf.length ≤ buf.length := by
    unfold Sys.readSize
    omega
  -- a packet fits into the endpoint's buffer, so `volatile_read` cuts nothing off
  have hsize : min (s.readSize e buf.length) ep.buffer.len = s.readSize e buf.length := by
    unfold Sys.readSize
    omega
  have hrs : min (min (CAPABILITIES.MAXIMUM_PACKET_LENGTH.get (s.qh e.slot).capabilities).toNat
      buf.length) (s.td e.slot).transferred = s.readSize e buf.length := rfl
  simp only [Endpoint.read, Qh.maxPacketLen, h.qh, run_bind, run_loadCapabilities, Out.andThen_ok,
    run_pure, hbt, hrs]
  rw [run_sliceTo hmin, Out.andThen_ok, run_volatileRead, Out.andThen_ok,
    List.length_take, Nat.min_eq_left hmin, hsize]
  simp

/-- Writing a packet: as much of the slice as a packet holds, to the front of
    the endpoint's buffer. -/
theorem run_write (h : ep.At e) (hlen : s.maxPacketLen e ≤ ep.buffer.len) (buf : List Byte) :
    run (ep.write buf) s =
      ⟨.ok (min (s.maxPacketLen e) buf.length),
        { s with mem := s.mem.store ep.buffer.ptr (buf.take (s.maxPacketLen e)) }, []⟩ := by
  have hptr := h.ptr_lt
  have hmin : min (s.maxPacketLen e) buf.length ≤ buf.length := Nat.min_le_right _ _
  have hsize : min (min (s.maxPacketLen e) buf.length) ep.buffer.len =
      min (s.maxPacketLen e) buf.length := by omega
  have hclean : ∀ s' : Sys, run (ep.buffer.cleanInvalidateDcache
      (min (s.maxPacketLen e) buf.length)) s' = ⟨.ok (), s', []⟩ :=
    fun s' => run_cleanInvalidate (by omega) s'
  simp only [Endpoint.write, Qh.maxPacketLen, h.qh, run_bind, run_loadCapabilities, Out.andThen_ok,
    run_pure]
  rw [show (CAPABILITIES.MAXIMUM_PACKET_LENGTH.get (s.qh e.slot).capabilities).toNat =
      s.maxPacketLen e from rfl, run_sliceTo hmin, Out.andThen_ok, run_volatileWrite,
    List.length_take, Nat.min_eq_left hmin, hsize, Out.andThen_ok, hclean, Out.andThen_ok,
    List.take_take, Nat.min_self, ← List.take_eq_take_min]

theorem run_readSetupBuffer (s : Sys) :
    run (Qh.readSetupBuffer 0) s = ⟨.ok (s.qh 0).setup, s, s.setupObs⟩ := by
  simp only [Qh.readSetupBuffer, run_bind, run_loadSetup, Out.andThen_ok_obs, run_pure]
  simp [Sys.setupObs, append_halves]

/-- Writing the tripwire does not ask for a controller reset. -/
theorem run_modifySutw (x : Word) (h : (s.reg .USBCMD).getLsbD 1 = false) :
    run (modifyReg .USBCMD [(USBCMD.SUTW, x)]) s =
      ⟨.ok (), s.setReg .USBCMD (USBCMD.SUTW.set x (s.reg .USBCMD)), []⟩ := by
  have hbit : (USBCMD.SUTW.set x (s.reg .USBCMD)).getLsbD 1 = false := by
    rw [Field.getLsbD_set _ _ _ (by decide), if_neg (by decide), h]
  rw [run_modifyReg _ _ _ (by simp)]
  exact congrArg (Out.mk _ · _) (Sys.writeReg_usbcmd s hbit)

/-- The setup tripwire holds on the first pass when nothing arrives meanwhile. -/
theorem run_readSetup (h : ep.At .ep0Out) (hr : (s.reg .USBCMD).getLsbD 1 = false) :
    run ep.readSetup s = ⟨.ok (s.qh 0).setup, s.takeSetup, s.setupObs⟩ := by
  have hnum : EpId.ep0Out.num.val < 32 := by decide
  have hslot : EpId.ep0Out.slot = 0 := rfl
  have hmask : 1#32 <<< EpId.ep0Out.num.val = (1 : Word) := by decide
  have hset : (USBCMD.SUTW.get (USBCMD.SUTW.set 1 (s.reg .USBCMD)) == 1) = true := by
    rw [Field.get_bit_eq_one _ _ rfl (by decide), Field.getLsbD_set _ _ _ (by decide),
      if_pos (by decide)]
    rfl
  rw [Endpoint.readSetup, h.address, EpId.address_index, h.qh, hslot, run_bind, run_bit32 hnum,
    Out.andThen_ok, run_bind, run_writeReg _ _ _ (by simp), Out.andThen_ok,
    Sys.writeReg_w1c _ _ (by simp), hmask]
  apply run_repeatUntil_some
  -- `s1` is the state after the latch is cleared, `s2` with the tripwire set
  generalize hs1 : s.lower .ENDPTSETUPSTAT 1 = s1
  have hcmd1 : s1.reg .USBCMD = s.reg .USBCMD := by
    rw [← hs1]
    exact Sys.reg_setReg_of_ne _ _ (by simp)
  rw [run_bind, run_modifySutw _ (by rw [hcmd1, hr]), Out.andThen_ok, hcmd1, run_bind,
    run_readSetupBuffer, Out.andThen_ok_obs]
  generalize hs2 : s1.setReg .USBCMD (USBCMD.SUTW.set 1 (s.reg .USBCMD)) = s2
  have hcmd2 : s2.reg .USBCMD = USBCMD.SUTW.set 1 (s.reg .USBCMD) := by
    rw [← hs2]
    exact Sys.reg_setReg_self _ _ _
  have hbit2 : (s2.reg .USBCMD).getLsbD 1 = false := by
    rw [hcmd2, Field.getLsbD_set _ _ _ (by decide), if_neg (by decide), hr]
  rw [run_bind, run_readField, Out.andThen_ok, hcmd2, if_pos hset, run_bind,
    run_modifySutw _ hbit2, Out.andThen_ok, run_pure, hcmd2, Field.set_set]
  subst hs2 hs1
  simp [Sys.takeSetup, Sys.setReg, Sys.lower, Sys.setupObs]

end Methods

end ImxrtUsbd
