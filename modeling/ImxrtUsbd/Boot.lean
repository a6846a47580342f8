/-
  ImxrtUsbd.Boot

  From power-on to the allocated endpoints: `Driver::initialize`, then any
  sequence of `alloc_ep` requests.  `Booted` states meet the invariant, and
  nothing has happened to their endpoints yet.
-/
import ImxrtUsbd.System

namespace ImxrtUsbd

open Lib

/-! ## Power-on -/

/-- The state in which the driver is constructed: fresh static memory, and
    whatever the registers hold. -/
structure Sys.PowerOn (s : Sys) : Prop where
  stack : s.StackOk
  td : ∀ i, s.td i = Td.new
  qh : ∀ i, s.qh i = Qh.new
  epOut : s.driver.epOut = 0
  epAllocator : ∃ COUNT qhList tdList,
    (EndpointState.new COUNT qhList tdList).allocator.1 = some s.driver.epAllocator
  bufferAllocator : ∃ start len,
    s.driver.bufferAllocator = .fromBuffer start len ∧ start + len < 0xE0000000

/-- Nothing has happened to the endpoints, and unallocated descriptors are fresh. -/
structure Sys.Idle (s : Sys) : Prop where
  wf : s.WF
  fresh : ∀ e, s.ep e = none →
    (s.td e.slot).totalBytes = 0 ∧ (s.td e.slot).lastTransferSize.toNat = 0
  errored : ∀ e : EpId, (s.td e.slot).errored = false
  stat : s.reg .ENDPTSTAT = 0
  complete : s.reg .ENDPTCOMPLETE = 0
  setupstat : s.reg .ENDPTSETUPSTAT = 0
  epOut : s.driver.epOut = 0

section Initialize

variable {s : Sys}

/-- The registers after a controller reset. -/
def Sys.controllerReset (s : Sys) : Sys :=
  { s with reg := fun r => match r with
      | .PHY_PWD | .PHY_CTRL_SET | .PHY_CTRL_CLR => s.reg r
      | _ => 0 }

theorem writeReg_reset (s : Sys) :
    s.writeReg .USBCMD (USBCMD.RST.put 1) = s.controllerReset := by
  rw [Sys.writeReg, if_pos (by decide)]
  rfl

/-- `initialize` resets the controller and leaves memory alone. -/
theorem run_initializeDriver (speed : Speed) (s : Sys) :
    ∃ reg, run (Driver.initializeDriver speed) s = ⟨.ok (), { s with reg }, []⟩ ∧
      reg .ENDPTPRIME = 0 ∧ reg .ENDPTFLUSH = 0 ∧ (reg .USBCMD).getLsbD 1 = false ∧
      reg .ENDPTSTAT = 0 ∧ reg .ENDPTCOMPLETE = 0 ∧ reg .ENDPTSETUPSTAT = 0 ∧
      reg .USBSTS = 0 ∧ ∀ e : EpId, reg e.ctrlReg = 0 := by
  have hloop : ∀ s : Sys,
      run (.repeatUntil do
        let rst ← readField .USBCMD USBCMD.RST
        return if rst == 1 then none else some ()) s.controllerReset =
        ⟨.ok (), s.controllerReset, []⟩ := by
    intro s
    apply run_repeatUntil_some
    have h0 : s.controllerReset.reg .USBCMD = 0 := rfl
    simp [h0]
  have hcmd : ∀ s : Sys, s.writeReg .USBCMD (USBCMD.ITC.put 0) = s.setReg .USBCMD 0 :=
    fun s => s.writeReg_usbcmd (v := 0) (by decide)
  have hw : ∀ (s : Sys) (r : Reg) (f : Field) (v : Word), r ≠ .ENDPTPRIME →
      run (writeField r f v) s = ⟨.ok (), s.writeReg r (f.put v), []⟩ :=
    fun s r f v hr => run_writeReg r (f.put v) s hr
  rw [Driver.initializeDriver, run_bind, hw _ _ _ _ (by simp), Out.andThen_ok, run_bind,
    hw _ _ _ _ (by simp), Out.andThen_ok, run_bind, hw _ _ _ _ (by simp), Out.andThen_ok,
    run_bind, run_writeReg _ _ _ (by simp), Out.andThen_ok, run_bind, hw _ _ _ _ (by simp),
    Out.andThen_ok, writeReg_reset, run_bind, hloop, Out.andThen_ok, run_bind,
    hw _ _ _ _ (by simp), hcmd, Out.andThen_ok, run_bind, run_writeReg _ _ _ (by simp),
    Out.andThen_ok, run_bind, run_modifyReg _ _ _ (by simp), Out.andThen_ok, run_bind,
    run_writeBack _ _ (by simp), Out.andThen_ok, run_bind, run_writeReg _ _ _ (by simp),
    Out.andThen_ok, run_bind, run_getDriver, Out.andThen_ok, run_writeReg _ _ _ (by simp)]
  have hrst : (0 : Word).getLsbD 1 = false := by decide
  -- the interrupt flags were zero, and are written back
  have hsts : (0 : Word) &&& ~~~ 0 = 0 := by decide
  refine ⟨_, rfl, rfl, rfl, hrst, rfl, rfl, rfl, hsts, fun e => ?_⟩
  rcases e.ctrlReg_cases with h | ⟨i, h⟩ <;> rw [h] <;> rfl

end Initialize

/-! ## Allocation -/

/-- The queue head of a new endpoint. -/
def Qh.claimed (q : Qh) (maxPacketSize : Nat) (control : Bool) : Qh :=
  { q with
    capabilities := CAPABILITIES.IOS.set (if control then 1 else 0)
      (CAPABILITIES.MAXIMUM_PACKET_LENGTH.set (BitVec.ofNat 32 (min maxPacketSize 1024))
        (CAPABILITIES.ZLT.set 1 q.capabilities)) }

/-- The descriptor of a new endpoint. -/
def Td.claimed (t : Td) : Td := { t with next := 1, token := TOKEN.STATUS.set 0 t.token }

/-- The endpoint `e` with this buffer. -/
def EpId.endpoint (e : EpId) (buffer : Buffer) (kind : EndpointType) : Endpoint :=
  ⟨e.address, e.slot, e.slot, buffer, kind⟩

namespace Sys

/-- Endpoint memory can grant a buffer of `n` bytes. -/
def CanGrant (s : Sys) (n : Nat) : Prop :=
  n ≤ s.driver.bufferAllocator.ptr ∧ s.driver.bufferAllocator.start ≤
    s.driver.bufferAllocator.ptr - n

instance (s : Sys) (n : Nat) : Decidable (s.CanGrant n) :=
  inferInstanceAs (Decidable (_ ∧ _))

/-- The buffer it grants. -/
def grantedBuffer (s : Sys) (n : Nat) : Buffer := ⟨s.driver.bufferAllocator.ptr - n, n⟩

/-- The state after it was granted. -/
def grant (s : Sys) (n : Nat) : Sys :=
  { s with driver := { s.driver with
      bufferAllocator := { s.driver.bufferAllocator with
        ptr := s.driver.bufferAllocator.ptr - n } } }

/-- The state after the endpoint was written to its place in the lists. -/
def adopt (s : Sys) (e : EpId) (ep : Endpoint) : Sys :=
  { s with
    td := Function.update s.td e.slot (s.td e.slot).claimed
    qh := Function.update s.qh e.slot ((s.qh e.slot).claimed ep.buffer.len
      (ep.kind == .Control && e.dir == .Out))
    driver := { s.driver with epAllocator := { s.driver.epAllocator with
      allocMask := s.driver.epAllocator.allocMask ||| (1#16 <<< e.slot).setWidth 32
      epList := Function.update s.driver.epAllocator.epList e.slot (some ep) } } }

/-- The state after an endpoint was allocated. -/
def allocated (s : Sys) (e : EpId) (n : Nat) (kind : EndpointType) : Sys :=
  (s.grant n).adopt e (e.endpoint (s.grantedBuffer n) kind)

/-- The provided state has room for the address. -/
def HasStorage (s : Sys) (addr : EndpointAddress) : Prop :=
  index addr < s.driver.epAllocator.len

instance (s : Sys) (addr : EndpointAddress) : Decidable (s.HasStorage addr) :=
  inferInstanceAs (Decidable (_ < _))

end Sys

section Alloc

variable {s : Sys}

theorem run_allocateBuffer (s : Sys) (n : Nat) :
    run (Driver.allocateBuffer n) s =
      if s.CanGrant n then ⟨.ok (some (s.grantedBuffer n)), s.grant n, []⟩
      else ⟨.ok none, s, []⟩ := by
  have hrun : run (Driver.allocateBuffer n) s =
      ⟨.ok (s.driver.bufferAllocator.allocate n).1, { s with driver := { s.driver with
        bufferAllocator := (s.driver.bufferAllocator.allocate n).2 } }, []⟩ := rfl
  rw [hrun, Allocator.allocate]
  by_cases hn : s.driver.bufferAllocator.ptr < n
  · have hg : ¬ s.CanGrant n := fun hg => by have := hg.1; omega
    simp only [hn, if_true, if_neg hg]
  · by_cases hs : s.driver.bufferAllocator.ptr - n < s.driver.bufferAllocator.start
    · have hg : ¬ s.CanGrant n := fun hg => by have := hg.2; omega
      simp only [hn, hs, if_true, if_false, if_neg hg]
    · have hg : s.CanGrant n := ⟨by omega, by omega⟩
      simp only [hn, hs, if_false, if_pos hg]
      rfl

theorem run_new (e : EpId) (buffer : Buffer) (kind : EndpointType) (s : Sys) :
    run (Endpoint.new e.address e.slot e.slot buffer kind) s =
      ⟨.ok (e.endpoint buffer kind),
        { s with
          td := Function.update s.td e.slot (s.td e.slot).claimed
          qh := Function.update s.qh e.slot ((s.qh e.slot).claimed buffer.len
            (kind == .Control && e.dir == .Out)) }, []⟩ := by
  simp only [Endpoint.new, Qh.setZeroLengthTermination, Qh.setMaxPacketLen, Qh.setInterruptOnSetup,
    Qh.modifyCapabilities, TdRef.setTerminate, TdRef.clearStatus, run_bind, run_loadCapabilities,
    run_storeCapabilities, Out.andThen_ok, run_storeTd, run_modifyTd, run_pure,
    Function.update_self, Function.update_idem, Sys.setTdAt_setTdAt, Sys.tdAt_setTdAt_self,
    EpId.address_direction]
  rfl

/-- Without storage for it an address is refused, and nothing changes. -/
theorem run_allocateEndpoint_full {addr : EndpointAddress} (h : ¬ s.HasStorage addr)
    (buffer : Buffer) (kind : EndpointType) :
    run (EndpointAllocator.allocateEndpoint addr buffer kind) s = ⟨.ok none, s, []⟩ := by
  have hlt : ¬ index addr < s.driver.epAllocator.len := h
  rw [EndpointAllocator.allocateEndpoint, run_bind, run_getDriver, Out.andThen_ok, if_neg hlt,
    run_pure]

/-- The same if it was allocated before. -/
theorem run_allocateEndpoint_none {addr : EndpointAddress} (h : s.Indexed)
    (htaken : (s.lookup addr).isSome = true) (buffer : Buffer) (kind : EndpointType) :
    run (EndpointAllocator.allocateEndpoint addr buffer kind) s = ⟨.ok none, s, []⟩ := by
  obtain ⟨ep, hlookup⟩ := Option.isSome_iff_exists.mp htaken
  obtain ⟨e, rfl, hep⟩ := Sys.lookup_eq_some hlookup
  have h16 := e.slot_lt
  have hlt : e.slot < s.driver.epAllocator.len := h.slot_lt e ep hep
  -- the bit is set already, so setting it changes nothing
  have hbit : s.driver.epAllocator.allocMask.getLsbD e.slot = true := by
    rw [h.mask e, hep]
    rfl
  have hset : ((1#16 <<< e.slot).setWidth 32 &&& s.driver.epAllocator.allocMask == 0) = false := by
    rw [beq_eq_false_iff_ne]
    intro hzero
    have hj := congrArg (fun x : Word => x.getLsbD e.slot) hzero
    have h32 : e.slot < 32 := by omega
    simp only [BitVec.getLsbD_and, BitVec.getLsbD_setWidth, Field.getLsbD_bit, hbit] at hj
    simp [h16, h32] at hj
  have hsame : s.driver.epAllocator.allocMask ||| (1#16 <<< e.slot).setWidth 32 =
      s.driver.epAllocator.allocMask := by
    apply BitVec.eq_of_getLsbD_eq
    intro j _
    rw [BitVec.getLsbD_or, BitVec.getLsbD_setWidth, Field.getLsbD_bit]
    by_cases hj : j = e.slot
    · rw [hj, hbit, Bool.true_or]
    · simp [hj]
  rw [EndpointAllocator.allocateEndpoint, EpId.index_address, run_bind, run_getDriver,
    Out.andThen_ok, if_pos hlt, run_bind, run_bit16 h16, Out.andThen_ok]
  simp only [EndpointAllocator.tryMaskUpdate, run_bind, run_getDriver, run_setDriver,
    Out.andThen_ok, run_pure, hset, hsame, if_false, Bool.false_eq_true]

theorem run_allocateEndpoint {e : EpId} (h : s.Indexed) (hs : s.HasStorage e.address)
    (hnone : s.ep e = none) (buffer : Buffer) (kind : EndpointType) :
    run (EndpointAllocator.allocateEndpoint e.address buffer kind) s =
      ⟨.ok (some (e.endpoint buffer kind)), s.adopt e (e.endpoint buffer kind), []⟩ := by
  have h16 := e.slot_lt
  have hlt : e.slot < s.driver.epAllocator.len := by
    have := hs
    rwa [Sys.HasStorage, EpId.index_address] at this
  have hbit : s.driver.epAllocator.allocMask.getLsbD e.slot = false := by
    rw [h.mask e, hnone]
    rfl
  have hfree : ((1#16 <<< e.slot).setWidth 32 &&& s.driver.epAllocator.allocMask == 0) = true := by
    rw [beq_iff_eq]
    apply BitVec.eq_of_getLsbD_eq
    intro j _
    rw [BitVec.getLsbD_and, BitVec.getLsbD_setWidth, Field.getLsbD_bit]
    by_cases hj : j = e.slot
    · rw [hj, hbit, Bool.and_false]
      simp
    · simp [hj]
  rw [EndpointAllocator.allocateEndpoint, EpId.index_address, run_bind,
    run_getDriver, Out.andThen_ok, if_pos hlt, run_bind, run_bit16 h16, Out.andThen_ok]
  simp only [EndpointAllocator.tryMaskUpdate, run_bind, run_getDriver, run_setDriver,
    Out.andThen_ok, run_pure, hfree, if_true, run_new]
  rfl

/-- An address without storage is not allocated, and nothing changes. -/
theorem run_allocateEp_panic {addr : EndpointAddress} (h : ¬ s.HasStorage addr) (buffer : Buffer)
    (kind : EndpointType) :
    run (Driver.allocateEp addr buffer kind) s = ⟨.fail .panic, s, []⟩ := by
  rw [Driver.allocateEp, run_bind, run_allocateEndpoint_full h, Out.andThen_ok]
  rfl

theorem run_allocateEp {e : EpId} (h : s.WF) (hs : s.HasStorage e.address) (hnone : s.ep e = none)
    (buffer : Buffer) (kind : EndpointType) :
    run (Driver.allocateEp e.address buffer kind) s =
      ⟨.ok (), s.adopt e (e.endpoint buffer kind), []⟩ := by
  rw [Driver.allocateEp, run_bind, run_allocateEndpoint h.indexed hs hnone, Out.andThen_ok]
  rfl

/-- Granting a buffer, for an endpoint or in vain, touches no endpoint. -/
theorem wf_grant (h : s.WF) (n : Nat) : (s.grant n).WF where
  stack := h.stack
  prime := h.prime
  flush := h.flush
  rst := h.rst
  mask := h.mask
  epOk := fun e ep hep => ⟨(h.epOk e ep hep).inPlace, (h.epOk e ep hep).slot_lt,
    (h.epOk e ep hep).mpl, (h.epOk e ep hep).td⟩
  apart := h.apart
  heap := fun e ep hep => Nat.le_trans (Nat.sub_le _ _) (h.heap e ep hep)
  heap_lt := Nat.lt_of_le_of_lt (Nat.sub_le _ _) h.heap_lt
  primed := h.primed

theorem ep_adopt (s : Sys) (e f : EpId) (ep : Endpoint) :
    (s.adopt e ep).ep f = if f = e then some ep else s.ep f := by
  by_cases hf : f = e
  · subst hf
    simp [Sys.ep, Sys.adopt]
  · have hs : f.slot ≠ e.slot := fun hs => hf (EpId.slot_inj.mp hs)
    simp [Sys.ep, Sys.adopt, Function.update_of_ne hs, hf]

theorem mask_adopt (s : Sys) (e f : EpId) (ep : Endpoint) :
    (s.adopt e ep).driver.epAllocator.allocMask.getLsbD f.slot =
      (s.driver.epAllocator.allocMask.getLsbD f.slot || decide (f = e)) := by
  have h16 := f.slot_lt
  show (_ ||| (1#16 <<< e.slot).setWidth 32).getLsbD f.slot = _
  rw [BitVec.getLsbD_or, BitVec.getLsbD_setWidth, Field.getLsbD_bit]
  simp only [EpId.slot_inj]
  have h32 : f.slot < 32 := by omega
  rw [decide_eq_true h16, decide_eq_true h32, Bool.true_and, Bool.true_and]

/-- One endpoint more. -/
theorem ep_allocated (s : Sys) (e f : EpId) (n : Nat) (kind : EndpointType) :
    (s.allocated e n kind).ep f =
      if f = e then some (e.endpoint (s.grantedBuffer n) kind) else s.ep f :=
  ep_adopt (s.grant n) e f _

theorem td_allocated (s : Sys) (e f : EpId) (n : Nat) (kind : EndpointType) :
    (s.allocated e n kind).td f.slot =
      if f = e then (s.td e.slot).claimed else s.td f.slot := by
  by_cases hf : f = e
  · subst hf
    simp [Sys.allocated, Sys.adopt, Sys.grant]
  · have hs : f.slot ≠ e.slot := fun hs => hf (EpId.slot_inj.mp hs)
    simp [Sys.allocated, Sys.adopt, Sys.grant, Function.update_of_ne hs, hf]

theorem totalBytes_claimed (t : Td) : t.claimed.totalBytes = t.totalBytes :=
  congrArg BitVec.toNat (Field.get_set_of_disjoint _ _ _ _ (by decide))

theorem errored_claimed (t : Td) : t.claimed.errored = false := by
  have hbit : ∀ j, j < 8 → t.claimed.token.getLsbD j = false := by
    intro j hj
    have hHas : TOKEN.STATUS.Has j := ⟨Nat.zero_le j, by show j < 0 + 8; omega⟩
    rw [Td.claimed, Field.getLsbD_set _ _ _ (by omega), if_pos hHas]
    exact BitVec.getLsbD_zero
  rw [Td.errored, hbit 3 (by omega), hbit 5 (by omega), hbit 6 (by omega)]
  rfl

theorem maxPacketLen_allocated (s : Sys) (e f : EpId) (n : Nat) (kind : EndpointType) :
    (s.allocated e n kind).maxPacketLen f =
      if f = e then min n 1024 else s.maxPacketLen f := by
  by_cases hf : f = e
  · subst hf
    have hqh : (s.allocated f n kind).qh f.slot =
        (s.qh f.slot).claimed n (kind == .Control && f.dir == .Out) :=
      Function.update_self _ _ _
    rw [if_pos rfl, Sys.maxPacketLen, hqh, Qh.claimed,
      Field.get_set_of_disjoint _ _ _ _ (by decide), Field.get_set_self _ _ _ (by decide),
      BitVec.toNat_ofNat]
    show min n 1024 % 2 ^ 32 % 2 ^ 11 = min n 1024
    omega
  · have hs : f.slot ≠ e.slot := fun hs => hf (EpId.slot_inj.mp hs)
    simp [Sys.maxPacketLen, Sys.allocated, Sys.adopt, Sys.grant, Function.update_of_ne hs, hf]

theorem mask_allocated (s : Sys) (e f : EpId) (n : Nat) (kind : EndpointType) :
    (s.allocated e n kind).driver.epAllocator.allocMask.getLsbD f.slot =
      (s.driver.epAllocator.allocMask.getLsbD f.slot || decide (f = e)) :=
  mask_adopt (s.grant n) e f _

/-- The endpoint sits in its cell, with a buffer of its own and a descriptor that
    describes no transfer. -/
theorem epOk_allocated (h : s.Idle) {e : EpId} (hs : s.HasStorage e.address)
    (hnone : s.ep e = none) {n : Nat} (hn : s.CanGrant n) (kind : EndpointType) :
    (s.allocated e n kind).EpOk e (e.endpoint (s.grantedBuffer n) kind) := by
  have hlt := h.wf.heap_lt
  refine ⟨⟨rfl, rfl, rfl, ?_⟩, ?_, ?_, ?_⟩
  · show s.driver.bufferAllocator.ptr - n + n < _
    have := hn.1
    omega
  · have := hs
    rwa [Sys.HasStorage, EpId.index_address] at this
  · rw [maxPacketLen_allocated, if_pos rfl]
    rfl
  · have hlast : (s.td e.slot).claimed.lastTransferSize.toNat = 0 := (h.fresh e hnone).2
    rw [td_allocated, if_pos rfl]
    refine ⟨?_, ?_, fun h0 => absurd hlast h0⟩
    · rw [totalBytes_claimed, (h.fresh e hnone).1]
      exact Nat.zero_le _
    · rw [hlast]
      exact Nat.zero_le _

/-- The new buffer ends where free memory ended, below every other one. -/
theorem apart_allocated (h : s.WF) {e : EpId} {n : Nat} (hn : s.CanGrant n) {kind : EndpointType}
    {f g : EpId} {fp gp : Endpoint} (hne : f ≠ g) (hfp : (s.allocated e n kind).ep f = some fp)
    (hgp : (s.allocated e n kind).ep g = some gp) :
    fp.buffer.ptr + fp.buffer.len ≤ gp.buffer.ptr ∨
      gp.buffer.ptr + gp.buffer.len ≤ fp.buffer.ptr := by
  have hnew : (e.endpoint (s.grantedBuffer n) kind).buffer.ptr +
      (e.endpoint (s.grantedBuffer n) kind).buffer.len = s.driver.bufferAllocator.ptr := by
    show s.driver.bufferAllocator.ptr - n + n = _
    have := hn.1
    omega
  rw [ep_allocated] at hfp hgp
  by_cases hf : f = e
  · subst hf
    rw [if_pos rfl] at hfp
    rw [if_neg (Ne.symm hne)] at hgp
    obtain rfl := Option.some.inj hfp
    rw [hnew]
    exact Or.inl (h.heap g gp hgp)
  · rw [if_neg hf] at hfp
    by_cases hg : g = e
    · subst hg
      rw [if_pos rfl] at hgp
      obtain rfl := Option.some.inj hgp
      rw [hnew]
      exact Or.inr (h.heap f fp hfp)
    · rw [if_neg hg] at hgp
      exact h.apart f g fp gp hne hfp hgp

theorem wf_allocated (h : s.Idle) {e : EpId} (hs : s.HasStorage e.address)
    (hnone : s.ep e = none) {n : Nat} (hn : s.CanGrant n) (kind : EndpointType) :
    (s.allocated e n kind).WF where
  stack := h.wf.stack
  prime := h.wf.prime
  flush := h.wf.flush
  rst := h.wf.rst
  mask := by
    intro f
    rw [mask_allocated, ep_allocated, h.wf.mask]
    by_cases hf : f = e <;> simp [hf]
  epOk := by
    intro f fp hfp
    rw [ep_allocated] at hfp
    by_cases hf : f = e
    · subst hf
      rw [if_pos rfl] at hfp
      obtain rfl := Option.some.inj hfp
      exact epOk_allocated h hs hnone hn kind
    · -- an endpoint allocated before has kept its cell and its descriptors
      rw [if_neg hf] at hfp
      have hok := h.wf.epOk f fp hfp
      refine ⟨hok.inPlace, hok.slot_lt, ?_, ?_⟩
      · rw [maxPacketLen_allocated, if_neg hf, hok.mpl]
      · rw [td_allocated, if_neg hf]
        exact hok.td
  apart := fun _ _ _ _ hne hfp hgp => apart_allocated h.wf hn hne hfp hgp
  heap := by
    intro f fp hfp
    rw [ep_allocated] at hfp
    show s.driver.bufferAllocator.ptr - n ≤ fp.buffer.ptr
    by_cases hf : f = e
    · rw [if_pos hf] at hfp
      obtain rfl := Option.some.inj hfp
      exact Nat.le_refl _
    · rw [if_neg hf] at hfp
      have := h.wf.heap f fp hfp
      omega
  heap_lt := Nat.lt_of_le_of_lt (Nat.sub_le _ _) h.wf.heap_lt
  primed := by
    -- nothing is primed
    intro f hf
    have hreg : (s.allocated e n kind).reg .ENDPTSTAT = 0 := h.stat
    rw [Sys.primed, hreg] at hf
    simp at hf

/-- Allocating an endpoint that has storage keeps everything idle. -/
theorem idle_allocated (h : s.Idle) {e : EpId} (hs : s.HasStorage e.address)
    (hnone : s.ep e = none) {n : Nat} (hn : s.CanGrant n) (kind : EndpointType) :
    (s.allocated e n kind).Idle where
  wf := wf_allocated h hs hnone hn kind
  fresh := by
    intro f hf
    rw [ep_allocated] at hf
    by_cases hfe : f = e
    · rw [if_pos hfe] at hf
      simp at hf
    · rw [if_neg hfe] at hf
      rw [td_allocated, if_neg hfe]
      exact h.fresh f hf
  errored := by
    intro f
    rw [td_allocated]
    split
    · exact errored_claimed _
    · exact h.errored f
  stat := h.stat
  complete := h.complete
  setupstat := h.setupstat
  epOut := h.epOut

end Alloc

/-! ## Booting -/

/-- What a request for an endpoint asks for. -/
structure Request where
  epDir : UsbDirection
  epAddr : Option EndpointAddress
  epType : EndpointType
  maxPacketSize : BitVec 16

/-- Its code. -/
def Request.prog (q : Request) : UsbM (Except UsbError EndpointAddress) :=
  BusAdapter.allocEp q.epDir q.epAddr q.epType q.maxPacketSize

/-- The states between the construction of the bus adapter and its first use:
    the driver is initialised, and requests for endpoints were granted or refused. -/
inductive Booted : Sys → Prop where
  | start {s s' : Sys} {speed : Speed} {obs : List Obs} :
      s.PowerOn → run (Driver.initializeDriver speed) s = ⟨.ok (), s', obs⟩ → Booted s'
  | alloc {s s' : Sys} {q : Request} {r : Except UsbError EndpointAddress} {obs : List Obs} :
      Booted s → run q.prog s = ⟨.ok r, s', obs⟩ → Booted s'

/-- The allocator is there to be taken, once. -/
theorem allocator_new (COUNT qhList tdList : Nat) :
    (EndpointState.new COUNT qhList tdList).allocator.1 =
      some { EndpointState.new COUNT qhList tdList with
        allocMask := EndpointState.ALLOCATOR_TAKEN } := by
  have hfree : ((0 : Word) &&& EndpointState.ALLOCATOR_TAKEN == 0) = true := by decide
  have htaken : (0 : Word) ||| EndpointState.ALLOCATOR_TAKEN = EndpointState.ALLOCATOR_TAKEN := by
    decide
  rw [EndpointState.allocator]
  simp only [EndpointState.new, hfree, htaken, if_true]

theorem idle_start {s s' : Sys} {speed : Speed} {o : List Obs} (h : s.PowerOn)
    (hrun : run (Driver.initializeDriver speed) s = ⟨.ok (), s', o⟩) : s'.Idle := by
  obtain ⟨reg, hreg, hprime, hflush, hrst, hstat, hcomp, hset, -⟩ := run_initializeDriver speed s
  rw [hreg] at hrun
  obtain ⟨-, rfl, rfl⟩ := Out.mk.inj hrun
  obtain ⟨start, len, hbuf, hlen⟩ := h.bufferAllocator
  obtain ⟨COUNT, qhList, tdList, halloc⟩ := h.epAllocator
  -- the state of the allocator is the one `allocator` handed out: nothing is there yet
  have hst := Option.some.inj (halloc.symm.trans (allocator_new COUNT qhList tdList))
  have hep : s.driver.epAllocator.epList = fun _ => none := by
    rw [hst]
    rfl
  have hmask : ∀ e : EpId, s.driver.epAllocator.allocMask.getLsbD e.slot = false := by
    have hbits : ∀ e : EpId, EndpointState.ALLOCATOR_TAKEN.getLsbD e.slot = false := by
      rw [EpId.forall_iff]
      decide
    rw [hst]
    exact hbits
  have hnone : ∀ e : EpId, ({ s with reg } : Sys).ep e = none := fun e => congrFun hep e.slot
  have hunprimed : ∀ e : EpId, ({ s with reg } : Sys).primed e = false := by
    intro e
    show (reg .ENDPTSTAT).getLsbD e.bit = false
    rw [hstat]
    exact BitVec.getLsbD_zero
  -- no cell is filled, so all that is said of endpoints holds
  refine ⟨⟨h.stack, hprime, hflush, hrst, ?_, ?_, ?_, ?_, ?_, ?_⟩, ?_, ?_, hstat, hcomp, hset,
    h.epOut⟩
  · intro e
    rw [hnone e]
    exact hmask e
  · intro e ep he
    rw [hnone e] at he
    simp at he
  · intro e f ep fp _ he
    rw [hnone e] at he
    simp at he
  · intro e ep he
    rw [hnone e] at he
    simp at he
  · show s.driver.bufferAllocator.ptr < _
    rw [hbuf]
    exact hlen
  · intro e he
    rw [hunprimed] at he
    simp at he
  · intro e _
    show (s.td e.slot).totalBytes = 0 ∧ _
    rw [h.td]
    exact ⟨rfl, rfl⟩
  · intro e
    show (s.td e.slot).errored = false
    rw [h.td]
    rfl

/-! ## Requests -/

section Requests

variable {s s' : Sys}

/-- The common end of both kinds of request: memory, then the endpoint. -/
def allocAt (addr : EndpointAddress) (n : Nat) (kind : EndpointType) :
    UsbM (Except UsbError EndpointAddress) := do
  match ← Driver.allocateBuffer n with
  | none => return .error .EndpointMemoryOverflow
  | some buffer =>
    Driver.allocateEp addr buffer kind
    return .ok addr

theorem run_allocAt_refused {n : Nat} (hg : ¬ s.CanGrant n) (addr : EndpointAddress)
    (kind : EndpointType) :
    run (allocAt addr n kind) s = ⟨.ok (.error .EndpointMemoryOverflow), s, []⟩ := by
  rw [allocAt, run_bind, run_allocateBuffer, if_neg hg]
  rfl

/-- The buffer is taken before the address turns out to have no storage. -/
theorem run_allocAt_panic {addr : EndpointAddress} {n : Nat} (hg : s.CanGrant n)
    (hs : ¬ s.HasStorage addr) (kind : EndpointType) :
    run (allocAt addr n kind) s = ⟨.fail .panic, s.grant n, []⟩ := by
  have hs' : ¬ (s.grant n).HasStorage addr := hs
  rw [allocAt, run_bind, run_allocateBuffer, if_pos hg, Out.andThen_ok]
  show run (Driver.allocateEp addr _ kind >>= _) _ = _
  rw [run_bind, run_allocateEp_panic hs']
  rfl

theorem run_allocAt {e : EpId} {n : Nat} (h : s.WF) (hg : s.CanGrant n)
    (hs : s.HasStorage e.address) (hnone : s.ep e = none) (kind : EndpointType) :
    run (allocAt e.address n kind) s = ⟨.ok (.ok e.address), s.allocated e n kind, []⟩ := by
  have hs' : (s.grant n).HasStorage e.address := hs
  have hnone' : (s.grant n).ep e = none := hnone
  rw [allocAt, run_bind, run_allocateBuffer, if_pos hg, Out.andThen_ok]
  show run (Driver.allocateEp e.address _ kind >>= _) _ = _
  rw [run_bind, run_allocateEp (wf_grant h n) hs' hnone']
  rfl

/-- A request for an address that is taken, and for one that is not. -/
theorem run_request_taken {addr : EndpointAddress} (h : s.WF) (htaken : (s.lookup addr).isSome)
    (epDir : UsbDirection) (epType : EndpointType) (maxPacketSize : BitVec 16) :
    run (BusAdapter.allocEp epDir (some addr) epType maxPacketSize) s =
      ⟨.ok (.error .InvalidEndpoint), s, []⟩ := by
  rw [BusAdapter.allocEp, run_bind, run_isAllocated h, Out.andThen_ok, htaken]
  rfl

theorem run_request_free {addr : EndpointAddress} (h : s.WF) (hfree : s.lookup addr = none)
    (epDir : UsbDirection) (epType : EndpointType) (maxPacketSize : BitVec 16) :
    run (BusAdapter.allocEp epDir (some addr) epType maxPacketSize) s =
      run (allocAt addr maxPacketSize.toNat epType) s := by
  rw [BusAdapter.allocEp, run_bind, run_isAllocated h, Out.andThen_ok, hfree]
  rfl

/-- The automatic assignment tries the numbers in order: it ends with an error
    when all are taken, and goes for the first that is not. -/
theorem run_allocFirst (h : s.WF) (epDir : UsbDirection) (epType : EndpointType)
    (maxPacketSize : BitVec 16) (ns : List Nat) :
    (∀ n ∈ ns, (s.lookup (.fromParts n epDir)).isSome) ∧
        run (BusAdapter.allocFirst epDir epType maxPacketSize ns) s =
          ⟨.ok (.error .EndpointOverflow), s, []⟩ ∨
      ∃ pre n post, ns = pre ++ n :: post ∧
        (∀ m ∈ pre, (s.lookup (.fromParts m epDir)).isSome) ∧
        s.lookup (.fromParts n epDir) = none ∧
        run (BusAdapter.allocFirst epDir epType maxPacketSize ns) s =
          run (allocAt (.fromParts n epDir) maxPacketSize.toNat epType) s := by
  induction ns with
  | nil => exact Or.inl ⟨by simp, rfl⟩
  | cons n ns ih =>
    rw [BusAdapter.allocFirst, run_bind, run_isAllocated h, Out.andThen_ok]
    cases hn : s.lookup (.fromParts n epDir) with
    | none => exact Or.inr ⟨[], n, ns, rfl, by simp, hn, rfl⟩
    | some ep =>
      have hsome : (s.lookup (.fromParts n epDir)).isSome := by rw [hn]; rfl
      rw [Option.isSome_some, if_pos rfl]
      rcases ih with ⟨hall, hrun⟩ | ⟨pre, m, post, rfl, hpre, hm, hrun⟩
      · exact Or.inl ⟨List.forall_mem_cons.mpr ⟨hsome, hall⟩, hrun⟩
      · exact Or.inr ⟨n :: pre, m, post, rfl, List.forall_mem_cons.mpr ⟨hsome, hpre⟩, hm, hrun⟩

theorem lookup_of_hasStorage {addr : EndpointAddress} (hs : s.HasStorage addr) :
    ∃ e : EpId, addr = e.address ∧ s.lookup addr = s.ep e := by
  have hlt : index addr < 16 := by
    have := Nat.min_le_right s.driver.epAllocator.COUNT MAX_ENDPOINTS
    exact Nat.lt_of_lt_of_le hs this
  obtain ⟨e, rfl⟩ := EpId.exists_of_index_lt hlt
  exact ⟨e, rfl, s.lookup_address e⟩

/-- What can come of the common end, when it returns. -/
theorem allocAt_cases {addr : EndpointAddress} {n : Nat} {kind : EndpointType}
    {r : Except UsbError EndpointAddress} {o : List Obs} (h : s.WF) (hfree : s.lookup addr = none)
    (hrun : run (allocAt addr n kind) s = ⟨.ok r, s', o⟩) :
    (s' = s ∧ r = .error .EndpointMemoryOverflow) ∨
      ∃ e, addr = e.address ∧ r = .ok e.address ∧ s' = s.allocated e n kind ∧
        s.HasStorage e.address ∧ s.ep e = none ∧ s.CanGrant n := by
  by_cases hg : s.CanGrant n
  · by_cases hs : s.HasStorage addr
    · obtain ⟨e, rfl, he⟩ := lookup_of_hasStorage hs
      rw [hfree] at he
      rw [run_allocAt h hg hs he.symm] at hrun
      obtain ⟨hr, rfl, -⟩ := Out.mk.inj hrun
      exact Or.inr ⟨e, rfl, (Res.ok.inj hr).symm, rfl, hs, he.symm, hg⟩
    · rw [run_allocAt_panic hg hs] at hrun
      simp at hrun
  · rw [run_allocAt_refused hg] at hrun
    obtain ⟨hr, rfl, -⟩ := Out.mk.inj hrun
    exact Or.inl ⟨rfl, (Res.ok.inj hr).symm⟩

/-- The request was refused, and nothing changed, or it allocated one endpoint. -/
def Request.Done (q : Request) (s : Sys) (r : Except UsbError EndpointAddress) (s' : Sys) : Prop :=
  (s' = s ∧ ∃ err, r = .error err) ∨
    ∃ e : EpId, r = .ok e.address ∧ s' = s.allocated e q.maxPacketSize.toNat q.epType ∧
      s.HasStorage e.address ∧ s.ep e = none ∧ s.CanGrant q.maxPacketSize.toNat

/-- What can come of a request that returns. -/
theorem Request.cases {q : Request} {r : Except UsbError EndpointAddress} {o : List Obs}
    (h : s.WF) (hrun : run q.prog s = ⟨.ok r, s', o⟩) : q.Done s r s' := by
  have hend : ∀ {addr : EndpointAddress}, s.lookup addr = none →
      run (allocAt addr q.maxPacketSize.toNat q.epType) s = ⟨.ok r, s', o⟩ → q.Done s r s' := by
    intro addr hfree hrun
    rcases allocAt_cases h hfree hrun with ⟨rfl, hr⟩ | ⟨e, -, hdone⟩
    · exact Or.inl ⟨rfl, _, hr⟩
    · exact Or.inr ⟨e, hdone⟩
  obtain ⟨epDir, epAddr, epType, maxPacketSize⟩ := q
  cases epAddr with
  | some addr =>
    cases hl : s.lookup addr with
    | some ep =>
      have hrun' := run_request_taken h (by rw [hl]; rfl) epDir epType maxPacketSize
      obtain ⟨hr, rfl, -⟩ := Out.mk.inj (hrun'.symm.trans hrun)
      exact Or.inl ⟨rfl, _, (Res.ok.inj hr).symm⟩
    | none =>
      exact hend hl ((run_request_free h hl epDir epType maxPacketSize).symm.trans hrun)
  | none =>
    have hrun' : run (BusAdapter.allocFirst epDir epType maxPacketSize [1, 2, 3, 4, 5, 6, 7]) s =
      ⟨.ok r, s', o⟩ := hrun
    rcases run_allocFirst h epDir epType maxPacketSize [1, 2, 3, 4, 5, 6, 7] with
      ⟨-, hov⟩ | ⟨pre, n, post, -, -, hfree, hat⟩
    · obtain ⟨hr, rfl, -⟩ := Out.mk.inj (hov.symm.trans hrun')
      exact Or.inl ⟨rfl, _, (Res.ok.inj hr).symm⟩
    · exact hend hfree (hat.symm.trans hrun')

end Requests

/-- Booted states are idle. -/
theorem Booted.idle {s : Sys} (h : Booted s) : s.Idle := by
  induction h with
  | start h hrun => exact idle_start h hrun
  | alloc _ hrun ih =>
    rcases Request.cases ih.wf hrun with ⟨rfl, -⟩ | ⟨e, -, rfl, hs, hnone, hg⟩
    · exact ih
    · exact idle_allocated ih hs hnone hg _

/-- No half is enabled, and no toggle reset pending. -/
def Sys.CtrlZero (s : Sys) : Prop := ∀ e : EpId, s.reg e.ctrlReg = 0

/-- No interrupt is pending either when the driver has booted. -/
theorem Booted.registers {s : Sys} (h : Booted s) : s.reg .USBSTS = 0 ∧ s.CtrlZero := by
  induction h with
  | @start s s' speed obs h hrun =>
    obtain ⟨reg, hreg, -, -, -, -, -, -, hsts, hctrl⟩ := run_initializeDriver speed s
    rw [hreg] at hrun
    obtain ⟨-, rfl, -⟩ := Out.mk.inj hrun
    exact ⟨hsts, hctrl⟩
  | alloc hb hrun ih =>
    rcases Request.cases hb.idle.wf hrun with ⟨rfl, -⟩ | ⟨e, -, rfl, -⟩
    · exact ih
    · exact ih

theorem Booted.usbsts {s : Sys} (h : Booted s) : s.reg .USBSTS = 0 := h.registers.1

theorem Booted.ctrlZero {s : Sys} (h : Booted s) : s.CtrlZero := h.registers.2

/-! ## Reachable states -/

/-- The states of the running system. -/
def Reachable (s : Sys) : Prop := ∃ s₀ tr, Booted s₀ ∧ Run Step s₀ tr s

theorem Booted.reachable {s : Sys} (h : Booted s) : Reachable s := ⟨s, [], h, .nil⟩

theorem Reachable.run {s s' : Sys} {tr : Trace} (h : Reachable s) (hrun : Run Step s tr s') :
    Reachable s' := by
  obtain ⟨s₀, tr₀, hb, hr⟩ := h
  exact ⟨s₀, tr₀ ++ tr, hb, hr.trans hrun⟩

/-- The invariant holds throughout. -/
theorem Sys.WF.run {s s' : Sys} {tr : Trace} (h : s.WF) (hrun : Run Step s tr s') : s'.WF := by
  induction hrun with
  | nil => exact h
  | snoc _ hstep ih => exact (hstep.effect ih).wf

theorem Reachable.wf {s : Sys} (h : Reachable s) : s.WF := by
  obtain ⟨s₀, tr, hb, hr⟩ := h
  exact hb.idle.wf.run hr

/-- Which endpoints there are does not change. -/
theorem ep_run {s s' : Sys} {tr : Trace} (h : s.WF) (hrun : Run Step s tr s') (e : EpId) :
    s'.ep e = s.ep e := by
  induction hrun with
  | nil => rfl
  | snoc hr hstep ih => exact ((hstep.effect (h.run hr)).frame.ep e).trans ih

/-- Nothing is going on at the endpoint: no transfer is armed, none is
    complete, and none was signalled. -/
structure Sys.Quiet (s : Sys) (e : EpId) : Prop where
  primed : s.primed e = false
  completed : s.completed e = false
  signalled : s.driver.epOut.getLsbD e.num.val = false

theorem Booted.quiet {s : Sys} (h : Booted s) (e : EpId) : s.Quiet e := by
  obtain ⟨-, -, -, hstat, hcomp, -, hepo⟩ := h.idle
  refine ⟨?_, ?_, ?_⟩
  · rw [Sys.primed, hstat]
    exact BitVec.getLsbD_zero
  · rw [Sys.completed, hcomp]
    exact BitVec.getLsbD_zero
  · rw [hepo]
    exact BitVec.getLsbD_zero

end ImxrtUsbd
