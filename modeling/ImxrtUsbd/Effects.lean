/-
  ImxrtUsbd.Effects

  The effect of every primitive step: register writes, arming a transfer,
  storing to an endpoint's buffer, refreshing `ep_out`, and the steps of the
  controller.
-/
import ImxrtUsbd.View

namespace ImxrtUsbd

open Lib

/-! ## Descriptors -/

namespace Td

theorem totalBytes_armed (t : Td) (ptr : Nat) {size : Nat} (h : size < 2 ^ 15) :
    (t.armed ptr size).totalBytes = size := by
  show (TOKEN.TOTAL_BYTES.get _).toNat = size
  rw [armed, Field.get_set_of_disjoint _ _ _ _ (by decide),
    Field.get_set_of_disjoint _ _ _ _ (by decide), Field.get_set_self _ _ _ (by decide),
    BitVec.toNat_ofNat]
  show size % 2 ^ 32 % 2 ^ 15 = size
  omega

theorem errored_armed (t : Td) (ptr size : Nat) : (t.armed ptr size).errored = false := by
  -- `set_active` writes the whole status byte
  have hbit : ∀ j, j < 8 → (t.armed ptr size).token.getLsbD j = Status.ACTIVE.getLsbD j := by
    intro j hj
    have hHas : TOKEN.STATUS.Has j := ⟨Nat.zero_le j, by show j < 0 + 8; omega⟩
    rw [armed, Field.getLsbD_set _ _ _ (by omega), if_pos hHas]
    rfl
  rw [errored, hbit 3 (by omega), hbit 5 (by omega), hbit 6 (by omega)]
  decide

theorem describes_armed (t : Td) {ptr size mpl : Nat} (h : size ≤ mpl) (hmpl : mpl ≤ 1024) :
    (t.armed ptr size).Describes ptr mpl := by
  have hsize : (t.armed ptr size).lastTransferSize.toNat = size := by
    show (BitVec.ofNat 32 size).toNat = size
    rw [BitVec.toNat_ofNat]
    omega
  refine ⟨?_, ?_, ?_⟩
  · rw [totalBytes_armed t ptr (by omega), hsize]
  · rw [hsize]
    exact h
  · intro h0 i
    rw [hsize] at h0
    show (if size = 0 then 0 else pageWord ptr i.val) = pageWord ptr i.val
    rw [if_neg h0]

theorem totalBytes_lt (t : Td) : t.totalBytes < 2 ^ 15 := Field.get_toNat_lt _ _

theorem totalBytes_retire (t : Td) (k : Nat) (status : Word) :
    (t.retire k status).totalBytes = t.totalBytes - k := by
  have hlt := t.totalBytes_lt
  show (TOKEN.TOTAL_BYTES.get (TOKEN.STATUS.set _ _)).toNat = _
  rw [Field.get_set_of_disjoint _ _ _ _ (by decide), Field.get_set_self _ _ _ (by decide),
    BitVec.toNat_ofNat]
  show (t.totalBytes - k) % 2 ^ 32 % 2 ^ 15 = _
  omega

theorem errored_retire (t : Td) (k : Nat) (halted dataBuffer transaction : Bool) :
    (t.retire k (HwEvent.errorStatus halted dataBuffer transaction)).errored =
      (halted || dataBuffer || transaction) := by
  have hbit : ∀ status j, j < 8 → (t.retire k status).token.getLsbD j = status.getLsbD j := by
    intro status j hj
    have hHas : TOKEN.STATUS.Has j := ⟨Nat.zero_le j, by show j < 0 + 8; omega⟩
    rw [retire, Field.getLsbD_set _ _ _ (by omega), if_pos hHas]
    rfl
  rw [errored, hbit _ 3 (by omega), hbit _ 5 (by omega), hbit _ 6 (by omega)]
  revert halted dataBuffer transaction
  decide

theorem errored_retire_zero (t : Td) (k : Nat) : (t.retire k 0).errored = false :=
  errored_retire t k false false false

theorem Describes.retire {t : Td} {ptr mpl : Nat} (h : t.Describes ptr mpl) (k : Nat)
    (status : Word) : (t.retire k status).Describes ptr mpl where
  left_le := by
    rw [totalBytes_retire]
    exact Nat.le_trans (Nat.sub_le _ _) h.left_le
  size_le := h.size_le
  pointers := h.pointers

end Td

/-! ## Registers -/

namespace Sys

variable {s : Sys}

theorem primed_of_reg {s' : Sys} (h : s'.reg .ENDPTSTAT = s.reg .ENDPTSTAT) (e : EpId) :
    s'.primed e = s.primed e := by
  rw [primed, h, primed]

theorem completed_of_reg {s' : Sys} (h : s'.reg .ENDPTCOMPLETE = s.reg .ENDPTCOMPLETE) (e : EpId) :
    s'.completed e = s.completed e := by
  rw [completed, h, completed]

theorem WF.describes (h : s.WF) (e : EpId) (ep : Endpoint) (hep : s.ep e = some ep) :
    (s.td e.slot).Describes ep.buffer.ptr ep.packetLen :=
  (h.epOk e ep hep).td

/-- A register the invariant does not look into, except for the reset bit of
    `USBCMD`. -/
theorem Frame.setReg (s : Sys) {r : Reg} {v : Word} (hp : r ≠ .ENDPTPRIME)
    (hf : r ≠ .ENDPTFLUSH) (hc : r = .USBCMD → v.getLsbD 1 = false) :
    s.Frame (s.setReg r v) where
  alloc := rfl
  heap := rfl
  stack := rfl
  prime := reg_setReg_of_ne s v hp.symm
  flush := reg_setReg_of_ne s v hf.symm
  rst := by
    intro h
    by_cases hr : r = .USBCMD
    · subst hr
      rw [reg_setReg_self]
      exact hc rfl
    · rw [reg_setReg_of_ne s v (Ne.symm hr)]
      exact h
  mpl := fun _ => rfl

theorem reg_arm_of_ne (s : Sys) (e : EpId) (ptr size : Nat) {r : Reg} (h : r ≠ .ENDPTSTAT) :
    (s.arm e ptr size).reg r = s.reg r := by
  simp [arm, Function.update_of_ne h]

/-- A change of endpoint memory. -/
theorem Frame.mem (s : Sys) (m : Mem) : s.Frame { s with mem := m } :=
  ⟨rfl, rfl, rfl, rfl, rfl, id, fun _ => rfl⟩

end Sys

namespace Effect

variable {s : Sys}

/-- A register no view depends on. -/
theorem setReg (h : s.WF) {r : Reg} {v : Word}
    (hr : r ≠ .ENDPTSTAT ∧ r ≠ .ENDPTCOMPLETE ∧ r ≠ .ENDPTPRIME ∧ r ≠ .ENDPTFLUSH)
    (hc : r = .USBCMD → v.getLsbD 1 = false) : Effect s (fun _ => []) (s.setReg r v) [] := by
  obtain ⟨h1, h2, h3, h4⟩ := hr
  have hf : s.Frame (s.setReg r v) := .setReg s h3 h4 hc
  have hprimed : ∀ e, (s.setReg r v).primed e = s.primed e :=
    Sys.primed_of_reg (Sys.reg_setReg_of_ne s v h1.symm)
  have hcompleted : ∀ e, (s.setReg r v).completed e = s.completed e :=
    Sys.completed_of_reg (Sys.reg_setReg_of_ne s v h2.symm)
  refine quiet (h.of_frame hf h.describes fun e he => h.primed e ?_) hf ?_ ?_
  · rwa [hprimed] at he
  · intro e ep _
    simp only [Sys.view, EpView.acts_nil, hprimed, hcompleted, Sys.td_setReg, Sys.mem_setReg,
      Sys.driver_setReg]
  · simp

theorem raise (h : s.WF) {r : Reg} (m : Word) (hr : r ≠ .ENDPTSTAT ∧ r ≠ .ENDPTCOMPLETE ∧
    r ≠ .ENDPTPRIME ∧ r ≠ .ENDPTFLUSH) (hc : r ≠ .USBCMD) :
    Effect s (fun _ => []) (s.raise r m) [] :=
  setReg h hr fun he => absurd he hc

theorem lower (h : s.WF) {r : Reg} (m : Word) (hr : r ≠ .ENDPTSTAT ∧ r ≠ .ENDPTCOMPLETE ∧
    r ≠ .ENDPTPRIME ∧ r ≠ .ENDPTFLUSH) : Effect s (fun _ => []) (s.lower r m) [] := by
  refine setReg h hr fun he => ?_
  subst he
  rw [BitVec.getLsbD_and, h.rst, Bool.false_and]

/-- Clearing completion bits, of the endpoints that `p` holds for. -/
theorem lowerComplete (h : s.WF) (m : Word) (p : EpId → Prop) [DecidablePred p]
    (hm : ∀ e, s.completed e = true → (m.getLsbD e.bit = true ↔ p e)) :
    Effect s (fun e => if p e then [.ack] else []) (s.lower .ENDPTCOMPLETE m) [] := by
  have hf : s.Frame (s.lower .ENDPTCOMPLETE m) := .setReg s (by simp) (by simp) (by simp)
  have hprimed : ∀ e, (s.lower .ENDPTCOMPLETE m).primed e = s.primed e :=
    Sys.primed_of_reg (Sys.reg_lower_of_ne s m (by simp))
  have hcompleted : ∀ e, (s.lower .ENDPTCOMPLETE m).completed e =
      (s.completed e && !decide (p e)) :=
    fun e => s.getLsbD_lower _ m (p e) (hm e)
  refine quiet (h.of_frame hf h.describes fun e he => h.primed e ?_) hf ?_ ?_
  · rwa [hprimed] at he
  · intro e ep _
    simp only [Sys.view, hprimed, hcompleted, Sys.td_lower, Sys.mem_lower, Sys.driver_lower]
    by_cases hpe : p e <;> simp [hpe, EpView.act]
  · intro e size hmem
    split at hmem <;> simp at hmem

/-- Taking transfers back, of the endpoints that `p` holds for. -/
theorem lowerStat (h : s.WF) (m : Word) (p : EpId → Prop) [DecidablePred p]
    (hm : ∀ e, s.primed e = true → (m.getLsbD e.bit = true ↔ p e)) :
    Effect s (fun e => if p e then [.unprime] else []) (s.lower .ENDPTSTAT m) [] := by
  have hf : s.Frame (s.lower .ENDPTSTAT m) := .setReg s (by simp) (by simp) (by simp)
  have hcompleted : ∀ e, (s.lower .ENDPTSTAT m).completed e = s.completed e :=
    Sys.completed_of_reg (Sys.reg_lower_of_ne s m (by simp))
  have hprimed : ∀ e, (s.lower .ENDPTSTAT m).primed e = (s.primed e && !decide (p e)) :=
    fun e => s.getLsbD_lower _ m (p e) (hm e)
  refine quiet (h.of_frame hf h.describes fun e he => h.primed e ?_) hf ?_ ?_
  · rw [hprimed, Bool.and_eq_true] at he
    exact he.1
  · intro e ep _
    simp only [Sys.view, hprimed, hcompleted, Sys.td_lower, Sys.mem_lower, Sys.driver_lower]
    by_cases hpe : p e <;> simp [hpe, EpView.act]
  · intro e size hmem
    split at hmem <;> simp at hmem

/-- Clearing one endpoint's completion bit. -/
theorem ack (h : s.WF) (f : EpId) :
    Effect s (only f [.ack]) (s.lower .ENDPTCOMPLETE f.mask) [] := by
  refine lowerComplete h f.mask (· = f) fun e _ => ?_
  rw [EpId.getLsbD_mask, decide_eq_true_eq, EpId.bit_inj]

theorem frame_arm (s : Sys) (f : EpId) (ptr size : Nat) : s.Frame (s.arm f ptr size) := by
  refine ⟨rfl, rfl, rfl, ?_, ?_, ?_, fun e => ?_⟩
  · exact s.reg_arm_of_ne f _ _ (by simp)
  · exact s.reg_arm_of_ne f _ _ (by simp)
  · intro hr
    rwa [s.reg_arm_of_ne f _ _ (by simp)]
  · -- arming keeps the capabilities of the queue head
    have hqh : (s.arm f ptr size).qh e.slot = _ := EpId.update_slot s.qh e f _
    rw [Sys.maxPacketLen, hqh]
    split
    · rename_i he
      rw [he]
      rfl
    · rfl

/-- Arming a transfer. -/
theorem arm (h : s.WF) {f : EpId} {ep : Endpoint} (hf : s.ep f = some ep) {size : Nat}
    (hsize : size ≤ ep.packetLen) :
    Effect s (only f [.schedule size]) (s.arm f ep.buffer.ptr size) (s.armObs f) := by
  have hmpl : ep.packetLen ≤ 1024 := Nat.min_le_right _ _
  have hframe := frame_arm s f ep.buffer.ptr size
  -- the descriptor of `f` alone, and its prime bit
  have htd : ∀ e, (s.arm f ep.buffer.ptr size).td e.slot =
      if e = f then (s.td f.slot).armed ep.buffer.ptr size else s.td e.slot :=
    fun e => EpId.update_slot s.td e f _
  have hprimed : ∀ e, (s.arm f ep.buffer.ptr size).primed e = (s.primed e || decide (e = f)) := by
    intro e
    simp only [Sys.primed, Sys.arm, Function.update_self, BitVec.getLsbD_or, EpId.getLsbD_mask,
      EpId.bit_inj]
  have hcompleted : ∀ e, (s.arm f ep.buffer.ptr size).completed e = s.completed e :=
    Sys.completed_of_reg (s.reg_arm_of_ne f _ _ (by simp))
  refine ⟨h.of_frame hframe ?_ ?_, hframe, ?_, ?_, ?_⟩
  · intro e ep' he
    rw [htd]
    by_cases hef : e = f
    · subst hef
      obtain rfl : ep = ep' := Option.some.inj (hf.symm.trans he)
      rw [if_pos rfl]
      exact Td.describes_armed _ hsize hmpl
    · rw [if_neg hef]
      exact h.describes e ep' he
  · intro e he
    rw [hprimed, Bool.or_eq_true, decide_eq_true_eq] at he
    rcases he with he | rfl
    · exact h.primed e he
    · rw [hf]
      rfl
  · intro e ep' he
    by_cases hef : e = f
    · subst hef
      have hlast : ((s.td e.slot).armed ep.buffer.ptr size).lastTransferSize.toNat = size := by
        show (BitVec.ofNat 32 size).toNat = size
        rw [BitVec.toNat_ofNat]
        omega
      simp only [Sys.view, hprimed, hcompleted, htd, if_true, only_self, EpView.acts_cons,
        EpView.acts_nil, EpView.act, hlast, Td.errored_armed,
        Td.totalBytes_armed _ _ (show size < 2 ^ 15 by omega)]
      simp [Sys.arm]
    · simp only [Sys.view, hprimed, hcompleted, htd, if_neg hef, only_of_ne hef, EpView.acts_nil]
      simp [Sys.arm, hef]
  · -- the one prime it shows is its own
    intro bits stat hmem
    obtain ⟨rfl, rfl⟩ : bits = f.mask ∧ stat = s.reg .ENDPTSTAT := by
      simpa [Sys.armObs] using hmem
    exact ⟨f, ep, [], size, [], rfl, hf, by simp, rfl⟩
  · intro e ep' n he hmem
    by_cases hef : e = f
    · subst hef
      exact ⟨_, List.mem_singleton.mpr rfl⟩
    · rw [only_of_ne hef] at hmem
      simp at hmem

/-- Storing to the front of an endpoint's buffer. -/
theorem fill (h : s.WF) {f : EpId} {ep : Endpoint} (hf : s.ep f = some ep) {data : List Byte}
    (hlen : data.length ≤ ep.buffer.len) :
    Effect s (only f [.fill data]) { s with mem := s.mem.store ep.buffer.ptr data } [] := by
  have hframe := Sys.Frame.mem s (s.mem.store ep.buffer.ptr data)
  refine quiet (h.of_frame hframe h.describes h.primed) hframe ?_ ?_
  · intro e ep' he
    by_cases hef : e = f
    · subst hef
      obtain rfl : ep = ep' := Option.some.inj (hf.symm.trans he)
      simp only [Sys.view, only_self, EpView.acts_cons, EpView.acts_nil, EpView.act,
        Mem.load_store_front _ _ hlen]
      rfl
    · -- the other endpoint's buffer lies elsewhere
      have hdis := h.apart e f ep' ep hef he hf
      have hload : (s.mem.store ep.buffer.ptr data).load ep'.buffer.ptr ep'.buffer.len =
          s.mem.load ep'.buffer.ptr ep'.buffer.len :=
        Mem.load_store_of_disjoint _ (by omega)
      simp only [Sys.view, only_of_ne hef, EpView.acts_nil, hload]
      rfl
  · intro e size hmem
    simpa using mem_of_mem_only hmem

/-- Refreshing `ep_out`. -/
theorem setEpOut (h : s.WF) (v : BitVec 16) :
    Effect s (fun e => [.signal (v.getLsbD e.num)])
      { s with driver := { s.driver with epOut := v } } [] := by
  have hframe : s.Frame { s with driver := { s.driver with epOut := v } } :=
    ⟨rfl, rfl, rfl, rfl, rfl, id, fun _ => rfl⟩
  refine quiet (h.of_frame hframe h.describes h.primed) hframe ?_ ?_
  · intro e ep _
    rfl
  · simp

/-- Rewriting capabilities without changing the maximum packet length. -/
theorem setCapabilities (h : s.WF) (i : Nat) {v : Word}
    (hv : CAPABILITIES.MAXIMUM_PACKET_LENGTH.get v =
      CAPABILITIES.MAXIMUM_PACKET_LENGTH.get (s.qh i).capabilities) :
    Effect s (fun _ => [])
      { s with qh := Function.update s.qh i { s.qh i with capabilities := v } } [] := by
  have hframe : s.Frame
      { s with qh := Function.update s.qh i { s.qh i with capabilities := v } } := by
    refine ⟨rfl, rfl, rfl, rfl, rfl, id, fun e => ?_⟩
    by_cases he : e.slot = i
    · subst he
      simp [Sys.maxPacketLen, hv]
    · simp [Sys.maxPacketLen, Function.update_of_ne he]
  exact quiet (h.of_frame hframe h.describes h.primed) hframe (fun _ _ _ => rfl) (by simp)

/-- A packet in the setup buffer. -/
theorem setSetup (h : s.WF) (packet : BitVec 64) :
    Effect s (fun _ => [])
      { s with qh := Function.update s.qh 0 { s.qh 0 with setup := packet } } [] := by
  have hframe : s.Frame
      { s with qh := Function.update s.qh 0 { s.qh 0 with setup := packet } } := by
    refine ⟨rfl, rfl, rfl, rfl, rfl, id, fun e => ?_⟩
    by_cases he : e.slot = 0
    · simp [Sys.maxPacketLen, he]
    · simp [Sys.maxPacketLen, Function.update_of_ne he]
  exact quiet (h.of_frame hframe h.describes h.primed) hframe (fun _ _ _ => rfl) (by simp)

/-- Taking one endpoint's transfer back and writing its descriptor. -/
theorem retire (h : s.WF) (f : EpId) (k : Nat) {status : Word} {err : Bool}
    (herr : ((s.td f.slot).retire k status).errored = err) :
    Effect s (only f [.retire k err]) (HwEvent.retire s f k status) [] := by
  have hframe : s.Frame (HwEvent.retire s f k status) := by
    refine ⟨rfl, rfl, rfl, ?_, ?_, ?_, fun _ => rfl⟩
    · exact Sys.reg_lower_of_ne _ _ (by simp)
    · exact Sys.reg_lower_of_ne _ _ (by simp)
    · intro hr
      rw [← hr]
      exact congrArg (BitVec.getLsbD · 1) (Sys.reg_lower_of_ne _ _ (by simp))
  -- the descriptor of `f` alone, and its prime bit
  have htd : ∀ e, (HwEvent.retire s f k status).td e.slot =
      if e = f then (s.td f.slot).retire k status else s.td e.slot :=
    fun e => EpId.update_slot s.td e f _
  have hprimed : ∀ e, (HwEvent.retire s f k status).primed e =
      (s.primed e && !decide (e = f)) := by
    intro e
    refine Sys.getLsbD_lower _ _ f.mask (e = f) fun _ => ?_
    rw [EpId.getLsbD_mask, decide_eq_true_eq, EpId.bit_inj]
  have hcompleted : ∀ e, (HwEvent.retire s f k status).completed e = s.completed e :=
    Sys.completed_of_reg (Sys.reg_lower_of_ne _ _ (by simp))
  refine quiet (h.of_frame hframe ?_ ?_) hframe ?_ ?_
  · intro e ep he
    rw [htd]
    by_cases hef : e = f
    · subst hef
      rw [if_pos rfl]
      exact (h.describes e ep he).retire k status
    · rw [if_neg hef]
      exact h.describes e ep he
  · intro e he
    rw [hprimed, Bool.and_eq_true] at he
    exact h.primed e he.1
  · intro e ep _
    by_cases hef : e = f
    · subst hef
      simp only [Sys.view, hprimed, hcompleted, htd, if_true, only_self, EpView.acts_cons,
        EpView.acts_nil, EpView.act, herr, Td.totalBytes_retire]
      simp [HwEvent.retire, Td.retire]
    · simp only [Sys.view, hprimed, hcompleted, htd, if_neg hef, only_of_ne hef, EpView.acts_nil]
      simp [HwEvent.retire, hef]
  · intro e size hmem
    simpa using mem_of_mem_only hmem

/-- Setting one endpoint's completion bit. -/
theorem complete (h : s.WF) (f : EpId) :
    Effect s (only f [.complete]) (s.raise .ENDPTCOMPLETE f.mask) [] := by
  have hframe : s.Frame (s.raise .ENDPTCOMPLETE f.mask) := .setReg s (by simp) (by simp) (by simp)
  have hprimed : ∀ e, (s.raise .ENDPTCOMPLETE f.mask).primed e = s.primed e :=
    Sys.primed_of_reg (Sys.reg_setReg_of_ne s _ (by simp))
  have hcompleted : ∀ e, (s.raise .ENDPTCOMPLETE f.mask).completed e =
      (s.completed e || decide (e = f)) := by
    intro e
    rw [Sys.completed, Sys.raise, Sys.reg_setReg_self, BitVec.getLsbD_or, EpId.getLsbD_mask]
    simp only [EpId.bit_inj]
    rfl
  refine quiet (h.of_frame hframe h.describes fun e he => h.primed e ?_) hframe ?_ ?_
  · rwa [hprimed] at he
  · intro e ep _
    simp only [Sys.view, hprimed, hcompleted]
    by_cases hef : e = f
    · subst hef
      simp [EpView.act, Sys.raise]
    · simp [hef, only_of_ne hef, Sys.raise]
  · intro e size hmem
    simpa using mem_of_mem_only hmem

end Effect

/-! ## The steps of the controller -/

/-- Received bytes go where the buffer is. -/
theorem dmaAddr_eq {t : Td} {ptr : Nat} (hptr : ptr < 0xE0000000)
    (ht : ∀ i, t.bufferPointers i = pageWord ptr i.val) {i : Nat} (hi : i < 16384) :
    t.dmaAddr i = ptr + i := by
  have h0 : (t.bufferPointers 0).toNat = ptr := by
    rw [ht]
    show (BitVec.ofNat 32 ptr).toNat = ptr
    rw [BitVec.toNat_ofNat]
    omega
  unfold Td.dmaAddr
  rw [h0]
  show (if ptr % 4096 + i < 4096 then ptr + i else _) = ptr + i
  split
  · rfl
  · rename_i hpos
    -- page `k` of the transfer, for `k` from 1 to 4
    obtain ⟨k, hk⟩ : ∃ k, (ptr % 4096 + i) / 4096 = k + 1 :=
      ⟨(ptr % 4096 + i) / 4096 - 1, by omega⟩
    have hk5 : k + 1 < 5 := by omega
    have hv : (Fin.ofNat 5 (k + 1)).val = k + 1 := Nat.mod_eq_of_lt hk5
    rw [hk, ht, hv, toNat_pageWord_succ hptr (by omega)]
    omega

/-- A packet is stored in one piece. -/
theorem dmaStore_eq {t : Td} {ptr : Nat} (hptr : ptr < 0xE0000000)
    (ht : ∀ i, t.bufferPointers i = pageWord ptr i.val) (data : List Byte) (m : Mem) (i : Nat)
    (hi : i + data.length ≤ 16384) : dmaStore t m i data = m.store (ptr + i) data := by
  induction data generalizing m i with
  | nil => rfl
  | cons b bs ih =>
    rw [List.length_cons] at hi
    rw [dmaStore, dmaAddr_eq hptr ht (by omega), ih _ _ (by omega)]
    rfl

/-- A packet that fits goes to the front of the buffer described. -/
theorem dmaStore_describes {t : Td} {ptr mpl : Nat} (hptr : ptr < 0xE0000000) (hmpl : mpl ≤ 1024)
    (ht : t.Describes ptr mpl) {data : List Byte} (hlen : data.length ≤ t.totalBytes) (m : Mem) :
    dmaStore t m 0 data = m.store ptr data := by
  have := ht.left_le
  have := ht.size_le
  by_cases h0 : data = []
  · -- an endpoint armed for the empty packet has no page pointers
    subst h0
    rfl
  · have hpos : 0 < data.length := List.length_pos_iff.mpr h0
    exact dmaStore_eq hptr (ht.pointers (by omega)) data m 0 (by omega)

/-- What a step of the controller does to the endpoints. -/
def HwEvent.acts : HwEvent → EpId → List EpAct
  | .outDone n data => only ⟨.Out, n⟩ [.fill data, .retire data.length false, .complete]
  | .inDone n k => only ⟨.In, n⟩ [.retire k false, .complete]
  | .error e _ _ _ => only e [.retire 0 true]
  | .setup _ => fun e => if e = .ep0Out ∨ e = .ep0In then [.unprime] else []
  | .nak _ | .resetBegin | .resetEnd => fun _ => []

/-- The controller acknowledges nothing. -/
theorem HwEvent.ack_not_mem (ev : HwEvent) (e : EpId) : .ack ∉ ev.acts e := by
  cases ev with
  | outDone | inDone | error => exact fun hm => by simpa using mem_of_mem_only hm
  | setup packet => simp only [HwEvent.acts]; split_ifs <;> simp
  | nak | resetBegin | resetEnd => simp [HwEvent.acts]

theorem only_append (f : EpId) (as bs : List EpAct) (e : EpId) :
    only f as e ++ only f bs e = only f (as ++ bs) e := by
  unfold only
  split <;> rfl

/-- The controller's steps keep the invariant, and touch the endpoints they are about. -/
theorem HwEvent.effect {s : Sys} (h : s.WF) {ev : HwEvent} (hev : ev.Enabled s) :
    Effect s ev.acts (ev.apply s) [] := by
  cases ev with
  | outDone n data =>
    obtain ⟨hp, hlen⟩ := hev
    -- a primed endpoint is allocated, and its descriptor describes its buffer
    obtain ⟨ep, hep⟩ := Option.isSome_iff_exists.mp (h.primed _ hp)
    have hd := h.describes _ ep hep
    have hok := h.epOk _ ep hep
    have hle : data.length ≤ ep.packetLen := hlen.trans (hd.left_le.trans hd.size_le)
    have hmin : ep.packetLen ≤ ep.buffer.len ∧ ep.packetLen ≤ 1024 :=
      ⟨Nat.min_le_left _ _, Nat.min_le_right _ _⟩
    have hptr : ep.buffer.ptr < 0xE0000000 := by
      have := hok.inPlace.ptr_lt
      omega
    have hdma := dmaStore_describes hptr hmin.2 hd hlen s.mem
    have hfill := Effect.fill h hep (hle.trans hmin.1)
    have hret := Effect.retire hfill.wf ⟨.Out, n⟩ data.length (Td.errored_retire_zero _ _)
    have hcom := Effect.complete hret.wf ⟨.Out, n⟩
    have hui := Effect.raise hcom.wf (r := .USBSTS) (USBSTS.UI.put 1) (by simp) (by simp)
    rw [← hdma] at hfill hret hcom hui
    exact (((hfill.trans hret).trans hcom).trans hui).congr fun e => by
      rw [only_append, only_append, List.append_nil]
      rfl
  | inDone n k =>
    have hret := Effect.retire h ⟨.In, n⟩ k (Td.errored_retire_zero _ _)
    have hcom := Effect.complete hret.wf ⟨.In, n⟩
    have hui := Effect.raise hcom.wf (r := .USBSTS) (USBSTS.UI.put 1) (by simp) (by simp)
    exact ((hret.trans hcom).trans hui).congr fun e => by
      rw [only_append, List.append_nil]
      rfl
  | error e halted dataBuffer transaction =>
    have herr := Td.errored_retire (s.td e.slot) 0 halted dataBuffer transaction
    rw [hev.2] at herr
    have hret := Effect.retire h e 0 herr
    have hui := Effect.raise hret.wf (r := .USBSTS) (USBSTS.UI.put 1 ||| USBSTS.UEI.put 1)
      (by simp) (by simp)
    exact (hret.trans hui).congr fun e => by rw [List.append_nil]; rfl
  | setup packet =>
    have hpacket := Effect.setSetup h packet
    have hstat := Effect.lowerStat hpacket.wf (EpId.ep0Out.mask ||| EpId.ep0In.mask)
      (fun e => e = .ep0Out ∨ e = .ep0In) fun e _ => by
        rw [BitVec.getLsbD_or, EpId.getLsbD_mask, EpId.getLsbD_mask, Bool.or_eq_true,
          decide_eq_true_eq, decide_eq_true_eq, EpId.bit_inj, EpId.bit_inj]
    have hsetup := Effect.raise hstat.wf (r := .ENDPTSETUPSTAT) 1 (by simp) (by simp)
    have hsutw := Effect.lower hsetup.wf (r := .USBCMD) (USBCMD.SUTW.put 1) (by simp)
    have hui := Effect.raise hsutw.wf (r := .USBSTS) (USBSTS.UI.put 1) (by simp) (by simp)
    exact ((((hpacket.trans hstat).trans hsetup).trans hsutw).trans hui).congr fun e => by
      rw [List.nil_append, List.append_nil, List.append_nil, List.append_nil]
      rfl
  | nak e => exact Effect.raise h _ (by simp) (by simp)
  | resetBegin =>
    have huri := Effect.raise h (r := .USBSTS) (USBSTS.URI.put 1) (by simp) (by simp)
    have hpr := Effect.raise huri.wf (r := .PORTSC1) (PORTSC1.PR.put 1) (by simp) (by simp)
    exact (huri.trans hpr).trans (Effect.setReg hpr.wf (by simp) (by simp))
  | resetEnd => exact Effect.lower h _ (by simp)

end ImxrtUsbd
