/-
  ImxrtUsbd.Settings

  What an endpoint was told last.  Three parts of the hardware state belong to
  the settings of an endpoint: its half of the control register, the word of
  its queue head that the controller reads before a transfer, and the reset
  flag of the port, which is not of one endpoint alone.

  Each is what the latest call or event to set it made of it, over any run
  (`half_as_told`, `capabilities_as_told`), so that the driver's answers are
  about the history: `stall_answered` for `is_stalled`, `reset_answered` for the
  resets that `poll` reports.
-/
import ImxrtUsbd.EndpointControl
import ImxrtUsbd.Replay
import ImxrtUsbd.Lib.Latest

namespace ImxrtUsbd

open Lib

/-! ## What sets what -/

namespace Label

/-- `set_stalled` sets the stall bit of the address it is given. -/
def stalls (e : EpId) : Label → Option Bool
  | .call (.setStalled addr stalled) _ _ => if addr = e.address then some stalled else none
  | _ => none

/-- A bus reset disables the endpoints, `configure` enables them. -/
def enables : Label → Option Bool
  | .call (.reset _) _ _ => some false
  | .call .configure _ _ => some true
  | _ => none

/-- The type that goes with it. -/
def types (kind : EndpointType) (l : Label) : Option Word :=
  l.enables.map fun b => intoRawEndpointType (if b then kind else .Bulk)

/-- `enable_zlt` lets the controller terminate transfers with empty packets. -/
def terminates (e : EpId) : Label → Option Bool
  | .call (.enableZlt addr) _ _ => if addr = e.address then some true else none
  | _ => none

/-- The host resets the bus, and `poll` tells. -/
def resets : Label → Option Bool
  | .hw .resetBegin => some true
  | .call .poll (.poll .Reset) _ => some false
  | _ => none

end Label

/-! ## The control register -/

section Control

variable {s s' : Sys} {l : Label} {e : EpId} {ep : Endpoint}

theorem control_setStalled {addr : EndpointAddress} {stalled : Bool} {r : Ret} {o : List Obs}
    (h : s.WF) (hep : s.ep e = some ep)
    (hrun : run (Call.setStalled addr stalled).prog s = ⟨.ok r, s', o⟩) :
    s'.control e =
      if addr = e.address then (ControlOp.stall stalled).apply (s.control e) else s.control e := by
  obtain ⟨halloc, rfl, -⟩ | ⟨f, fp, rfl, hfp, hcases⟩ := setStalled_leaves h hrun
  · have hne : addr ≠ e.address := by
      rintro rfl
      rw [Sys.lookup_address, hep] at halloc
      simp at halloc
    rw [if_neg hne]
  · have hstall : (s.setStall f stalled).control e = if f.address = e.address then
        (ControlOp.stall stalled).apply (s.control e) else s.control e := by
      rw [s.setStall_eq, control_modifyCtrl]
      by_cases hfe : e = f
      · subst hfe
        rw [if_pos rfl, if_pos rfl]
      · rw [if_neg hfe, if_neg fun ha => hfe (EpId.address_inj.mp ha).symm]
    obtain ⟨-, rfl, -⟩ | ⟨-, rfl, -⟩ := hcases
    · rw [Sys.control_congr (ctrlReg_arm _ f _ _ e), hstall]
    · exact hstall

/-- Every step sets the parts of a half or leaves them alone. -/
theorem Step.control_eq (h : s.WF) (hep : s.ep e = some ep) (h0 : e.num.val ≠ 0)
    (hstep : Step s l s') :
    s'.control e = ⟨(l.stalls e).getD (s.control e).stall,
      (l.types ep.kind).getD (s.control e).type, l.enables.getD (s.control e).enable⟩ := by
  cases hstep with
  | @hw ev hev => exact Sys.control_congr (ev.reg_ctrl s e.isCtrl_ctrlReg)
  | @call c r _ obs hrun =>
    cases c with
    | setStalled addr stalled =>
      rw [control_setStalled h hep hrun, Label.stalls]
      split <;> rfl
    | reset debugAssertions =>
      obtain ⟨rfl, -⟩ := reset_leaves h hrun
      rw [control_reset, Sys.turn_some hep h0]
      rfl
    | configure =>
      obtain ⟨rfl, -⟩ := configure_leaves h hrun
      rw [control_configured, Sys.turn_some hep h0]
      rfl
    | poll | read | write | isStalled | setDeviceAddress | enable | enableZlt | setInterrupts =>
      -- the other calls write no control register
      refine (Sys.control_congr (Call.reg_kept h ?_ ?_ hrun)).trans rfl <;>
        rcases e.ctrlReg_cases with hr | ⟨i, hr⟩ <;> rw [hr] <;> simp [Call.writes]

/-- Over a run, what the latest calls to set them made of them. -/
theorem control_run {s₀ : Sys} {tr : Trace} (h : s₀.WF) (hrun : Run Step s₀ tr s)
    (hep : s₀.ep e = some ep) (h0 : e.num.val ≠ 0) :
    s.control e = ⟨latest (fun x => x.2.stalls e) (s₀.control e).stall tr,
      latest (fun x => x.2.types ep.kind) (s₀.control e).type tr,
      latest (fun x => x.2.enables) (s₀.control e).enable tr⟩ := by
  have hkeep : ∀ s l s', (s.WF ∧ s.ep e = some ep) → Step s l s' → s'.WF ∧ s'.ep e = some ep :=
    fun _ _ _ hI hs => ⟨hs.wf hI.1, (hs.ep_eq hI.1 e).trans hI.2⟩
  rw [← hrun.latest (I := fun s => s.WF ∧ s.ep e = some ep) ⟨h, hep⟩ hkeep
      fun _ _ _ hI hs => congrArg HalfControl.stall (hs.control_eq hI.1 hI.2 h0),
    ← hrun.latest (I := fun s => s.WF ∧ s.ep e = some ep) ⟨h, hep⟩ hkeep
      fun _ _ _ hI hs => congrArg HalfControl.type (hs.control_eq hI.1 hI.2 h0),
    ← hrun.latest (I := fun s => s.WF ∧ s.ep e = some ep) ⟨h, hep⟩ hkeep
      fun _ _ _ hI hs => congrArg HalfControl.enable (hs.control_eq hI.1 hI.2 h0)]

theorem Booted.control (h : Booted s) (e : EpId) : s.control e = .off := by
  rw [Sys.control, Sys.halfType, h.ctrlZero e]
  simp [HalfControl.off]

end Control

/-! ## The queue head -/

/-- The word of the queue head that the controller reads first. -/
def Sys.capabilities (s : Sys) (i : Nat) : Word := (s.qh i).capabilities

section Capabilities

variable {s s' : Sys} {l : Label} {e : EpId} {ep : Endpoint} {o : List Obs}

@[simp] theorem capabilities_arm (s : Sys) (e : EpId) (ptr size i : Nat) :
    (s.arm e ptr size).capabilities i = s.capabilities i := by
  by_cases hi : i = e.slot
  · subst hi
    simp [Sys.capabilities, Sys.arm, Qh.armed]
  · simp [Sys.capabilities, Sys.arm, hi]

@[simp] theorem capabilities_lower (s : Sys) (r : Reg) (v : Word) (i : Nat) :
    (s.lower r v).capabilities i = s.capabilities i := rfl

@[simp] theorem capabilities_modifyCtrl (s : Sys) (e : EpId) (fs : List (Field × Word)) (i : Nat) :
    (s.modifyCtrl e fs).capabilities i = s.capabilities i := rfl

@[simp] theorem capabilities_rearm (s : Sys) (e : EpId) (ep : Endpoint) (size i : Nat) :
    (s.rearm e ep size).capabilities i = s.capabilities i :=
  capabilities_arm _ e _ _ i

@[simp] theorem capabilities_send (s : Sys) (e : EpId) (ep : Endpoint) (buf : List Byte) (i : Nat) :
    (s.send e ep buf).capabilities i = s.capabilities i :=
  capabilities_arm _ e _ _ i

@[simp] theorem capabilities_takeSetup (s : Sys) (i : Nat) :
    s.takeSetup.capabilities i = s.capabilities i := rfl

theorem capabilities_reset (s : Sys) (i : Nat) : s.reset.capabilities i = s.capabilities i := by
  refine Sys.pass_invariant (I := fun t => t.capabilities i = s.capabilities i)
    (fun t f fp _ ht => ?_) rfl
  exact ht

theorem capabilities_configured (s : Sys) (i : Nat) :
    s.configured.capabilities i = s.capabilities i := by
  have hena : s.enableAll.capabilities i = s.capabilities i := by
    refine Sys.pass_invariant (I := fun t => t.capabilities i = s.capabilities i)
      (fun t f fp _ ht => ?_) rfl
    rw [Sys.enableTurn, t.enableEp_eq, capabilities_modifyCtrl, ht]
  refine Sys.pass_invariant (I := fun t => t.capabilities i = s.capabilities i)
    (fun t f fp _ ht => ?_) hena
  unfold Sys.primeTurn
  split
  · rw [capabilities_arm, ht]
  · exact ht

theorem capabilities_read {addr : EndpointAddress} {buf : List Byte} {i : Nat} {r : Ret}
    (h : s.WF) (hrun : run (Call.read addr buf).prog s = ⟨.ok r, s', o⟩) :
    s'.capabilities i = s.capabilities i := by
  obtain ⟨-, rfl, -⟩ | ⟨e, ep, -, -, hcases⟩ := read_leaves h hrun
  · rfl
  · obtain ⟨-, ⟨-, rfl, -⟩ | ⟨-, -, rfl⟩⟩ | ⟨-, ⟨-, rfl, -⟩ | ⟨-, rfl, -⟩⟩ := hcases
    · rw [capabilities_takeSetup]
    · rw [capabilities_arm, capabilities_lower, capabilities_takeSetup]
    · rw [capabilities_rearm]
    · rfl

theorem capabilities_write {addr : EndpointAddress} {buf : List Byte} {i : Nat} {r : Ret}
    (h : s.WF) (hrun : run (Call.write addr buf).prog s = ⟨.ok r, s', o⟩) :
    s'.capabilities i = s.capabilities i := by
  obtain ⟨rfl, -⟩ | ⟨e, ep, -, rfl, -⟩ | ⟨ep, epo, -, -, rfl, -⟩ := write_leaves h hrun
  · rfl
  · rw [capabilities_send]
  · rw [capabilities_rearm, capabilities_send]

theorem capabilities_setStalled {addr : EndpointAddress} {stalled : Bool} {i : Nat} {r : Ret}
    (h : s.WF) (hrun : run (Call.setStalled addr stalled).prog s = ⟨.ok r, s', o⟩) :
    s'.capabilities i = s.capabilities i := by
  obtain ⟨-, rfl, -⟩ | ⟨e, ep, -, -, hcases⟩ := setStalled_leaves h hrun
  · rfl
  · have hstall : (s.setStall e stalled).capabilities i = s.capabilities i := rfl
    obtain ⟨-, rfl, -⟩ | ⟨-, rfl, -⟩ := hcases
    · rw [capabilities_arm, hstall]
    · exact hstall

/-- `enable_zlt` clears the bit of the endpoint at the address. -/
theorem capabilities_enableZlt {addr : EndpointAddress} {r : Ret} (h : s.WF)
    (hep : s.ep e = some ep) (hrun : run (Call.enableZlt addr).prog s = ⟨.ok r, s', o⟩) :
    s'.capabilities e.slot = if addr = e.address then CAPABILITIES.ZLT.set 0
      (s.capabilities e.slot) else s.capabilities e.slot := by
  obtain ⟨-, ⟨halloc, rfl⟩ | ⟨f, fp, rfl, -, rfl⟩⟩ := enableZlt_leaves h hrun
  · have hne : addr ≠ e.address := by
      rintro rfl
      rw [Sys.lookup_address, hep] at halloc
      simp at halloc
    rw [if_neg hne]
  · by_cases hfe : f = e
    · subst hfe
      rw [if_pos rfl]
      simp [Sys.capabilities]
    · have hs : e.slot ≠ f.slot := fun hs => hfe (EpId.slot_inj.mp hs).symm
      rw [if_neg fun ha => hfe (EpId.address_inj.mp ha)]
      simp [Sys.capabilities, hs]

/-- No step but `enable_zlt` touches the word. -/
theorem Step.capabilities_eq (h : s.WF) (hep : s.ep e = some ep) (hstep : Step s l s') :
    s'.capabilities e.slot = (if (l.terminates e).isSome then CAPABILITIES.ZLT.set 0
      (s.capabilities e.slot) else s.capabilities e.slot) := by
  cases hstep with
  | @hw ev hev =>
    cases ev with
    | setup packet =>
      -- the packet is stored in the same queue head, beside the word
      show (Function.update s.qh 0 { s.qh 0 with setup := packet } e.slot).capabilities = _
      by_cases h0 : e.slot = 0
      · rw [h0, Function.update_self]
        rfl
      · rw [Function.update_of_ne h0]
        rfl
    | outDone | inDone | error | nak | resetBegin | resetEnd => rfl
  | @call c r _ obs hrun =>
    cases c with
    | enableZlt addr =>
      rw [capabilities_enableZlt h hep hrun, Label.terminates]
      by_cases ha : addr = e.address
      · rw [if_pos ha, if_pos ha]
        rfl
      · rw [if_neg ha, if_neg ha]
        rfl
    | read addr buf => exact capabilities_read h hrun
    | write addr buf => exact capabilities_write h hrun
    | setStalled addr stalled => exact capabilities_setStalled h hrun
    | isStalled addr =>
      obtain ⟨-, rfl, -⟩ := isStalled_leaves h hrun
      rfl
    | reset debugAssertions =>
      obtain ⟨rfl, -⟩ := reset_leaves h hrun
      exact capabilities_reset s _
    | configure =>
      obtain ⟨rfl, -⟩ := configure_leaves h hrun
      exact capabilities_configured s _
    | poll =>
      obtain ⟨-, ⟨-, -, rfl⟩ | ⟨-, -, -, rfl⟩ | ⟨-, -, -, rfl⟩⟩ := poll_leaves hrun <;> rfl
    | setDeviceAddress addr =>
      obtain ⟨rfl, -⟩ := setDeviceAddress_leaves hrun
      rfl
    | enable =>
      obtain ⟨rfl, -⟩ := enable_leaves h hrun
      rfl
    | setInterrupts interrupts =>
      obtain ⟨rfl, -⟩ := setInterrupts_leaves hrun
      rfl

/-- The word of an endpoint with this buffer and this kind. -/
def EpId.capabilities (e : EpId) (ep : Endpoint) (zlt : Bool) : Word :=
  CAPABILITIES.ZLT.set (if zlt then 0 else 1)
    (CAPABILITIES.IOS.set (if ep.kind == .Control && e.dir == .Out then 1 else 0)
      (CAPABILITIES.MAXIMUM_PACKET_LENGTH.set (BitVec.ofNat 32 (min ep.buffer.len 1024)) 0))

/-- Claiming a fresh queue head writes all of it. -/
theorem capabilities_claimed (e : EpId) (ep : Endpoint) :
    (Qh.new.claimed ep.buffer.len (ep.kind == .Control && e.dir == .Out)).capabilities =
      e.capabilities ep false := by
  rw [Qh.claimed, EpId.capabilities, Qh.new,
    Field.set_comm CAPABILITIES.ZLT CAPABILITIES.IOS (by decide),
    Field.set_comm CAPABILITIES.ZLT CAPABILITIES.MAXIMUM_PACKET_LENGTH (by decide)]
  rfl

/-- The queue heads as the driver boots: fresh where nothing is allocated. -/
theorem Booted.capabilities (h : Booted s) (e : EpId) :
    (s.ep e = none → s.qh e.slot = Qh.new) ∧
      ∀ ep, s.ep e = some ep → s.capabilities e.slot = e.capabilities ep false := by
  induction h with
  | @start s s' speed obs h hrun =>
    have hnone := (Booted.start h hrun).idle
    obtain ⟨reg, hreg, -⟩ := run_initializeDriver speed s
    rw [hreg] at hrun
    obtain ⟨-, rfl, -⟩ := Out.mk.inj hrun
    refine ⟨fun _ => h.qh e.slot, fun ep hep => ?_⟩
    -- nothing is allocated yet
    obtain ⟨COUNT, qhList, tdList, halloc⟩ := h.epAllocator
    have hst := Option.some.inj (halloc.symm.trans (allocator_new COUNT qhList tdList))
    have hepList : s.driver.epAllocator.epList e.slot = some ep := hep
    rw [hst] at hepList
    cases hepList
  | @alloc s s' q r obs hb hrun ih =>
    rcases Request.cases hb.idle.wf hrun with ⟨rfl, -⟩ | ⟨f, -, rfl, -, hf, -⟩
    · exact ih
    · by_cases hfe : e = f
      · subst hfe
        have hqh : (s.allocated e q.maxPacketSize.toNat q.epType).qh e.slot =
            (s.qh e.slot).claimed q.maxPacketSize.toNat (q.epType == .Control && e.dir == .Out) :=
          Function.update_self _ _ _
        refine ⟨fun hnone => ?_, fun ep hep => ?_⟩
        · rw [ep_allocated, if_pos rfl] at hnone
          cases hnone
        · rw [ep_allocated, if_pos rfl] at hep
          obtain rfl := Option.some.inj hep
          rw [← capabilities_claimed, Sys.capabilities, hqh, ih.1 hf]
          rfl
      · have hs : e.slot ≠ f.slot := fun hs => hfe (EpId.slot_inj.mp hs)
        have hqh : (s.allocated f q.maxPacketSize.toNat q.epType).qh e.slot = s.qh e.slot :=
          Function.update_of_ne hs _ _
        rw [ep_allocated, if_neg hfe, Sys.capabilities, hqh]
        exact ih

/-- Once cleared, the bit stays clear. -/
theorem zlt_capabilities (e : EpId) (ep : Endpoint) (zlt : Bool) :
    CAPABILITIES.ZLT.set 0 (e.capabilities ep zlt) = e.capabilities ep true := by
  rw [EpId.capabilities, Field.set_set]
  rfl

/-- Every step clears the bit or leaves it alone. -/
theorem Step.capabilities_step {zlt : Bool} (h : s.WF) (hep : s.ep e = some ep)
    (hcap : s.capabilities e.slot = e.capabilities ep zlt) (hstep : Step s l s') :
    s'.capabilities e.slot = e.capabilities ep ((l.terminates e).getD zlt) := by
  have htrue : ∀ b, l.terminates e = some b → b = true := by
    intro b hb
    unfold Label.terminates at hb
    split at hb
    · split at hb
      · exact (Option.some.inj hb).symm
      · cases hb
    · cases hb
  rw [hstep.capabilities_eq h hep, hcap]
  cases ht : l.terminates e with
  | none => rfl
  | some b =>
    rw [htrue b ht, Option.isSome_some, if_pos rfl, zlt_capabilities, Option.getD_some]

theorem capabilities_run {s₀ : Sys} {tr : Trace} {zlt : Bool} (h : s₀.WF)
    (hrun : Run Step s₀ tr s) (hep : s₀.ep e = some ep)
    (hcap : s₀.capabilities e.slot = e.capabilities ep zlt) :
    s.capabilities e.slot = e.capabilities ep (latest (fun x => x.2.terminates e) zlt tr) := by
  induction hrun with
  | nil => exact hcap
  | snoc hr hs ih =>
    rw [latest_snoc]
    exact hs.capabilities_step (h.run hr) ((ep_run h hr e).trans hep) ih

end Capabilities

/-! ## The reset flag -/

section Resets

variable {s s' : Sys} {l : Label}

theorem HwEvent.resetReceived (ev : HwEvent) (s : Sys) :
    (ev.apply s).resetReceived = ((Label.hw ev).resets).getD s.resetReceived := by
  have hraise : ∀ (v : Word), v.getLsbD 6 = false →
      (s.reg .USBSTS ||| v).getLsbD 6 = s.resetReceived := by
    intro v hv
    rw [BitVec.getLsbD_or, hv, Bool.or_false]
    rfl
  cases ev with
  | outDone | inDone | setup => exact hraise (USBSTS.UI.put 1) (by decide)
  | error => exact hraise (USBSTS.UI.put 1 ||| USBSTS.UEI.put 1) (by decide)
  | nak | resetEnd => rfl
  | resetBegin =>
    have hbit : (USBSTS.URI.put 1 : Word).getLsbD 6 = true := by decide
    show (s.reg .USBSTS ||| USBSTS.URI.put 1).getLsbD 6 = true
    rw [BitVec.getLsbD_or, hbit, Bool.or_true]

/-- Every step sets the flag or leaves it alone. -/
theorem Step.resetReceived_eq (h : s.WF) (hstep : Step s l s') :
    s'.resetReceived = l.resets.getD s.resetReceived := by
  cases hstep with
  | @hw ev hev => exact ev.resetReceived s
  | @call c r _ obs hrun =>
    have hlower : ∀ v : Word, v.getLsbD 6 = false →
        (s.reg .USBSTS &&& ~~~ v).getLsbD 6 = s.resetReceived := by
      intro v hv
      rw [BitVec.getLsbD_and, BitVec.getLsbD_not, hv]
      simp [Sys.resetReceived]
    cases c with
    | poll =>
      obtain ⟨-, ⟨-, rfl, rfl⟩ | ⟨-, -, rfl, rfl⟩ | ⟨-, -, rfl, rfl⟩⟩ := poll_leaves hrun
      · have hbit : (USBSTS.URI.put 1 : Word).getLsbD 6 = true := by decide
        show (s.reg .USBSTS &&& ~~~ USBSTS.URI.put 1).getLsbD 6 = false
        rw [BitVec.getLsbD_and, BitVec.getLsbD_not, hbit]
        simp
      · exact hlower (USBSTS.UI.put 1) (by decide)
      · rfl
    | read | write | setStalled | isStalled | reset | configure | setDeviceAddress | enable
    | enableZlt | setInterrupts =>
      have hkept : s'.reg .USBSTS = s.reg .USBSTS :=
        Call.reg_kept h (by simp [Call.writes, Reg.isCtrl]) (by simp) hrun
      exact congrArg (fun v : Word => v.getLsbD 6) hkept

theorem resetReceived_run {s₀ : Sys} {tr : Trace} (h : s₀.WF) (hrun : Run Step s₀ tr s) :
    s.resetReceived = latest (fun x => x.2.resets) s₀.resetReceived tr :=
  hrun.latest (I := Sys.WF) h (fun _ _ _ hI hs => hs.wf hI) fun _ _ _ hI hs =>
    hs.resetReceived_eq hI

end Resets

/-! ## What the driver was told -/

/-- After any run, the half of an allocated non-zero endpoint is stalled as the
    latest `set_stalled` of its address said, enabled if `configure` came after
    the latest bus reset, and has its own type just as long. -/
theorem half_as_told {s₀ s : Sys} {tr : Trace} {e : EpId} {ep : Endpoint} (hb : Booted s₀)
    (hrun : Run Step s₀ tr s) (hep : s₀.ep e = some ep) (h0 : e.num.val ≠ 0) :
    s.control e = ⟨latest (fun x => x.2.stalls e) false tr,
      latest (fun x => x.2.types ep.kind) 0 tr, latest (fun x => x.2.enables) false tr⟩ := by
  have hrun := control_run hb.idle.wf hrun hep h0
  rwa [hb.control e] at hrun

/-- Resets in between do not make `is_stalled` forget. -/
theorem half_as_told_device : ∃ (tr : Trace) (s : Sys), Run Step device tr s ∧
    s.control bulkIn = ⟨true, intoRawEndpointType .Bulk, false⟩ ∧
      latest (fun x => x.2.stalls bulkIn) false tr = true := by
  obtain ⟨tr, s, hrun, hstall, htype, hena⟩ := exists_run (s := device)
    (p := fun tr _ => latest (fun x => x.2.stalls bulkIn) false tr = true ∧
      latest (fun x => x.2.types .Bulk) 0 tr = intoRawEndpointType .Bulk ∧
      latest (fun x => x.2.enables) false tr = false)
    [.call .configure, .call (.setStalled bulkIn.address true),
      .call (.setStalled bulkOut.address false), .hw .resetBegin, .call .poll,
      .call (.reset true)] (by decide +kernel)
  refine ⟨tr, s, hrun, ?_, hstall⟩
  rw [half_as_told device_booted hrun device_bulkIn (by decide), hstall, hena]
  exact congrArg (HalfControl.mk true · false) htype

/-- What `is_stalled` answers of an allocated non-zero endpoint is what the
    latest `set_stalled` of the same address asked for, whatever else happened
    since, bus resets included; before the first it answers `false`. -/
theorem stall_answered {s₀ s s' : Sys} {tr : Trace} {e : EpId} {ep : Endpoint} {r : Ret}
    {o : List Obs} (hb : Booted s₀) (hrun : Run Step s₀ tr s) (hep : s₀.ep e = some ep)
    (h0 : e.num.val ≠ 0) (hcall : Step s (.call (.isStalled e.address) r o) s') :
    r = .bool (latest (fun x => x.2.stalls e) false tr) ∧ s' = s := by
  have hwf := hb.idle.wf.run hrun
  have hep' := (ep_run hb.idle.wf hrun e).trans hep
  have hstall := congrArg HalfControl.stall (control_run hb.idle.wf hrun hep h0)
  obtain ⟨⟨f, hf, rfl⟩, rfl, -⟩ := isStalled_leaves hwf hcall.run_eq
  obtain rfl := EpId.address_inj.mp hf
  rw [Sys.stalled_eq, hstall, hb.control e]
  exact ⟨rfl, rfl⟩

/-- A reset in between does not make the driver forget. -/
theorem stall_answered_device : ∃ (tr : Trace) (s : Sys) (o : List Obs), Run Step device tr s ∧
    (∃ x ∈ tr, x.2.isReset = true) ∧
      Step s (.call (.isStalled bulkIn.address) (.bool true) o) s := by
  obtain ⟨tr, s, hrun, hlast, hreset⟩ := exists_run (s := device)
    (p := fun tr _ => latest (fun x => x.2.stalls bulkIn) false tr = true ∧
      ∃ x ∈ tr, x.2.isReset = true)
    [.call .configure, .call (.setStalled bulkIn.address true), .call (.reset false)]
    (by decide +kernel)
  have hwf := device_booted.idle.wf.run hrun
  have hep := (ep_run device_booted.idle.wf hrun bulkIn).trans device_bulkIn
  have hcall : run (Call.isStalled bulkIn.address).prog s =
      ⟨.ok (.bool (s.stalled bulkIn)), s, []⟩ := by
    show run (BusAdapter.isStalled bulkIn.address >>= fun b => pure (Ret.bool b)) s = _
    rw [run_bind, run_busIsStalled hwf hep]
    rfl
  have hstep : Step s (.call (.isStalled bulkIn.address) (.bool (s.stalled bulkIn)) []) s :=
    .call hcall
  obtain ⟨hret, -⟩ := stall_answered device_booted hrun device_bulkIn (by decide) hstep
  rw [hret, hlast] at hstep
  exact ⟨tr, s, [], hrun, hreset, hstep⟩

/-- The first word of the queue head of an allocated endpoint: the length of
    its packets, whether SETUP packets interrupt, and whether `enable_zlt` was
    ever called for it, are all that is in it after any run. -/
theorem capabilities_as_told {s₀ s : Sys} {tr : Trace} {e : EpId} {ep : Endpoint}
    (hb : Booted s₀) (hrun : Run Step s₀ tr s) (hep : s₀.ep e = some ep) :
    s.capabilities e.slot = e.capabilities ep (latest (fun x => x.2.terminates e) false tr) :=
  capabilities_run hb.idle.wf hrun hep ((hb.capabilities e).2 ep hep)

theorem capabilities_as_told_device : ∃ (tr : Trace) (s : Sys), Run Step device tr s ∧
    s.capabilities bulkIn.slot = CAPABILITIES.MAXIMUM_PACKET_LENGTH.put 64 ∧
      s.capabilities bulkOut.slot =
        CAPABILITIES.MAXIMUM_PACKET_LENGTH.put 64 ||| CAPABILITIES.ZLT.put 1 := by
  obtain ⟨tr, s, hrun, hin, hout⟩ := exists_run (s := device)
    (p := fun tr _ => latest (fun x => x.2.terminates bulkIn) false tr = true ∧
      latest (fun x => x.2.terminates bulkOut) false tr = false)
    [.call (.enableZlt bulkIn.address), .call .configure, .call (.write bulkIn.address [1, 2, 3]),
      .hw (.inDone 1 3), .call .poll, .call (.reset false)] (by decide +kernel)
  refine ⟨tr, s, hrun, ?_, ?_⟩
  · rw [capabilities_as_told device_booted hrun device_bulkIn, hin]
    decide
  · rw [capabilities_as_told device_booted hrun device_bulkOut, hout]
    decide

/-- `poll` reports a bus reset exactly if the host reset the bus and no poll has
    reported it yet: no reset is lost, whatever was called in between, and none
    is reported twice. -/
theorem reset_answered {s₀ s s' : Sys} {tr : Trace} {p : PollResult} {o : List Obs}
    (hb : Booted s₀) (hrun : Run Step s₀ tr s) (hcall : Step s (.call .poll (.poll p) o) s') :
    p = .Reset ↔ ∃ pre x post, tr = pre ++ x :: post ∧ x.2.resets = some true ∧
      ∀ y ∈ post, y.2.resets = none := by
  have hflag := resetReceived_run hb.idle.wf hrun
  have hzero : s₀.resetReceived = false := by
    rw [Sys.resetReceived, hb.usbsts]
    exact BitVec.getLsbD_zero
  have hset : s.resetReceived = true ↔ ∃ pre x post, tr = pre ++ x :: post ∧
      x.2.resets = some true ∧ ∀ y ∈ post, y.2.resets = none := by
    rw [hflag, hzero, latest_iff]
    exact or_iff_left fun h => Bool.false_ne_true h.1
  rw [← hset]
  obtain ⟨-, ⟨hr, hp, -⟩ | ⟨hr, -, hp, -⟩ | ⟨hr, -, hp, -⟩⟩ := poll_leaves hcall.run_eq
  · exact iff_of_true (Ret.poll.inj hp) hr
  · exact iff_of_false (by rw [Ret.poll.inj hp]; rintro ⟨⟩) (Bool.eq_false_iff.mp hr)
  · exact iff_of_false (by rw [Ret.poll.inj hp]; rintro ⟨⟩) (Bool.eq_false_iff.mp hr)

/-- A poll always returns. -/
theorem exists_poll (s : Sys) : ∃ (p : PollResult) (s' : Sys),
    Step s (.call .poll (.poll p) []) s' := by
  have hrun : ∀ p s', run Driver.poll s = ⟨.ok p, s', []⟩ →
      Step s (.call .poll (.poll p) []) s' := by
    intro p s' hpoll
    refine .call ?_
    show run (Driver.poll >>= fun r => pure (Ret.poll r)) s = _
    rw [run_bind, hpoll]
    rfl
  by_cases hr : s.resetReceived = true
  · exact ⟨_, _, hrun _ _ (by rw [run_poll, if_pos hr])⟩
  · by_cases hu : s.usbInterrupt = true
    · exact ⟨_, _, hrun _ _ (by rw [run_poll, if_neg hr, if_pos hu])⟩
    · exact ⟨_, _, hrun _ _ (by rw [run_poll, if_neg hr, if_neg hu])⟩

/-- Two resets before the first poll are reported as one. -/
theorem reset_answered_device : ∃ (tr : Trace) (s s' t : Sys) (p : PollResult),
    Run Step device tr s ∧ Step s (.call .poll (.poll .Reset) []) s' ∧
      Step s' (.call .poll (.poll p) []) t ∧ p ≠ .Reset := by
  obtain ⟨tr, s, hrun, hlast⟩ := exists_run (s := device)
    (p := fun tr _ => ((tr.getLast?.bind fun x => x.2.resets) = some true))
    [.hw .resetBegin, .call (.reset true), .hw .resetEnd, .hw .resetBegin] (by decide +kernel)
  obtain ⟨x, hx, hset⟩ := Option.bind_eq_some_iff.mp hlast
  obtain ⟨pre, rfl⟩ := List.getLast?_eq_some_iff.mp hx
  obtain ⟨p, s', hpoll⟩ := exists_poll s
  obtain rfl := (reset_answered device_booted hrun hpoll).mpr ⟨pre, x, [], rfl, hset, by simp⟩
  obtain ⟨q, t, hnext⟩ := exists_poll s'
  refine ⟨_, s, s', t, q, hrun, hpoll, hnext, fun hq => ?_⟩
  obtain ⟨pre', y, post, heq, hy, hpost⟩ :=
    (reset_answered device_booted (hrun.snoc hpoll) hnext).mp hq
  -- the last step reported one
  rcases snoc_eq_iff.mp heq with ⟨-, rfl, -⟩ | ⟨mid, rfl, -⟩
  · cases hy
  · have hnone := hpost (s, Label.call .poll (.poll .Reset) []) (by simp)
    cases hnone

end ImxrtUsbd
