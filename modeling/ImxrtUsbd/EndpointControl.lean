/-
  ImxrtUsbd.EndpointControl

  The endpoint control registers of the running system.

  `Sys.CtrlInv` holds of every reachable state: the registers hold nothing
  besides their two halves (`CtrlInv.reg_eq`), and a half that is not allocated
  was never configured.
-/
import ImxrtUsbd.Toggles

namespace ImxrtUsbd

open Lib

/-! ## Passes -/

section Passes

variable {s : Sys} {e : EpId} {ep : Endpoint}

/-- Registers that are not control registers are not touched by such a pass. -/
theorem reg_pass (op : Endpoint → ControlOp) {eff : Sys → EpId → Endpoint → Sys}
    (heff : ∀ s f fp, eff s f fp = s.modifyCtrl f ((op fp).writes f)) {r : Reg}
    (hr : ¬ r.isCtrl = true) (s : Sys) : (s.pass eff).reg r = s.reg r := by
  refine Sys.pass_invariant (I := fun t => t.reg r = s.reg r) (fun t f fp _ ht => ?_) rfl
  rw [heff, ← ht]
  refine Sys.reg_setReg_of_ne _ _ ?_
  rintro rfl
  exact hr f.isCtrl_ctrlReg

theorem ctrlReg_flushed (s : Sys) (e : EpId) : s.flushed.reg e.ctrlReg = s.reg e.ctrlReg := by
  rcases e.ctrlReg_cases with hc | ⟨i, hc⟩ <;> rw [hc] <;> rfl

/-- What `bus_reset` makes of a half. -/
theorem control_reset (s : Sys) (e : EpId) :
    s.reset.control e = s.turn e (fun _ c => ControlOp.disable.apply c) (s.control e) := by
  rw [Sys.reset, control_pass (fun _ => .disable) (fun s f _ => s.disableEp_eq f),
    Sys.control_congr (ctrlReg_flushed s e)]
  rfl

/-- What `on_configured` makes of a half. -/
theorem control_configured (s : Sys) (e : EpId) :
    s.configured.control e =
      s.turn e (fun ep c => (ControlOp.enable ep.kind).apply c) (s.control e) := by
  rw [← control_enableAll]
  refine Sys.pass_invariant (I := fun t => t.control e = s.enableAll.control e)
    (fun t f fp _ ht => ?_) rfl
  unfold Sys.primeTurn
  split
  · rw [Sys.control_congr (ctrlReg_arm t f _ _ e), ht]
  · exact ht

end Passes

/-! ## The registers hold nothing else -/

/-- The control registers of the reachable states. -/
structure Sys.CtrlInv (s : Sys) : Prop where
  /-- Only the fields of the two halves are ever set. -/
  halves : ∀ (e : EpId) j, (s.reg e.ctrlReg).getLsbD j = true →
    ∃ d, ∃ g ∈ (⟨d, e.num⟩ : EpId).fields, g.Has j
  /-- A half that is not allocated is not configured. -/
  unused : ∀ e, s.ep e = none → s.control e = .off

section Invariant

variable {s s' t : Sys} {e f : EpId}

/-- A bit in a kept field is settled by what is configured. -/
theorem getLsbD_of_control (hc : s.control e = t.control e) {g : Field} (hg : g ∈ e.fields)
    {j : Nat} (hj : g.Has j) :
    (s.reg e.ctrlReg).getLsbD j = (t.reg e.ctrlReg).getLsbD j := by
  obtain ⟨hws, -, hwe, -⟩ := e.fields_width
  have hbit : ∀ g : Field, g.width = 1 → g.Has j →
      (g.get (s.reg e.ctrlReg) == 1) = (g.get (t.reg e.ctrlReg) == 1) →
      (s.reg e.ctrlReg).getLsbD j = (t.reg e.ctrlReg).getLsbD j := by
    intro g hw hj hget
    have hoff : j = g.offset := by
      obtain ⟨h1, h2⟩ := hj
      omega
    rwa [Field.get_bit_eq_one g _ hw (by decide), Field.get_bit_eq_one g _ hw (by decide),
      ← hoff] at hget
  simp only [EpId.fields, List.mem_cons, List.not_mem_nil, or_false] at hg
  rcases hg with rfl | rfl | rfl
  · exact hbit _ hws hj (congrArg HalfControl.stall hc)
  · have htype : e.typeField.get (s.reg e.ctrlReg) = e.typeField.get (t.reg e.ctrlReg) :=
      congrArg HalfControl.type hc
    have hget := congrArg (fun v => v.getLsbD (j - e.typeField.offset)) htype
    obtain ⟨h1, h2⟩ := hj
    rw [Field.getLsbD_get, Field.getLsbD_get, Nat.add_sub_of_le h1,
      decide_eq_true (by omega), Bool.true_and, Bool.true_and] at hget
    exact hget
  · exact hbit _ hwe hj (congrArg HalfControl.enable hc)

/-- The halves settle the register. -/
theorem Sys.CtrlInv.reg_eq (hs : s.CtrlInv) (ht : t.CtrlInv)
    (hc : ∀ f : EpId, f.num = e.num → s.control f = t.control f) :
    s.reg e.ctrlReg = t.reg e.ctrlReg := by
  have hle : ∀ {s t : Sys}, s.CtrlInv → (∀ f : EpId, f.num = e.num → s.control f = t.control f) →
      ∀ j, (s.reg e.ctrlReg).getLsbD j = true → (t.reg e.ctrlReg).getLsbD j = true := by
    intro s t hs hc j hj
    obtain ⟨d, g, hg, hhas⟩ := hs.halves e j hj
    have hbit := getLsbD_of_control (hc ⟨d, e.num⟩ rfl) hg hhas
    rw [EpId.ctrlReg_inj.mpr (show (⟨d, e.num⟩ : EpId).num = e.num from rfl)] at hbit
    rw [← hbit, hj]
  apply BitVec.eq_of_getLsbD_eq
  intro j _
  rw [Bool.eq_iff_iff]
  exact ⟨hle hs hc j, hle ht (fun f hf => (hc f hf).symm) j⟩

theorem getLsbD_setFields_of_not_has {fs : List (Field × Word)} {j : Nat} (h32 : j < 32)
    (h : ∀ fx ∈ fs, ¬ fx.1.Has j) (v : Word) : (setFields fs v).getLsbD j = v.getLsbD j := by
  unfold setFields
  induction fs generalizing v with
  | nil => rfl
  | cons fx fs ih =>
    rw [List.foldl_cons, ih fun fy hfy => h fy (List.mem_cons_of_mem _ hfy),
      Field.getLsbD_set _ _ _ h32, if_neg (h fx (List.mem_cons_self ..))]

theorem Sys.CtrlInv.modifyCtrl (h : s.CtrlInv) (he : (s.ep e).isSome = true) (op : ControlOp) :
    (s.modifyCtrl e (op.writes e)).CtrlInv where
  halves := by
    intro f j hj
    by_cases hf : f.ctrlReg = e.ctrlReg
    · have h32 : j < 32 := BitVec.lt_of_getLsbD hj
      rw [Sys.modifyCtrl, hf, Sys.reg_setReg_self, BitVec.getLsbD_and, BitVec.getLsbD_not,
        decide_eq_true h32, Bool.true_and, Bool.and_eq_true, Bool.not_eq_true'] at hj
      obtain ⟨hset, hclear⟩ := hj
      have hnum := EpId.ctrlReg_inj.mp hf
      by_cases hhas : ∃ fx ∈ op.writes e, fx.1.Has j
      · obtain ⟨fx, hfx, hhas⟩ := hhas
        rcases List.mem_cons.mp (ControlOp.field_of_mem_writes hfx) with htog | hmem
        · -- a toggle reset is not kept
          have htoggle : ∀ d : UsbDirection, ∀ j < 32, (⟨d, 0⟩ : EpId).toggleField.Has j →
              Sys.toggleResetBits.getLsbD j = true := by
            intro d
            cases d <;> decide
          rw [htog] at hhas
          rw [htoggle e.dir j h32 hhas] at hclear
          simp at hclear
        · exact ⟨e.dir, fx.1, by rw [hnum]; exact hmem, hhas⟩
      · rw [getLsbD_setFields_of_not_has h32 fun fx hfx hb => hhas ⟨fx, hfx, hb⟩, ← hf] at hset
        exact h.halves f j hset
    · rw [Sys.modifyCtrl, Sys.reg_setReg_of_ne _ _ hf] at hj
      exact h.halves f j hj
  unused := by
    intro f hf
    have hfe : f ≠ e := by
      rintro rfl
      have hnone : s.ep f = none := hf
      rw [hnone] at he
      simp at he
    rw [control_modifyCtrl, if_neg hfe]
    exact h.unused f hf

/-- The invariant is about the control registers and what is allocated. -/
theorem Sys.CtrlInv.congr (h : s.CtrlInv) (hreg : ∀ e : EpId, s'.reg e.ctrlReg = s.reg e.ctrlReg)
    (hep : ∀ e, s'.ep e = s.ep e) : s'.CtrlInv where
  halves := fun e j hj => h.halves e j (by rwa [← hreg])
  unused := fun e he => (Sys.control_congr (hreg e)).trans (h.unused e ((hep e).symm.trans he))

theorem Sys.CtrlInv.reset (h : s.CtrlInv) : s.reset.CtrlInv := by
  refine Sys.pass_invariant (I := Sys.CtrlInv) (fun t f fp hf ht => ?_)
    (h.congr (ctrlReg_flushed s) fun _ => rfl)
  rw [t.disableEp_eq]
  exact ht.modifyCtrl (by rw [hf]; rfl) _

theorem Sys.CtrlInv.configured (h : s.CtrlInv) : s.configured.CtrlInv := by
  have hena : s.enableAll.CtrlInv := by
    refine Sys.pass_invariant (I := Sys.CtrlInv) (fun t f fp hf ht => ?_) h
    rw [Sys.enableTurn, t.enableEp_eq]
    exact ht.modifyCtrl (by rw [hf]; rfl) _
  refine Sys.pass_invariant (I := Sys.CtrlInv) (fun t f fp _ ht => ?_) hena
  unfold Sys.primeTurn
  split
  · exact ht.congr (ctrlReg_arm t f _ _) fun _ => rfl
  · exact ht

/-- Every step keeps the invariant. -/
theorem Step.ctrlInv {l : Label} (h : s.WF) (hc : s.CtrlInv) (hstep : Step s l s') :
    s'.CtrlInv := by
  have hep := hstep.ep_eq h
  cases hstep with
  | @hw ev hev => exact hc.congr (fun e => ev.reg_ctrl s e.isCtrl_ctrlReg) hep
  | @call c r _ obs hrun =>
    cases c with
    | setStalled addr stalled =>
      obtain ⟨-, rfl, -⟩ | ⟨e, ep, -, hep', hcases⟩ := setStalled_leaves h hrun
      · exact hc
      · have hstall : (s.setStall e stalled).CtrlInv := by
          rw [s.setStall_eq]
          exact hc.modifyCtrl (by rw [hep']; rfl) _
        obtain ⟨-, rfl, -⟩ | ⟨-, rfl, -⟩ := hcases
        · exact hstall.congr (ctrlReg_arm _ e _ _) fun _ => rfl
        · exact hstall
    | reset debugAssertions =>
      obtain ⟨rfl, -⟩ := reset_leaves h hrun
      exact hc.reset
    | configure =>
      obtain ⟨rfl, -⟩ := configure_leaves h hrun
      exact hc.configured
    | poll | read | write | isStalled | setDeviceAddress | enable | enableZlt | setInterrupts =>
      -- the other calls write no control register
      refine hc.congr (fun e => Call.reg_kept h ?_ ?_ hrun) hep <;>
        rcases e.ctrlReg_cases with hr | ⟨i, hr⟩ <;> rw [hr] <;> simp [Call.writes]

theorem Booted.ctrlInv (h : Booted s) : s.CtrlInv where
  halves := by
    intro e j hj
    have hzero : (s.reg e.ctrlReg).getLsbD j = false := by
      rw [h.ctrlZero e]
      exact BitVec.getLsbD_zero
    rw [hzero] at hj
    simp at hj
  unused := by
    intro e _
    rw [Sys.control, Sys.halfType, h.ctrlZero e]
    simp [HalfControl.off]

theorem Reachable.ctrlInv (h : Reachable s) : s.CtrlInv := by
  obtain ⟨s₀, tr, hb, hrun⟩ := h
  have hinv := hrun.invariant (I := fun s => s.WF ∧ s.CtrlInv) (always_true tr)
    ⟨hb.idle.wf, hb.ctrlInv⟩
    fun _ _ _ _ hI _ hstep => ⟨hstep.wf hI.1, hstep.ctrlInv hI.1 hI.2⟩
  exact hinv.2

end Invariant

end ImxrtUsbd
