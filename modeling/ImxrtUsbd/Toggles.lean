/-
  ImxrtUsbd.Toggles

  The data toggles of the two sides of the bus.

  The device's toggles are a ghost that watches the register accesses of the
  driver: a toggle returns to DATA0 when `TXR` or `RXR` of its half is written
  as one.  No function but `Endpoint::enable` does so; in particular
  `Endpoint::set_stalled` does not, while the host returns to DATA0 when it
  clears the halt.  `toggles_agree_iff` says what that costs.
-/
import ImxrtUsbd.Moves
import ImxrtUsbd.Replay

namespace ImxrtUsbd

open Lib
open EndpointAllocator (endpoint forNonzeroEndpoints endpointsIterMut)

/-! ## The device's toggles -/

/-- The toggle reset of the half in its control register: `RXR` or `TXR`. -/
def EpId.toggleBit (e : EpId) : Nat := 6 + 16 * e.inBit

/-- The data toggle of every half; `false` is DATA0. -/
abbrev Toggles := EpId → Bool

/-- A control register is written. -/
def Toggles.written (t : Toggles) (r : Reg) (v : Word) : Toggles := fun e =>
  if r = e.ctrlReg ∧ v.getLsbD e.toggleBit = true then false else t e

/-- What an access does to the toggles. -/
def watchToggles : {β : Type} → Access β → Sys → Toggles → Toggles
  | _, .writeReg r v, _, t => t.written r v
  | _, .readReg _, _, t | _, .loadTd _ _, _, t | _, .storeTd _ _ _, _, t
  | _, .loadCapabilities _, _, t | _, .storeCapabilities _ _, _, t | _, .loadSetup _ _, _, t
  | _, .loadByte _, _, t | _, .storeByte _ _, _, t | _, .dccimvac _, _, t | _, .addrOfSelf, _, t
  | _, .getDriver, _, t | _, .setDriver _, _, t => t

/-- The system, with the toggles as a ghost. -/
def usbToggles : Machine Access (Sys × Toggles) Obs := usb.withGhost watchToggles

section Ghost

variable {α β : Type} {s s' : Sys} {t t' : Toggles} {o : List Obs}

theorem run_of_toggles {p : UsbM α} {r : Res Fault α}
    (h : exec usbToggles 1 p (s, t) = ⟨r, (s', t'), o⟩) : run p s = ⟨r, s', o⟩ := by
  rw [run, ← erase_withGhost usb watchToggles 1 p (s, t)]
  show (exec usbToggles 1 p (s, t)).erase = _
  rw [h]
  rfl

theorem exec_modifyCtrl {r : Reg} (hr : r.isCtrl = true) (fs : List (Field × Word)) (n : Nat)
    (x : Sys × Toggles) :
    exec usbToggles n (modifyReg r fs) x =
      ⟨.ok (), (x.1.writeReg r (setFields fs (x.1.reg r)),
        x.2.written r (setFields fs (x.1.reg r))), []⟩ := by
  cases r <;> first | rfl | simp [Reg.isCtrl] at hr

end Ghost

/-! ## What leaves the toggles alone -/

namespace Sys

/-- The toggle resets read as 0. -/
def CtrlClean (s : Sys) : Prop := ∀ e : EpId, (s.reg e.ctrlReg).getLsbD e.toggleBit = false

/-- The half is enabled in its control register. -/
def ctrlEnabled (s : Sys) (e : EpId) : Bool := (s.reg e.ctrlReg).getLsbD e.enableBit

/-- Writing a register that is not a control register leaves those alone,
    unless it resets the controller. -/
theorem reg_writeReg_ctrl (s : Sys) {r x : Reg} (v : Word) (hr : ¬ r.isCtrl = true)
    (hx : x.isCtrl = true) : (s.writeReg r v).reg x = s.reg x ∨ (s.writeReg r v).reg x = 0 := by
  have hne : ∀ r', r'.isCtrl = false → x ≠ r' := by
    rintro r' h rfl
    rw [h] at hx
    simp at hx
  cases r with
  | ENDPTCTRL0 | ENDPTCTRL => exact absurd rfl hr
  | USBCMD =>
    unfold writeReg
    dsimp only
    split
    · refine Or.inr ?_
      cases x <;> first | rfl | simp [Reg.isCtrl] at hx
    · exact Or.inl (reg_setReg_of_ne _ _ (hne _ rfl))
  | ENDPTSTAT => exact Or.inl rfl
  | _ => exact Or.inl (reg_setReg_of_ne _ _ (hne _ rfl))

end Sys

theorem Reg.exists_ctrlReg (r : Reg) (hr : r.isCtrl = true) : ∃ e : EpId, r = e.ctrlReg := by
  cases r with
  | ENDPTCTRL0 => exact ⟨⟨.Out, 0⟩, rfl⟩
  | ENDPTCTRL i =>
    refine ⟨⟨.Out, i.succ⟩, ?_⟩
    revert i
    decide
  | _ => simp [Reg.isCtrl] at hr

theorem Sys.CtrlClean.setCtrl {s : Sys} (hc : s.CtrlClean) (e : EpId) (v : Word) :
    (s.setReg e.ctrlReg (v &&& ~~~ toggleResetBits)).CtrlClean := by
  intro f
  by_cases hf : f.ctrlReg = e.ctrlReg
  · have ht : toggleResetBits.getLsbD f.toggleBit = true := by
      unfold EpId.toggleBit EpId.inBit
      split <;> decide
    rw [hf, Sys.reg_setReg_self, BitVec.getLsbD_and, BitVec.getLsbD_not, ht, Bool.not_true,
      Bool.and_false, Bool.and_false]
  · rw [Sys.reg_setReg_of_ne _ _ hf]
    exact hc f

theorem Sys.CtrlClean.modifyCtrl {s : Sys} (hc : s.CtrlClean) (e : EpId)
    (fs : List (Field × Word)) : (s.modifyCtrl e fs).CtrlClean := hc.setCtrl e _

/-- The controller touches no control register. -/
theorem HwEvent.reg_ctrl (s : Sys) (ev : HwEvent) {r : Reg} (hr : r.isCtrl = true) :
    (ev.apply s).reg r = s.reg r := by
  cases r with
  | ENDPTCTRL0 | ENDPTCTRL => cases ev <;> rfl
  | _ => simp [Reg.isCtrl] at hr

/-- Register accesses keep the toggle resets at 0. -/
theorem ctrlClean_act {β : Type} (a : Access β) {s : Sys} (hc : s.CtrlClean) :
    (usb.act a s).2.1.CtrlClean := by
  have hsame : ∀ s' : Sys, s'.reg = s.reg → s'.CtrlClean := by
    intro s' hreg e
    rw [hreg]
    exact hc e
  cases a with
  | writeReg r v =>
    intro e
    show ((s.writeReg r v).reg e.ctrlReg).getLsbD _ = false
    by_cases hr : r.isCtrl = true
    · -- a control register is written without them
      obtain ⟨f, rfl⟩ := r.exists_ctrlReg hr
      rw [Sys.writeReg_ctrl]
      exact hc.setCtrl f v e
    · rcases s.reg_writeReg_ctrl v hr e.isCtrl_ctrlReg with h | h <;> rw [h]
      · exact hc e
      · exact BitVec.getLsbD_zero
  | storeTd d w v => exact hsame _ (Sys.reg_setTdAt _ _ _)
  | readReg | loadTd | loadCapabilities | storeCapabilities | loadSetup | loadByte | storeByte
    | dccimvac | addrOfSelf | getDriver | setDriver => exact hsame _ rfl

/-- The toggles are as they were, and no half was enabled. -/
def TogglesKept (x : Sys × Toggles) (_ : List Obs) (y : Sys × Toggles) : Prop :=
  x.1.CtrlClean → y.1.CtrlClean ∧ y.2 = x.2 ∧
    ∀ e, y.1.ctrlEnabled e = true → x.1.ctrlEnabled e = true

theorem togglesKept_composes : Composes TogglesKept where
  refl := fun _ h => ⟨h, rfl, fun _ he => he⟩
  trans := by
    intro x y z o o' h h' hx
    obtain ⟨hy, ht, he⟩ := h hx
    obtain ⟨hz, ht', he'⟩ := h' hy
    exact ⟨hz, ht'.trans ht, fun e hez => he e (he' e hez)⟩

/-- The registers that are not control registers. -/
def notCtrl (r : Reg) : Prop := ¬ r.isCtrl = true

theorem togglesKept_access {β : Type} (a : Access β) (x : Sys × Toggles)
    (h : a.Within notCtrl) :
    TogglesKept x (usbToggles.act a x).2.2 (usbToggles.act a x).2.1 := by
  obtain ⟨s, t⟩ := x
  -- nothing but a register write touches a control register
  have hsame : ∀ s' : Sys, s'.reg = s.reg → TogglesKept (s, t) [] (s', t) := by
    intro s' hreg hclean
    refine ⟨?_, rfl, ?_⟩
    · intro e
      show (s'.reg e.ctrlReg).getLsbD _ = false
      rw [hreg]
      exact hclean e
    · intro e he
      have he' : (s'.reg e.ctrlReg).getLsbD e.enableBit = true := he
      rw [hreg] at he'
      exact he'
  cases a with
  | writeReg r v =>
    intro hclean
    have hreg := fun e : EpId => s.reg_writeReg_ctrl v h e.isCtrl_ctrlReg
    refine ⟨fun e => ?_, ?_, fun e he => ?_⟩
    · show ((s.writeReg r v).reg e.ctrlReg).getLsbD _ = false
      rcases hreg e with hr | hr <;> rw [hr]
      · exact hclean e
      · exact BitVec.getLsbD_zero
    · funext e
      have hne : ¬ (r = e.ctrlReg ∧ v.getLsbD e.toggleBit = true) := by
        rintro ⟨rfl, -⟩
        exact h e.isCtrl_ctrlReg
      exact if_neg hne
    · have he' : ((s.writeReg r v).reg e.ctrlReg).getLsbD e.enableBit = true := he
      rcases hreg e with hr | hr <;> rw [hr] at he'
      · exact he'
      · have h0 : (0 : Word).getLsbD e.enableBit = false := BitVec.getLsbD_zero
        rw [h0] at he'
        simp at he'
  | storeTd d w v => exact hsame _ (Sys.reg_setTdAt _ _ _)
  | readReg | loadTd | loadCapabilities | storeCapabilities | loadSetup | loadByte | storeByte
    | dccimvac | addrOfSelf | getDriver | setDriver => exact hsame _ rfl

/-- Code that writes no control register leaves the toggles alone. -/
theorem keeps_of_within {α : Type} {p : UsbM α} (h : Within notCtrl p) :
    Keeps usbToggles TogglesKept p :=
  .of_only togglesKept_composes (fun _ a x ha => togglesKept_access a x ha) h

/-- Fields that are neither toggle resets nor set an enable bit. -/
def QuietFields (fs : List (Field × Word)) : Prop :=
  ∀ fx ∈ fs, ∀ e : EpId, ¬ fx.1.Has e.toggleBit ∧ (fx.1.Has e.enableBit → fx.2 = 0)

theorem QuietFields.bits {fs : List (Field × Word)} (h : QuietFields fs) (e : EpId) (v : Word) :
    (setFields fs v).getLsbD e.toggleBit = v.getLsbD e.toggleBit ∧
      ((setFields fs v).getLsbD e.enableBit = true → v.getLsbD e.enableBit = true) := by
  have ht : e.toggleBit < 32 ∧ e.enableBit < 32 := by
    unfold EpId.toggleBit EpId.enableBit EpId.inBit
    split <;> omega
  unfold setFields
  -- field by field, from the first one on
  induction fs generalizing v with
  | nil => exact ⟨rfl, id⟩
  | cons fx fs ih =>
    obtain ⟨htog, hena⟩ := h fx (List.mem_cons_self ..) e
    obtain ⟨ih1, ih2⟩ := ih (fun fy hy => h fy (List.mem_cons_of_mem _ hy)) (fx.1.set fx.2 v)
    rw [List.foldl_cons]
    refine ⟨?_, fun he => ?_⟩
    · rw [ih1, Field.getLsbD_set _ _ _ ht.1, if_neg htog]
    · have hset := ih2 he
      rw [Field.getLsbD_set _ _ _ ht.2] at hset
      split at hset
      · rename_i hhas
        have h0 : (0 : Word).getLsbD (e.enableBit - fx.1.offset) = false := BitVec.getLsbD_zero
        rw [hena hhas, h0] at hset
        simp at hset
      · exact hset

/-- So does rewriting such fields of a control register. -/
theorem keeps_modifyCtrl {r : Reg} (hr : r.isCtrl = true) {fs : List (Field × Word)}
    (hq : QuietFields fs) : Keeps usbToggles TogglesKept (modifyReg r fs) := by
  have hfs := hq.bits
  intro n x hclean
  rw [exec_modifyCtrl hr]
  obtain ⟨e₀, rfl⟩ := r.exists_ctrlReg hr
  -- the reset bits of a write are not stored
  have hreg : ∀ e : EpId, (x.1.writeReg e₀.ctrlReg (setFields fs (x.1.reg e₀.ctrlReg))).reg
      e.ctrlReg = if e.ctrlReg = e₀.ctrlReg then
        setFields fs (x.1.reg e₀.ctrlReg) &&& ~~~ Sys.toggleResetBits else x.1.reg e.ctrlReg := by
    intro e
    rw [Sys.writeReg_ctrl]
    split
    · rename_i h
      rw [h, Sys.reg_setReg_self]
    · rename_i h
      exact Sys.reg_setReg_of_ne _ _ h
  refine ⟨fun e => ?_, ?_, fun e he => ?_⟩
  · show ((x.1.writeReg _ _).reg e.ctrlReg).getLsbD _ = false
    rw [hreg]
    split
    · rename_i h
      rw [BitVec.getLsbD_and, (hfs e _).1, ← h, hclean e, Bool.false_and]
    · exact hclean e
  · funext e
    refine if_neg ?_
    rintro ⟨h, hbit⟩
    rw [(hfs e _).1, h, hclean e] at hbit
    simp at hbit
  · have he' : ((x.1.writeReg _ _).reg e.ctrlReg).getLsbD e.enableBit = true := he
    rw [hreg] at he'
    split at he'
    · rename_i h
      rw [BitVec.getLsbD_and, Bool.and_eq_true] at he'
      have := (hfs e _).2 he'.1
      rwa [← h] at this
    · exact he'

/-! ## The calls -/

/-- The register looked up is one of the control registers. -/
theorem keeps_endpointControl {n : Nat} {f : Reg → UsbM Unit}
    (h : ∀ r, r.isCtrl = true → Keeps usbToggles TogglesKept (f r)) :
    Keeps usbToggles TogglesKept (endpointControlRegister n >>= f) := by
  unfold endpointControlRegister
  split
  · exact h _ rfl
  · split
    · exact h _ rfl
    · exact .fail togglesKept_composes Fault.panic

theorem quietFields_stall {f : Field} (hf : f = ENDPTCTRL.TXS ∨ f = ENDPTCTRL.RXS) (x : Word) :
    QuietFields [(f, x)] := by
  have hfield : ∀ e : EpId, ¬ f.Has e.toggleBit ∧ ¬ f.Has e.enableBit := by
    rcases hf with rfl | rfl <;> rw [EpId.forall_iff] <;> decide
  intro fx hfx e
  obtain rfl := List.mem_singleton.mp hfx
  exact ⟨(hfield e).1, fun hhas => absurd hhas (hfield e).2⟩

theorem quietFields_initialize (d : UsbDirection) :
    QuietFields (match d with
      | .In => [(ENDPTCTRL.TXE, 0), (ENDPTCTRL.TXT, intoRawEndpointType .Bulk)]
      | .Out => [(ENDPTCTRL.RXE, 0), (ENDPTCTRL.RXT, intoRawEndpointType .Bulk)]) := by
  intro fx hfx e
  revert e
  rw [EpId.forall_iff]
  revert fx
  cases d <;> decide

theorem keeps_setStalled (ep : Endpoint) (stall : Bool) :
    Keeps usbToggles TogglesKept (ep.setStalled stall) := by
  refine keeps_endpointControl fun r hr => ?_
  cases ep.address.direction with
  | In => exact keeps_modifyCtrl hr (quietFields_stall (Or.inl rfl) _)
  | Out => exact keeps_modifyCtrl hr (quietFields_stall (Or.inr rfl) _)

theorem keeps_initializeEp (ep : Endpoint) :
    Keeps usbToggles TogglesKept ep.initializeEp := by
  have hq := quietFields_initialize ep.address.direction
  unfold Endpoint.initializeEp
  split
  · refine keeps_endpointControl fun r hr => ?_
    cases hd : ep.address.direction <;> rw [hd] at hq <;> exact keeps_modifyCtrl hr hq
  · exact .pure togglesKept_composes ()

theorem transfers_notCtrl (ep : Endpoint) : Transfers (Access.Within notCtrl) ep := by
  refine within_transfers ?_ ?_ ?_ ep <;> simp [notCtrl, Reg.isCtrl]

theorem keeps_busSetStalled (addr : EndpointAddress) (stalled : Bool) :
    Keeps usbToggles TogglesKept (BusAdapter.setStalled addr stalled) := by
  have hR := togglesKept_composes
  refine .bind hR (keeps_of_within (only_isAllocated addr)) fun allocated => ?_
  show Keeps _ _ (if _ then _ else _)
  split
  · refine .bind hR (keeps_of_within (only_endpoint addr)) fun found =>
      .bind hR (keeps_of_within (only_unwrap found)) fun ep =>
      .bind hR (keeps_setStalled ep stalled) fun _ => keeps_of_within ?_
    -- the rest only re-arms the endpoint
    exact only_rearm _ (transfers_notCtrl ep).toArms
  · exact .pure hR ()

theorem keeps_busReset (debugAssertions : Bool) :
    Keeps usbToggles TogglesKept (Driver.busReset debugAssertions) := by
  have hR := togglesKept_composes
  have hpass : Keeps usbToggles TogglesKept Driver.initializeEndpoints := by
    refine .each hR (fun addr =>
      .bind hR (keeps_of_within (only_endpoint addr)) fun found => ?_) _
    cases found with
    | none => exact .pure hR ()
    | some ep =>
      show Keeps _ _ (if _ then _ else _)
      split
      · exact keeps_initializeEp ep
      · exact .pure hR ()
  have hw : ∀ r, r.isCtrl = false → notCtrl r := fun r hr => by simp [notCtrl, hr]
  refine .bind hR (keeps_of_within (only_writeBack fun _ => hw _ rfl)) fun _ =>
    .bind hR (keeps_of_within (only_writeBack fun _ => hw _ rfl)) fun _ =>
    .bind hR (keeps_of_within (only_writeBack fun _ => hw _ rfl)) fun _ =>
    .bind hR (keeps_of_within (.access (hw _ rfl))) fun _ =>
    .bind hR (keeps_of_within (only_waitZero _)) fun _ =>
    .bind hR (keeps_of_within (.access (hw _ rfl))) fun _ =>
    .bind hR (keeps_of_within (only_waitZero _)) fun _ => ?_
  dsimp only
  split
  · exact .bind hR (keeps_of_within (only_readField _ _)) fun _ =>
      .bind hR (keeps_of_within (.require _ _)) fun _ => hpass
  · exact hpass

/-- No call but `configure` resets a toggle or enables a half. -/
theorem Call.keeps_toggles {c : Call} (hc : c ≠ .configure) :
    Keeps usbToggles TogglesKept c.prog := by
  have hR := togglesKept_composes
  have hw : ∀ r, r.isCtrl = false → notCtrl r := fun r hr => by simp [notCtrl, hr]
  cases c with
  | poll =>
    have hp : Polls (Access.Within notCtrl) :=
      ⟨fun _ => hw _ rfl, fun _ => hw _ rfl, fun _ => trivial⟩
    exact .bind hR (keeps_of_within (only_poll hp)) fun _ => .pure hR _
  | read addr buf =>
    have hs : TakesSetups (Access.Within notCtrl) :=
      ⟨fun _ => hw _ rfl, fun _ => hw _ rfl, fun _ _ => hw _ rfl⟩
    exact .bind hR (keeps_of_within (only_busRead addr buf transfers_notCtrl hs
      fun ep => within_read ep buf)) fun _ => .pure hR _
  | write addr buf =>
    exact .bind hR (keeps_of_within (only_busWrite addr buf transfers_notCtrl
      fun ep => within_write ep buf)) fun _ => .pure hR _
  | setStalled addr stalled =>
    exact .bind hR (keeps_busSetStalled addr stalled) fun _ => .pure hR _
  | isStalled addr =>
    exact .bind hR (keeps_of_within (only_busIsStalled addr)) fun _ => .pure hR _
  | reset debugAssertions =>
    exact .bind hR (keeps_busReset debugAssertions) fun _ => .pure hR _
  | configure => exact absurd rfl hc
  | setDeviceAddress addr =>
    exact .bind hR (keeps_of_within (.access (hw _ rfl))) fun _ => .pure hR _
  | enable =>
    exact .bind hR (keeps_of_within (only_modifyReg _ fun _ => hw _ rfl)) fun _ => .pure hR _
  | enableZlt addr =>
    exact .bind hR (keeps_of_within (only_enableZlt addr fun _ _ => trivial)) fun _ => .pure hR _
  | setInterrupts interrupts =>
    exact .bind hR (keeps_of_within (only_setInterrupts interrupts fun _ => hw _ rfl)) fun _ =>
      .pure hR _

/-! ## Configuring -/

section Configure

variable {α : Type} {s s' : Sys} {t t' : Toggles} {e : EpId} {ep : Endpoint}

theorem exec_toggles_within {p : UsbM α} (h : Within notCtrl p) (hc : s.CtrlClean) :
    exec usbToggles 1 p (s, t) = ⟨(run p s).res, ((run p s).post, t), (run p s).obs⟩ := by
  have herase := erase_withGhost usb watchToggles 1 p (s, t)
  have hkept := (keeps_of_within h 1 (s, t) hc).2.1
  rw [run, ← herase]
  show exec usbToggles 1 p (s, t) = _
  generalize hx : exec usbToggles 1 p (s, t) = x at hkept
  have hy : exec (usb.withGhost watchToggles) 1 p (s, t) = x := hx
  rw [hy]
  obtain ⟨res, ⟨post, tog⟩, obs⟩ := x
  obtain rfl : tog = t := hkept
  rfl

/-- Enabling a half sets its toggle reset, and no other. -/
theorem toggleBit_enableFields (d : UsbDirection) (kind : EndpointType) (f : EpId) (v : Word) :
    (setFields (match d with
      | .In => [(ENDPTCTRL.TXE, 1), (ENDPTCTRL.TXR, 1), (ENDPTCTRL.TXT, intoRawEndpointType kind)]
      | .Out => [(ENDPTCTRL.RXE, 1), (ENDPTCTRL.RXR, 1),
        (ENDPTCTRL.RXT, intoRawEndpointType kind)]) v).getLsbD f.toggleBit =
      (decide (f.dir = d) || v.getLsbD f.toggleBit) := by
  unfold EpId.toggleBit EpId.inBit
  cases d <;> cases f.dir <;> simp only [setFields, List.foldl_cons, List.foldl_nil]
  all_goals
    rw [Field.getLsbD_set _ _ _ (by decide), if_neg (by decide),
      Field.getLsbD_set _ _ _ (by decide)]
  · rw [if_pos (by decide)]
    rfl
  · rw [if_neg (by decide), Field.getLsbD_set _ _ _ (by decide), if_neg (by decide)]
    rfl
  · rw [if_neg (by decide), Field.getLsbD_set _ _ _ (by decide), if_neg (by decide)]
    rfl
  · rw [if_pos (by decide)]
    rfl

theorem endpointControlRegister_eq (e : EpId) :
    endpointControlRegister e.num.val = pure e.ctrlReg := by
  have hlt := e.num.isLt
  by_cases h : e.num.val = 0
  · simp [endpointControlRegister, EpId.ctrlReg, h]
  · have h7 : e.num.val - 1 < 7 := by omega
    simp [endpointControlRegister, EpId.ctrlReg, h, h7]

/-- Enabling a half returns its toggle to DATA0. -/
theorem exec_enable (hat : ep.At e) (h0 : e.num.val ≠ 0) (hc : s.CtrlClean) :
    exec usbToggles 1 ep.enable (s, t) =
      ⟨.ok (), (s.enableEp e ep.kind, Function.update t e false), []⟩ := by
  have hwritten : ∀ v : Word, (∀ f : EpId, f.ctrlReg = e.ctrlReg →
      v.getLsbD f.toggleBit = decide (f.dir = e.dir)) →
      t.written e.ctrlReg v = Function.update t e false := by
    intro v hv
    funext f
    unfold Toggles.written
    by_cases hf : f = e
    · subst hf
      rw [Function.update_self, if_pos ⟨rfl, by rw [hv f rfl, decide_eq_true rfl]⟩]
    · rw [Function.update_of_ne hf, if_neg]
      rintro ⟨hr, hbit⟩
      rw [hv f hr.symm, decide_eq_true_eq] at hbit
      have hnum := EpId.ctrlReg_inj.mp hr.symm
      obtain ⟨fd, fn⟩ := f
      obtain ⟨ed, en⟩ := e
      exact hf (by rw [show fd = ed from hbit, show fn = en from hnum])
  have hbits : ∀ (f : EpId), f.ctrlReg = e.ctrlReg →
      (s.reg e.ctrlReg).getLsbD f.toggleBit = false := fun f hf => by rw [← hf]; exact hc f
  rw [Endpoint.enable, hat.address, EpId.address_index, if_pos h0, endpointControlRegister_eq,
    EpId.address_direction]
  have hfields := fun f => toggleBit_enableFields e.dir ep.kind f (s.reg e.ctrlReg)
  unfold Sys.enableEp Sys.modifyCtrl
  rw [← Sys.writeReg_ctrl]
  cases hd : e.dir <;> rw [hd] at hfields <;> rw [exec_bind, exec_pure, Out.andThen_ok] <;>
    refine (exec_modifyCtrl e.isCtrl_ctrlReg _ 1 (s, t)).trans ?_ <;> rw [hwritten] <;>
    intro f hf <;> rw [hfields f, hbits f hf, Bool.or_false, hd]

theorem Sys.ctrlEnabled_eq (s : Sys) (e : EpId) : s.ctrlEnabled e = (s.control e).enable := by
  have hbit : e.enableField.offset = e.enableBit := by
    obtain ⟨d, n⟩ := e
    cases d <;> rfl
  rw [ctrlEnabled, ← hbit]
  exact (Field.get_bit_eq_one _ _ e.fields_width.2.2.1 (by decide)).symm

/-- Enabling a half enables no other. -/
theorem ctrlEnabled_enableEp {f : EpId} {kind : EndpointType}
    (h : (s.enableEp f kind).ctrlEnabled e = true) : s.ctrlEnabled e = true ∨ e = f := by
  rw [Sys.ctrlEnabled_eq, s.enableEp_eq, control_modifyCtrl] at h
  rw [Sys.ctrlEnabled_eq]
  split at h
  · rename_i hef
    exact Or.inr hef
  · exact Or.inl h

/-- One turn of `enable_endpoints`, with the toggles. -/
def enableBoth (x : Sys × Toggles) (e : EpId) : Sys × Toggles :=
  (x.1.visit Sys.enableTurn e,
    if (x.1.ep e).isSome = true ∧ e.num.val ≠ 0 then Function.update x.2 e false else x.2)

theorem enableBoth_of_some {x : Sys × Toggles} (hep : x.1.ep e = some ep) (h0 : e.num.val ≠ 0) :
    enableBoth x e = (x.1.enableEp e ep.kind, Function.update x.2 e false) := by
  simp [enableBoth, Sys.visit, Sys.enableTurn, hep, h0]

theorem enableBoth_of_skipped {x : Sys × Toggles} (h : x.1.ep e = none ∨ e.num.val = 0) :
    enableBoth x e = x := by
  rcases h with h | h
  · simp [enableBoth, Sys.visit, h]
  · cases hep : x.1.ep e <;> simp [enableBoth, Sys.visit, hep, h]

theorem enableBoth_cases (x : Sys × Toggles) (e : EpId) :
    (∃ ep, x.1.ep e = some ep ∧ e.num.val ≠ 0) ∨ x.1.ep e = none ∨ e.num.val = 0 := by
  cases hep : x.1.ep e with
  | none => exact Or.inr (Or.inl rfl)
  | some ep =>
    by_cases h0 : e.num.val = 0
    · exact Or.inr (Or.inr h0)
    · exact Or.inl ⟨ep, rfl, h0⟩

/-- What a turn keeps, and what it may change. -/
theorem enableBoth_spec (x : Sys × Toggles) (a : EpId) :
    (enableBoth x a).1.ep = x.1.ep ∧ (x.1.CtrlClean → (enableBoth x a).1.CtrlClean) ∧
      (∀ e, x.2 e = false → (enableBoth x a).2 e = false) ∧
      ∀ e, (enableBoth x a).1.ctrlEnabled e = true →
        x.1.ctrlEnabled e = true ∨ (x.1.ep e).isSome = true := by
  rcases enableBoth_cases x a with ⟨ep, hep, h0⟩ | h
  · rw [enableBoth_of_some hep h0]
    refine ⟨rfl, fun hc => hc.modifyCtrl a _, fun e he => ?_, fun e he => ?_⟩
    · by_cases hea : e = a
      · subst hea
        exact Function.update_self _ _ _
      · exact (Function.update_of_ne hea _ _).trans he
    · rcases ctrlEnabled_enableEp he with he | rfl
      · exact Or.inl he
      · exact Or.inr (by rw [hep]; rfl)
  · rw [enableBoth_of_skipped h]
    exact ⟨rfl, id, fun _ he => he, fun _ he => Or.inl he⟩

/-- What a pass does: every allocated half gets its turn. -/
theorem enableBoth_foldl (as : List EpId) (x : Sys × Toggles) :
    (as.foldl enableBoth x).1.ep = x.1.ep ∧
      (x.1.CtrlClean → (as.foldl enableBoth x).1.CtrlClean) ∧
      (∀ e, x.2 e = false ∨ e ∈ as ∧ (x.1.ep e).isSome = true ∧ e.num.val ≠ 0 →
        (as.foldl enableBoth x).2 e = false) ∧
      ∀ e, (as.foldl enableBoth x).1.ctrlEnabled e = true →
        x.1.ctrlEnabled e = true ∨ (x.1.ep e).isSome = true := by
  induction as generalizing x with
  | nil =>
    refine ⟨rfl, id, fun e he => ?_, fun _ he => Or.inl he⟩
    rcases he with he | ⟨he, -⟩
    · exact he
    · simp at he
  | cons a as ih =>
    obtain ⟨hep, hclean, htog, hena⟩ := enableBoth_spec x a
    obtain ⟨ihep, ihclean, ihtog, ihena⟩ := ih (enableBoth x a)
    rw [List.foldl_cons]
    refine ⟨ihep.trans hep, fun hc => ihclean (hclean hc), fun e he => ihtog e ?_, fun e he => ?_⟩
    · rcases he with he | ⟨hmem, halloc, h0⟩
      · exact Or.inl (htog e he)
      · rcases List.mem_cons.mp hmem with rfl | hmem
        · -- its own turn
          obtain ⟨ep, hep'⟩ := Option.isSome_iff_exists.mp halloc
          rw [enableBoth_of_some hep' h0]
          exact Or.inl (Function.update_self _ _ _)
        · rw [hep]
          exact Or.inr ⟨hmem, halloc, h0⟩
    · rcases ihena e he with he | he
      · exact hena e he
      · rw [hep] at he
        exact Or.inr he

theorem exec_enableEndpoints (h : s.WF) (hc : s.CtrlClean) :
    exec usbToggles 1 Driver.enableEndpoints (s, t) =
      ⟨.ok (), EpId.all.foldl enableBoth (s, t),
        trail enableBoth (fun _ _ => []) (s, t) EpId.all⟩ := by
  rw [Driver.enableEndpoints, forNonzeroEndpoints, endpointsIterMut_eq, each_map]
  refine exec_each usbToggles 1 (I := fun x => x.1.WF ∧ x.1.CtrlClean) EpId.all (s, t)
    (fun e _ x hx => ?_) ⟨h, hc⟩
  obtain ⟨s, t⟩ := x
  -- the lookup leaves registers and toggles alone
  have hlook : exec usbToggles 1 (endpoint e.address) (s, t) = ⟨.ok (s.ep e), (s, t), []⟩ := by
    rw [exec_toggles_within (only_endpoint _) hx.2, run_endpoint hx.1, Sys.lookup_address]
  rw [exec_bind, hlook, Out.andThen_ok]
  rcases enableBoth_cases (s, t) e with ⟨ep, hep, h0⟩ | hskip
  · have hep' : s.ep e = some ep := hep
    have hat := (hx.1.epOk e ep hep').inPlace
    have hnum : ep.address.index ≠ 0 := by rw [hat.address, EpId.address_index]; exact h0
    rw [enableBoth_of_some hep h0, hep']
    refine ⟨?_, (modifyCtrl_effect hx.1 e _).wf, hx.2.modifyCtrl e _⟩
    show exec usbToggles 1 (if ep.address.index ≠ 0 then ep.enable else pure ()) (s, t) = _
    rw [if_pos hnum]
    exact exec_enable hat h0 hx.2
  · rw [enableBoth_of_skipped hskip]
    refine ⟨?_, hx⟩
    cases hep : s.ep e with
    | none => rfl
    | some ep =>
      have hat := (hx.1.epOk e ep hep).inPlace
      have h0 : e.num.val = 0 := by
        rcases hskip with hnone | h0
        · have hnone' : s.ep e = none := hnone
          rw [hep] at hnone'
          simp at hnone'
        · exact h0
      have hnum : ¬ ep.address.index ≠ 0 := by rw [hat.address, EpId.address_index, h0]; simp
      show exec usbToggles 1 (if ep.address.index ≠ 0 then ep.enable else pure ()) (s, t) = _
      rw [if_neg hnum]
      rfl

theorem notCtrl_primeEndpoints : Within notCtrl Driver.primeEndpoints :=
  only_forNonzeroEndpoints fun ep => only_primeTurn (transfers_notCtrl ep).toArms

/-- After `configure` every allocated half is back at DATA0, and no half is
    enabled that is not allocated. -/
theorem exec_configure {r : Ret} {o : List Obs} (h : s.WF) (hc : s.CtrlClean)
    (hrun : exec usbToggles 1 Call.configure.prog (s, t) = ⟨.ok r, (s', t'), o⟩) :
    s'.CtrlClean ∧
      (∀ e, (s.ep e).isSome = true → e.num.val ≠ 0 → t' e = false) ∧
      ∀ e, s'.ctrlEnabled e = true → s.ctrlEnabled e = true ∨ (s.ep e).isSome = true := by
  obtain ⟨-, hclean, htog, hena⟩ := enableBoth_foldl EpId.all (s, t)
  have hprime := keeps_of_within notCtrl_primeEndpoints 1 (EpId.all.foldl enableBoth (s, t))
    (hclean hc)
  have hpost : (s', t') =
      (exec usbToggles 1 Driver.primeEndpoints (EpId.all.foldl enableBoth (s, t))).post := by
    -- first the halves are enabled, then their transfers are armed
    have hconf : exec usbToggles 1 Driver.onConfigured (s, t) =
        (Out.mk (.ok ()) (EpId.all.foldl enableBoth (s, t))
          (trail enableBoth (fun _ _ => []) (s, t) EpId.all)).andThen fun _ x =>
            exec usbToggles 1 Driver.primeEndpoints x := by
      rw [Driver.onConfigured, exec_bind, exec_enableEndpoints h hc]
    have hprog : Call.configure.prog = Driver.onConfigured >>= fun _ => pure Ret.unit := rfl
    rw [hprog, exec_bind, hconf, Out.andThen_ok_obs] at hrun
    generalize exec usbToggles 1 Driver.primeEndpoints (EpId.all.foldl enableBoth (s, t)) = x
      at hrun
    obtain ⟨res, post, obs⟩ := x
    cases res with
    | ok a =>
      rw [Out.andThen_ok_obs] at hrun
      exact (congrArg Out.post hrun).symm
    | fail f => simp [Out.andThen] at hrun
    | spin => simp [Out.andThen] at hrun
  rw [← hpost] at hprime
  obtain ⟨hclean', ht, hena'⟩ := hprime
  refine ⟨hclean', fun e he h0 => ?_, fun e he => hena e (hena' e he)⟩
  have ht' : t' = _ := ht
  rw [ht']
  exact htog e (Or.inr ⟨e.mem_all, he, h0⟩)

end Configure

end ImxrtUsbd
