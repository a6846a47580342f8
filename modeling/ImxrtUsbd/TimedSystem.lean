/-
  ImxrtUsbd.TimedSystem

  The system that runs, with its timers: USB calls and steps of the
  controller, calls on the timers, and time that passes.

  Erase the timers (`Sys.untimed`), and every run is a run of the system
  without them (`timers_transparent`): a USB call neither sees nor touches what
  belongs to a timer, and a timer call nothing else.
-/
import ImxrtUsbd.Timer
import ImxrtUsbd.Configuration
import ImxrtUsbd.Lib.Refinement
import ImxrtUsbd.Lib.Replay

namespace ImxrtUsbd

open Lib
open Gpt (Instance Mode)

/-! ## Runs with timers -/

inductive TimedLabel where
  | usb (l : Label)
  /-- A call on a timer that returned `r`. -/
  | gpt (i : Instance) (c : GptCall) (r : GptRet)
  | tick

inductive TimedStep (x : TimedSys) : TimedLabel → TimedSys → Prop where
  | usb {l : Label} {s' : Sys} : Step x.sys l s' → TimedStep x (.usb l) { x with sys := s' }
  | gpt {i : Instance} {c : GptCall} {r : GptRet} {x' : TimedSys} :
      runGpt (c.prog i) x = ⟨.ok r, x', []⟩ → TimedStep x (.gpt i c r) x'
  | tick : TimedStep x .tick x.tick

abbrev TimedTrace := Hist TimedSys TimedLabel

/-- A call on a timer always returns, with this answer. -/
theorem TimedStep.gpt_eq {x x' : TimedSys} {i : Instance} {c : GptCall} {r : GptRet}
    (h : TimedStep x (.gpt i c r) x') : r = c.answer i x ∧ x' = c.apply i x := by
  cases h with
  | gpt hrun =>
    rw [run_gptCall] at hrun
    obtain ⟨hr, hx, -⟩ := Out.mk.inj hrun
    exact ⟨(Res.ok.inj hr).symm, hx.symm⟩

/-! ## Erasing the timers -/

/-- The bits of both timers. -/
def timerBits : Word := Instance.mask .Gpt0 ||| Instance.mask .Gpt1

namespace Sys

/-- The system without what belongs to the timers. -/
def untimed (s : Sys) : Sys :=
  (s.setReg .USBSTS (s.reg .USBSTS &&& ~~~ timerBits)).setReg .USBINTR
    (s.reg .USBINTR &&& ~~~ timerBits)

end Sys

section Erasure

variable {s s' : Sys}

theorem reg_untimed (s : Sys) {r : Reg} (h1 : r ≠ .USBSTS) (h2 : r ≠ .USBINTR) :
    s.untimed.reg r = s.reg r := by
  rw [Sys.untimed, Sys.reg_setReg_of_ne _ _ h2, Sys.reg_setReg_of_ne _ _ h1]

theorem usbsts_untimed (s : Sys) : s.untimed.reg .USBSTS = s.reg .USBSTS &&& ~~~ timerBits := rfl

theorem usbintr_untimed (s : Sys) :
    s.untimed.reg .USBINTR = s.reg .USBINTR &&& ~~~ timerBits := rfl

/-- Two systems that differ in their registers alone. -/
theorem Sys.ext_reg {s s' : Sys} (h : { s with reg := s'.reg } = s')
    (hreg : ∀ r, s.reg r = s'.reg r) : s = s' := by
  rw [← h, ← funext hreg]

theorem wf_untimed (h : s.WF) : s.untimed.WF := by
  have h1 := Effect.setReg h (r := .USBSTS) (v := s.reg .USBSTS &&& ~~~ timerBits) (by simp)
    (by simp)
  exact (Effect.setReg h1.wf (by simp) (by simp)).wf

/-! ### Registers -/

theorem untimed_setReg (s : Sys) {r : Reg} (v : Word) (h1 : r ≠ .USBSTS) (h2 : r ≠ .USBINTR) :
    (s.setReg r v).untimed = s.untimed.setReg r v := by
  have hreg : ∀ x, (s.setReg r v).untimed.reg x = (s.untimed.setReg r v).reg x := by
    intro x
    by_cases hx1 : x = .USBSTS
    · subst hx1
      rw [usbsts_untimed, Sys.reg_setReg_of_ne _ _ h1.symm, Sys.reg_setReg_of_ne _ _ h1.symm,
        usbsts_untimed]
    · by_cases hx2 : x = .USBINTR
      · subst hx2
        rw [usbintr_untimed, Sys.reg_setReg_of_ne _ _ h2.symm, Sys.reg_setReg_of_ne _ _ h2.symm,
          usbintr_untimed]
      · rw [reg_untimed _ hx1 hx2]
        by_cases hr : x = r
        · subst hr
          rw [Sys.reg_setReg_self, Sys.reg_setReg_self]
        · rw [Sys.reg_setReg_of_ne _ _ hr, Sys.reg_setReg_of_ne _ _ hr, reg_untimed _ hx1 hx2]
  exact Sys.ext_reg rfl hreg

theorem untimed_lower (s : Sys) {r : Reg} (m : Word) (h1 : r ≠ .USBSTS) (h2 : r ≠ .USBINTR) :
    (s.lower r m).untimed = s.untimed.lower r m := by
  rw [Sys.lower, untimed_setReg _ _ h1 h2, Sys.lower, reg_untimed _ h1 h2]

theorem untimed_raise (s : Sys) {r : Reg} (m : Word) (h1 : r ≠ .USBSTS) (h2 : r ≠ .USBINTR) :
    (s.raise r m).untimed = s.untimed.raise r m := by
  rw [Sys.raise, untimed_setReg _ _ h1 h2, Sys.raise, reg_untimed _ h1 h2]

theorem untimed_usbsts (s : Sys) (v : Word) :
    (s.setReg .USBSTS v).untimed = s.untimed.setReg .USBSTS (v &&& ~~~ timerBits) := by
  refine Sys.ext_reg rfl fun x => ?_
  by_cases hx1 : x = .USBSTS
  · subst hx1
    rfl
  · by_cases hx2 : x = .USBINTR
    · subst hx2
      rfl
    · rw [reg_untimed _ hx1 hx2, Sys.reg_setReg_of_ne _ _ hx1, Sys.reg_setReg_of_ne _ _ hx1,
        reg_untimed _ hx1 hx2]

theorem untimed_usbintr (s : Sys) (v : Word) :
    (s.setReg .USBINTR v).untimed = s.untimed.setReg .USBINTR (v &&& ~~~ timerBits) := by
  refine Sys.ext_reg rfl fun x => ?_
  by_cases hx1 : x = .USBSTS
  · subst hx1
    rfl
  · by_cases hx2 : x = .USBINTR
    · subst hx2
      rfl
    · rw [reg_untimed _ hx1 hx2, Sys.reg_setReg_of_ne _ _ hx2, Sys.reg_setReg_of_ne _ _ hx2,
        reg_untimed _ hx1 hx2]

theorem getLsbD_timerBits {j : Nat} (hj : j < 32) :
    timerBits.getLsbD j = (decide (j = 24) || decide (j = 25)) := by
  rw [timerBits, BitVec.getLsbD_or, Instance.mask_getLsbD _ hj, Instance.mask_getLsbD _ hj]
  rfl

/-- Without the timers' bits, words that differ in these alone are the same. -/
theorem and_not_timerBits {v w : Word}
    (h : ∀ j, j < 32 → j ≠ 24 → j ≠ 25 → v.getLsbD j = w.getLsbD j) :
    v &&& ~~~ timerBits = w &&& ~~~ timerBits := by
  apply BitVec.eq_of_getLsbD_eq
  intro j hj
  rw [BitVec.getLsbD_and, BitVec.getLsbD_and, BitVec.getLsbD_not, getLsbD_timerBits hj]
  by_cases h24 : j = 24
  · simp [h24]
  · by_cases h25 : j = 25
    · simp [h25]
    · rw [h j hj h24 h25]

/-- Clearing flags of the interrupt register. -/
theorem untimed_lower_usbsts (s : Sys) (m : Word) :
    (s.lower .USBSTS m).untimed = s.untimed.lower .USBSTS m := by
  rw [Sys.lower, untimed_usbsts, Sys.lower, usbsts_untimed, BitVec.and_assoc, BitVec.and_assoc,
    BitVec.and_comm (~~~ m)]

/-- Raising flags that are not a timer's. -/
theorem untimed_raise_usbsts (s : Sys) {m : Word} (hm : m &&& timerBits = 0) :
    (s.raise .USBSTS m).untimed = s.untimed.raise .USBSTS m := by
  have hword : (s.reg .USBSTS ||| m) &&& ~~~ timerBits = s.reg .USBSTS &&& ~~~ timerBits ||| m := by
    apply BitVec.eq_of_getLsbD_eq
    intro j hj
    have hbit := congrArg (fun v : Word => v.getLsbD j) hm
    simp only [BitVec.getLsbD_and, BitVec.getLsbD_or, BitVec.getLsbD_not] at hbit ⊢
    have hz : (0 : Word).getLsbD j = false := BitVec.getLsbD_zero
    rw [hz] at hbit
    cases hmj : m.getLsbD j with
    | false => rw [Bool.or_false, Bool.or_false]
    | true =>
      rw [hmj, Bool.true_and] at hbit
      rw [hbit, decide_eq_true hj, Bool.or_true, Bool.or_true]
      rfl
  rw [Sys.raise, untimed_usbsts, hword]
  rfl

/-- What a timer does to its own bits is erased. -/
theorem untimed_timer_usbsts (s : Sys) {v : Word}
    (h : ∀ j, j < 32 → j ≠ 24 → j ≠ 25 → v.getLsbD j = (s.reg .USBSTS).getLsbD j) :
    (s.setReg .USBSTS v).untimed = s.untimed := by
  rw [untimed_usbsts, and_not_timerBits h]
  exact Sys.ext_reg rfl fun x => by
    by_cases hx : x = .USBSTS
    · subst hx
      rfl
    · rw [Sys.reg_setReg_of_ne _ _ hx]

theorem untimed_timer_usbintr (s : Sys) {v : Word}
    (h : ∀ j, j < 32 → j ≠ 24 → j ≠ 25 → v.getLsbD j = (s.reg .USBINTR).getLsbD j) :
    (s.setReg .USBINTR v).untimed = s.untimed := by
  rw [untimed_usbintr, and_not_timerBits h]
  exact Sys.ext_reg rfl fun x => by
    by_cases hx : x = .USBINTR
    · subst hx
      rfl
    · rw [Sys.reg_setReg_of_ne _ _ hx]

/-! ### Endpoints -/

theorem untimed_arm (s : Sys) (e : EpId) (ptr size : Nat) :
    (s.arm e ptr size).untimed = s.untimed.arm e ptr size :=
  untimed_setReg
    { s with
      td := Function.update s.td e.slot ((s.td e.slot).armed ptr size)
      qh := Function.update s.qh e.slot
        ((s.qh e.slot).armed (s.driver.epAllocator.tdList + 32 * e.slot)) }
    (r := .ENDPTSTAT) (s.reg .ENDPTSTAT ||| e.mask) (by simp) (by simp)

theorem untimed_rearm (s : Sys) (e : EpId) (ep : Endpoint) (size : Nat) :
    (s.rearm e ep size).untimed = s.untimed.rearm e ep size := by
  rw [Sys.rearm, untimed_arm, untimed_lower _ _ (by simp) (by simp),
    untimed_lower _ _ (by simp) (by simp), Sys.rearm]

theorem untimed_send (s : Sys) (e : EpId) (ep : Endpoint) (buf : List Byte) :
    (s.send e ep buf).untimed = s.untimed.send e ep buf := by
  have hfill : ({ s.lower .ENDPTNAK e.mask with
        mem := s.mem.store ep.buffer.ptr (buf.take ep.packetLen) } : Sys).untimed =
      { s.untimed.lower .ENDPTNAK e.mask with
        mem := s.mem.store ep.buffer.ptr (buf.take ep.packetLen) } := by
    rw [← untimed_lower s _ (by simp) (by simp)]
    rfl
  rw [Sys.send, untimed_arm, hfill]
  rfl

theorem untimed_takeSetup (s : Sys) : s.takeSetup.untimed = s.untimed.takeSetup := by
  rw [Sys.takeSetup, untimed_setReg _ _ (by simp) (by simp),
    untimed_lower _ _ (by simp) (by simp)]
  rfl

theorem untimed_modifyCtrl (s : Sys) (e : EpId) (fs : List (Field × Word)) :
    (s.modifyCtrl e fs).untimed = s.untimed.modifyCtrl e fs := by
  have h1 : e.ctrlReg ≠ .USBSTS ∧ e.ctrlReg ≠ .USBINTR := by
    rcases e.ctrlReg_cases with hc | ⟨i, hc⟩ <;> rw [hc] <;> simp
  rw [Sys.modifyCtrl, untimed_setReg _ _ h1.1 h1.2, Sys.modifyCtrl, reg_untimed _ h1.1 h1.2]

theorem untimed_visit {eff : Sys → EpId → Endpoint → Sys}
    (h : ∀ s e ep, (eff s e ep).untimed = eff s.untimed e ep) (s : Sys) (e : EpId) :
    (s.visit eff e).untimed = s.untimed.visit eff e := by
  have hep : s.untimed.ep e = s.ep e := rfl
  unfold Sys.visit
  rw [hep]
  cases s.ep e with
  | none => rfl
  | some ep =>
    by_cases h0 : e.num.val = 0
    · simp only [h0, if_true]
    · simp only [h0, if_false, h]

/-- A pass commutes with the erasure if its turns do. -/
theorem untimed_pass {eff : Sys → EpId → Endpoint → Sys}
    (h : ∀ s e ep, (eff s e ep).untimed = eff s.untimed e ep) (s : Sys) :
    (s.pass eff).untimed = s.untimed.pass eff := by
  have hfold : ∀ (as : List EpId) (s : Sys),
      (as.foldl (Sys.visit eff) s).untimed = as.foldl (Sys.visit eff) s.untimed := by
    intro as
    induction as with
    | nil => exact fun _ => rfl
    | cons e as ih =>
      intro s
      rw [List.foldl_cons, List.foldl_cons, ih, untimed_visit h]
  exact hfold EpId.all s

theorem untimed_flushed (s : Sys) : s.flushed.untimed = s.untimed.flushed := by
  rw [Sys.flushed, untimed_lower _ _ (by simp) (by simp), untimed_setReg _ _ (by simp) (by simp),
    untimed_lower _ _ (by simp) (by simp), untimed_lower _ _ (by simp) (by simp)]
  rfl

theorem untimed_reset (s : Sys) : s.reset.untimed = s.untimed.reset := by
  have hturn : ∀ (s : Sys) (e : EpId) (ep : Endpoint),
      (s.disableEp e).untimed = s.untimed.disableEp e := by
    intro s e _
    rw [Sys.disableEp, untimed_modifyCtrl, Sys.disableEp]
  rw [Sys.reset, untimed_pass hturn, untimed_flushed, Sys.reset]

theorem untimed_enableTurn (s : Sys) (e : EpId) (ep : Endpoint) :
    (s.enableTurn e ep).untimed = s.untimed.enableTurn e ep := by
  rw [Sys.enableTurn, Sys.enableEp, untimed_modifyCtrl, Sys.enableTurn, Sys.enableEp]

theorem untimed_primeTurn (s : Sys) (e : EpId) (ep : Endpoint) :
    (s.primeTurn e ep).untimed = s.untimed.primeTurn e ep := by
  unfold Sys.primeTurn
  split
  · exact untimed_arm s e _ _
  · rfl

theorem untimed_configured (s : Sys) : s.configured.untimed = s.untimed.configured := by
  rw [Sys.configured, untimed_pass untimed_primeTurn, Sys.enableAll,
    untimed_pass untimed_enableTurn, Sys.configured, Sys.enableAll]

/-- The timers do not show in what a pass shows. -/
theorem passObs_untimed {eff : Sys → EpId → Endpoint → Sys}
    {see : Sys → EpId → Endpoint → List Obs}
    (h : ∀ s e ep, (eff s e ep).untimed = eff s.untimed e ep)
    (hsee : ∀ s e ep, see s.untimed e ep = see s e ep) (s : Sys) :
    s.untimed.passObs eff see = s.passObs eff see := by
  have htrail : ∀ (as : List EpId) (s : Sys),
      trail (Sys.visit eff) (Sys.visitObs see) s.untimed as =
        trail (Sys.visit eff) (Sys.visitObs see) s as := by
    intro as
    induction as with
    | nil => exact fun _ => rfl
    | cons e as ih =>
      intro s
      have hobs : s.untimed.visitObs see e = s.visitObs see e := by
        have hep : s.untimed.ep e = s.ep e := rfl
        unfold Sys.visitObs
        rw [hep]
        cases s.ep e with
        | none => rfl
        | some ep => simp only [hsee]
      rw [trail, trail, ← untimed_visit h, ih, hobs]
  exact htrail EpId.all s

theorem configuredObs_untimed (s : Sys) : s.untimed.configuredObs = s.configuredObs := by
  rw [Sys.configuredObs, Sys.configuredObs, Sys.enableAll, ← untimed_pass untimed_enableTurn]
  refine passObs_untimed untimed_primeTurn (fun s e ep => ?_) _
  unfold Sys.primeObs
  split <;> rfl

/-! ### The calls -/

section Calls

variable {o : List Obs}

theorem run_read_untimed {addr : EndpointAddress} {buf : List Byte}
    {r : Except UsbError (Nat × List Byte)} (h : s.WF)
    (hrun : run (BusAdapter.read addr buf) s = ⟨.ok r, s', o⟩) :
    run (BusAdapter.read addr buf) s.untimed = ⟨.ok r, s'.untimed, o⟩ := by
  have h' := wf_untimed h
  cases halloc : s.lookup addr with
  | none =>
    rw [run_busRead_none h halloc] at hrun
    obtain ⟨hr, rfl, rfl⟩ := Out.mk.inj hrun
    rw [run_busRead_none h' halloc, hr]
  | some _ =>
    have hsome : (s.lookup addr).isSome := by rw [halloc]; rfl
    obtain ⟨e, he, -, hep | ⟨h0, hnone⟩⟩ := Sys.exists_readsFrom hsome
    · obtain ⟨ep, hep⟩ := Option.isSome_iff_exists.mp hep
      -- the guards and the observations do not look at the timers
      have hrun' : run (BusAdapter.read addr buf) s.untimed =
          if s.TakesSetup e buf then
            if s.primed e then ⟨.ok (s.readRet e ep buf), s.untimed.takeSetup, s.setupObs⟩
            else
              ⟨.ok (s.readRet e ep buf),
                (s.untimed.takeSetup.lower .ENDPTNAK e.mask).arm e ep.buffer.ptr ep.packetLen,
                s.setupObs ++ s.armObs e⟩
          else if s.Readable e ep then
            ⟨.ok (s.readRet e ep buf), s.untimed.rearm e ep ep.packetLen, s.armObs e⟩
          else ⟨.ok (s.readRet e ep buf), s.untimed, []⟩ :=
        run_busRead h' he hep buf
      rw [← untimed_takeSetup, ← untimed_lower _ _ (by simp) (by simp), ← untimed_arm,
        ← untimed_rearm] at hrun'
      rw [run_busRead h he hep] at hrun
      rw [hrun']
      split at hrun
      · rename_i hset
        rw [if_pos hset]
        split at hrun <;> rename_i hp <;> obtain ⟨hr, rfl, rfl⟩ := Out.mk.inj hrun
        · rw [if_pos hp, hr]
        · rw [if_neg hp, hr]
      · rename_i hset
        rw [if_neg hset]
        split at hrun <;> rename_i hr <;> obtain ⟨hret, rfl, rfl⟩ := Out.mk.inj hrun
        · rw [if_pos hr, hret]
        · rw [if_neg hr, hret]
    · rw [run_busRead_panic h hsome h0 hnone] at hrun
      simp at hrun

theorem run_write_untimed {addr : EndpointAddress} {buf : List Byte} {r : Except UsbError Nat}
    (h : s.WF) (hrun : run (BusAdapter.write addr buf) s = ⟨.ok r, s', o⟩) :
    run (BusAdapter.write addr buf) s.untimed = ⟨.ok r, s'.untimed, o⟩ := by
  have h' := wf_untimed h
  cases halloc : s.lookup addr with
  | none =>
    rw [run_busWrite_none h halloc] at hrun
    obtain ⟨hr, rfl, rfl⟩ := Out.mk.inj hrun
    rw [run_busWrite_none h' halloc, hr]
  | some ep =>
    have hsome : (s.lookup addr).isSome := by rw [halloc]; rfl
    by_cases h0 : addr.index = 0
    · cases hep : s.ep .ep0In with
      | none =>
        have := run_busWrite_fails h hsome h0 (Or.inl hep) buf
        rw [hrun] at this
        simp at this
      | some ep =>
        by_cases hw : s.Writable .ep0In
        · cases hepo : s.ep .ep0Out with
          | none =>
            have := run_busWrite_fails h hsome h0 (Or.inr ⟨hepo, hw⟩) buf
            rw [hrun] at this
            simp at this
          | some epo =>
            -- the guards and the observations do not look at the timers
            have hrun' : run (BusAdapter.write addr buf) s.untimed =
                if s.primed .ep0Out then
                  ⟨.ok (s.writeRet .ep0In ep buf), s.untimed.send .ep0In ep buf, s.armObs .ep0In⟩
                else
                  ⟨.ok (s.writeRet .ep0In ep buf),
                    (s.untimed.send .ep0In ep buf).rearm .ep0Out epo 0,
                    s.armObs .ep0In ++ (s.send .ep0In ep buf).armObs .ep0Out⟩ :=
              run_busWrite_zero h' hsome h0 hep hepo hw buf
            rw [← untimed_send, ← untimed_rearm] at hrun'
            rw [run_busWrite_zero h hsome h0 hep hepo hw] at hrun
            rw [hrun']
            split at hrun <;> rename_i hp <;> obtain ⟨hr, rfl, rfl⟩ := Out.mk.inj hrun
            · rw [if_pos hp, hr]
            · rw [if_neg hp, hr]
        · rw [run_busWrite_refused h hsome h0 hep hw] at hrun
          obtain ⟨hr, rfl, rfl⟩ := Out.mk.inj hrun
          rw [← hr]
          exact run_busWrite_refused h' hsome h0 hep hw buf
    · obtain ⟨e, rfl, hep⟩ := Sys.lookup_eq_some halloc
      rw [EpId.address_index] at h0
      have hrun' : run (BusAdapter.write e.address buf) s.untimed =
          if s.Writable e then
            ⟨.ok (s.writeRet e ep buf), s.untimed.send e ep buf, s.armObs e⟩
          else ⟨.ok (s.writeRet e ep buf), s.untimed, []⟩ :=
        run_busWrite h' h0 hep buf
      rw [← untimed_send] at hrun'
      rw [run_busWrite h h0 hep] at hrun
      rw [hrun']
      split at hrun <;> rename_i hw <;> obtain ⟨hr, rfl, rfl⟩ := Out.mk.inj hrun
      · rw [if_pos hw, hr]
      · rw [if_neg hw, hr]

theorem run_setStalled_untimed {addr : EndpointAddress} {stalled : Bool} (h : s.WF)
    (hrun : run (BusAdapter.setStalled addr stalled) s = ⟨.ok (), s', o⟩) :
    run (BusAdapter.setStalled addr stalled) s.untimed = ⟨.ok (), s'.untimed, o⟩ := by
  have h' := wf_untimed h
  cases halloc : s.lookup addr with
  | none =>
    rw [run_setStalled_none h halloc] at hrun
    obtain ⟨-, rfl, rfl⟩ := Out.mk.inj hrun
    exact run_setStalled_none h' halloc stalled
  | some ep =>
    obtain ⟨e, rfl, hep⟩ := Sys.lookup_eq_some halloc
    have hstall : (s.setStall e stalled).untimed = s.untimed.setStall e stalled := by
      rw [Sys.setStall, untimed_modifyCtrl, Sys.setStall]
    have hrun' : run (BusAdapter.setStalled e.address stalled) s.untimed =
        if stalled = false ∧ e.dir = .Out ∧ s.primed e = false then
          ⟨.ok (), (s.untimed.setStall e stalled).arm e ep.buffer.ptr ep.packetLen, s.armObs e⟩
        else ⟨.ok (), s.untimed.setStall e stalled, []⟩ :=
      run_busSetStalled h' hep stalled
    rw [← hstall, ← untimed_arm] at hrun'
    rw [run_busSetStalled h hep] at hrun
    rw [hrun']
    split at hrun <;> rename_i hc <;> obtain ⟨-, rfl, rfl⟩ := Out.mk.inj hrun
    · rw [if_pos hc]
    · rw [if_neg hc]

/-- The flags a poll looks at are not a timer's. -/
theorem usbsts_bit_untimed (s : Sys) {j : Nat} (hj : j < 24) :
    (s.untimed.reg .USBSTS).getLsbD j = (s.reg .USBSTS).getLsbD j := by
  have h24 : j ≠ 24 := by omega
  have h25 : j ≠ 25 := by omega
  have h32 : j < 32 := by omega
  rw [usbsts_untimed, BitVec.getLsbD_and, BitVec.getLsbD_not, getLsbD_timerBits h32,
    decide_eq_false h24, decide_eq_false h25, decide_eq_true h32]
  exact Bool.and_true _

theorem untimed_polled (s : Sys) : s.polled.untimed = s.untimed.polled := by
  rw [Sys.polled, untimed_lower _ _ (by simp) (by simp), Sys.polled, ← untimed_lower_usbsts]
  rfl

theorem run_poll_untimed {r : PollResult} (hrun : run Driver.poll s = ⟨.ok r, s', o⟩) :
    run Driver.poll s.untimed = ⟨.ok r, s'.untimed, o⟩ := by
  have hreset : s.untimed.resetReceived = s.resetReceived := usbsts_bit_untimed s (by omega)
  have htraffic : s.untimed.usbInterrupt = s.usbInterrupt := usbsts_bit_untimed s (by omega)
  rw [run_poll] at hrun
  rw [run_poll, hreset, htraffic]
  split at hrun
  · rename_i hr
    obtain ⟨hret, rfl, rfl⟩ := Out.mk.inj hrun
    rw [if_pos hr, untimed_lower_usbsts, hret]
  · rename_i hr
    rw [if_neg hr]
    split at hrun <;> rename_i hu <;> obtain ⟨hret, rfl, rfl⟩ := Out.mk.inj hrun
    · rw [if_pos hu, untimed_polled, ← hret]
      rfl
    · rw [if_neg hu, hret]

/-- A field next to the timers' bits. -/
theorem set_and_not_timerBits {f : Field} (x v : Word)
    (hf : ∀ j, f.Has j → timerBits.getLsbD j = false) :
    f.set x v &&& ~~~ timerBits = f.set x (v &&& ~~~ timerBits) := by
  apply BitVec.eq_of_getLsbD_eq
  intro j hj
  rw [BitVec.getLsbD_and, BitVec.getLsbD_not, Field.getLsbD_set _ _ _ hj,
    Field.getLsbD_set _ _ _ hj]
  by_cases hj' : f.Has j
  · rw [if_pos hj', if_pos hj', hf j hj', decide_eq_true hj]
    exact Bool.and_true _
  · rw [if_neg hj', if_neg hj', BitVec.getLsbD_and, BitVec.getLsbD_not]

theorem run_setInterrupts_untimed {interrupts : Bool}
    (hrun : run (Driver.setInterrupts interrupts) s = ⟨.ok (), s', o⟩) :
    run (Driver.setInterrupts interrupts) s.untimed = ⟨.ok (), s'.untimed, o⟩ := by
  have hue : ∀ j, USBINTR.UE.Has j → timerBits.getLsbD j = false := by
    rintro j ⟨-, hj⟩
    obtain rfl : j = 0 := Nat.lt_one_iff.mp hj
    decide
  have hure : ∀ j, USBINTR.URE.Has j → timerBits.getLsbD j = false := by
    rintro j ⟨h1, h2⟩
    obtain rfl : j = 6 := by
      have h1 : 6 ≤ j := h1
      have h2 : j < 6 + 1 := h2
      omega
    decide
  have hword : ∀ x v : Word, setFields [(USBINTR.UE, x), (USBINTR.URE, x)] v &&& ~~~ timerBits =
      setFields [(USBINTR.UE, x), (USBINTR.URE, x)] (v &&& ~~~ timerBits) := by
    intro x v
    show USBINTR.URE.set x (USBINTR.UE.set x v) &&& ~~~ timerBits = _
    rw [set_and_not_timerBits _ _ hure, set_and_not_timerBits _ _ hue]
    rfl
  rw [Driver.setInterrupts] at hrun ⊢
  split at hrun <;> rename_i hb <;> rw [run_modifyReg _ _ _ (by simp)] at hrun <;>
    obtain ⟨-, rfl, rfl⟩ := Out.mk.inj hrun
  · rw [if_pos hb, run_modifyReg _ _ _ (by simp), usbintr_untimed, ← hword]
    exact congrArg (fun t => Out.mk (.ok ()) t []) (untimed_usbintr s _).symm
  · rw [if_neg hb, run_modifyReg _ _ _ (by simp), usbintr_untimed, ← hword]
    exact congrArg (fun t => Out.mk (.ok ()) t []) (untimed_usbintr s _).symm

/-- A value made of the result, on both sides. -/
theorem run_map_untimed {α β : Type} {p : UsbM α} {f : α → β} {r : β}
    (h : ∀ a, run p s = ⟨.ok a, s', o⟩ → run p s.untimed = ⟨.ok a, s'.untimed, o⟩)
    (hrun : run (p >>= fun a => pure (f a)) s = ⟨.ok r, s', o⟩) :
    run (p >>= fun a => pure (f a)) s.untimed = ⟨.ok r, s'.untimed, o⟩ := by
  obtain ⟨a, hp, rfl⟩ := run_map_ok hrun
  rw [run_bind, h a hp, Out.andThen_ok_obs, run_pure, List.append_nil]

theorem run_isStalled_untimed {addr : EndpointAddress} {r : Bool} (h : s.WF)
    (hrun : run (BusAdapter.isStalled addr) s = ⟨.ok r, s', o⟩) :
    run (BusAdapter.isStalled addr) s.untimed = ⟨.ok r, s'.untimed, o⟩ := by
  cases halloc : s.lookup addr with
  | none =>
    rw [run_isStalled_none h halloc] at hrun
    simp at hrun
  | some ep =>
    obtain ⟨e, rfl, hep⟩ := Sys.lookup_eq_some halloc
    rw [run_busIsStalled h hep] at hrun
    obtain ⟨hr, rfl, rfl⟩ := Out.mk.inj hrun
    have hstalled : s.untimed.stalled e = s.stalled e := by
      have hc : e.ctrlReg ≠ .USBSTS ∧ e.ctrlReg ≠ .USBINTR := by
        rcases e.ctrlReg_cases with hc | ⟨i, hc⟩ <;> rw [hc] <;> simp
      rw [Sys.stalled, reg_untimed _ hc.1 hc.2, Sys.stalled]
    rw [run_busIsStalled (wf_untimed h) hep, hstalled, hr]

theorem run_busReset_untimed {debugAssertions : Bool} (h : s.WF)
    (hrun : run (Driver.busReset debugAssertions) s = ⟨.ok (), s', o⟩) :
    run (Driver.busReset debugAssertions) s.untimed = ⟨.ok (), s'.untimed, o⟩ := by
  have hport : s.untimed.portReset = s.portReset := rfl
  rw [run_busReset h] at hrun
  rw [run_busReset (wf_untimed h), hport]
  split at hrun
  · simp at hrun
  · rename_i hc
    obtain ⟨-, rfl, rfl⟩ := Out.mk.inj hrun
    rw [if_neg hc, untimed_reset]

theorem run_onConfigured_untimed (h : s.WF)
    (hrun : run Driver.onConfigured s = ⟨.ok (), s', o⟩) :
    run Driver.onConfigured s.untimed = ⟨.ok (), s'.untimed, o⟩ := by
  rw [run_onConfigured h] at hrun
  obtain ⟨-, rfl, rfl⟩ := Out.mk.inj hrun
  rw [run_onConfigured (wf_untimed h), untimed_configured, configuredObs_untimed]

theorem run_setAddress_untimed {address : BitVec 8}
    (hrun : run (Driver.setAddress address) s = ⟨.ok (), s', o⟩) :
    run (Driver.setAddress address) s.untimed = ⟨.ok (), s'.untimed, o⟩ := by
  rw [Driver.setAddress, run_writeReg _ _ _ (by simp)] at hrun ⊢
  obtain ⟨-, rfl, rfl⟩ := Out.mk.inj hrun
  exact congrArg (fun t => Out.mk (.ok ()) t [])
    (untimed_setReg s (r := .DEVICEADDR) _ (by simp) (by simp)).symm

theorem run_attach_untimed (h : s.WF) (hrun : run Driver.attach s = ⟨.ok (), s', o⟩) :
    run Driver.attach s.untimed = ⟨.ok (), s'.untimed, o⟩ := by
  rw [run_attach h] at hrun
  obtain ⟨-, rfl, rfl⟩ := Out.mk.inj hrun
  rw [run_attach (wf_untimed h), untimed_setReg _ _ (by simp) (by simp)]
  rfl

theorem run_enableZlt_untimed {addr : EndpointAddress} (h : s.WF)
    (hrun : run (Driver.enableZlt addr) s = ⟨.ok (), s', o⟩) :
    run (Driver.enableZlt addr) s.untimed = ⟨.ok (), s'.untimed, o⟩ := by
  rw [Driver.enableZlt, run_bind, run_endpoint h, Out.andThen_ok] at hrun
  have hlookup : s.untimed.lookup addr = s.lookup addr := rfl
  rw [Driver.enableZlt, run_bind, run_endpoint (wf_untimed h), Out.andThen_ok, hlookup]
  cases hep : s.lookup addr with
  | none =>
    rw [hep] at hrun
    obtain ⟨-, rfl, rfl⟩ := Out.mk.inj hrun
    rfl
  | some ep =>
    rw [hep] at hrun
    obtain ⟨-, rfl, rfl⟩ := Out.mk.inj hrun
    rfl

/-- A call does the same with and without the timers. -/
theorem Call.run_untimed {c : Call} {r : Ret} (h : s.WF)
    (hrun : run c.prog s = ⟨.ok r, s', o⟩) : run c.prog s.untimed = ⟨.ok r, s'.untimed, o⟩ := by
  cases c with
  | poll => exact run_map_untimed (fun _ => run_poll_untimed) hrun
  | read addr buf => exact run_map_untimed (fun _ => run_read_untimed h) hrun
  | write addr buf => exact run_map_untimed (fun _ => run_write_untimed h) hrun
  | setStalled addr stalled =>
    exact run_map_untimed (f := fun _ => Ret.unit) (fun _ => run_setStalled_untimed h) hrun
  | isStalled addr => exact run_map_untimed (fun _ => run_isStalled_untimed h) hrun
  | reset debugAssertions =>
    exact run_map_untimed (f := fun _ => Ret.unit) (fun _ => run_busReset_untimed h) hrun
  | configure =>
    exact run_map_untimed (f := fun _ => Ret.unit) (fun _ => run_onConfigured_untimed h) hrun
  | setDeviceAddress addr =>
    exact run_map_untimed (f := fun _ => Ret.unit) (fun _ => run_setAddress_untimed) hrun
  | enable => exact run_map_untimed (f := fun _ => Ret.unit) (fun _ => run_attach_untimed h) hrun
  | enableZlt addr =>
    exact run_map_untimed (f := fun _ => Ret.unit) (fun _ => run_enableZlt_untimed h) hrun
  | setInterrupts interrupts =>
    exact run_map_untimed (f := fun _ => Ret.unit) (fun _ => run_setInterrupts_untimed) hrun

end Calls

/-! ### The controller -/

theorem enabled_untimed {ev : HwEvent} (h : ev.Enabled s) : ev.Enabled s.untimed := by
  cases ev with
  | outDone | inDone | error => exact h
  | setup | nak | resetBegin | resetEnd => trivial

theorem untimed_retire (s : Sys) (e : EpId) (k : Nat) (status : Word) :
    (HwEvent.retire s e k status).untimed = HwEvent.retire s.untimed e k status := by
  rw [HwEvent.retire, untimed_lower _ _ (by simp) (by simp)]
  rfl

/-- The end of a transfer, with the flags it raises. -/
theorem untimed_complete (s : Sys) (e : EpId) (k : Nat) :
    (((HwEvent.retire s e k 0).raise .ENDPTCOMPLETE e.mask).raise .USBSTS
      (USBSTS.UI.put 1)).untimed =
    ((HwEvent.retire s.untimed e k 0).raise .ENDPTCOMPLETE e.mask).raise .USBSTS
      (USBSTS.UI.put 1) := by
  rw [untimed_raise_usbsts _ (by decide), untimed_raise _ _ (by simp) (by simp), untimed_retire]

theorem HwEvent.apply_untimed (ev : HwEvent) (s : Sys) :
    (ev.apply s).untimed = ev.apply s.untimed := by
  cases ev with
  | outDone n data =>
    exact untimed_complete { s with mem := dmaStore (s.td (EpId.slot ⟨.Out, n⟩)) s.mem 0 data }
      ⟨.Out, n⟩ data.length
  | inDone n k => exact untimed_complete s ⟨.In, n⟩ k
  | error e halted dataBuffer transaction =>
    rw [HwEvent.apply, untimed_raise_usbsts _ (by decide), untimed_retire, HwEvent.apply]
  | setup packet =>
    rw [HwEvent.apply, untimed_raise_usbsts _ (by decide), untimed_lower _ _ (by simp) (by simp),
      untimed_raise _ _ (by simp) (by simp), untimed_lower _ _ (by simp) (by simp)]
    rfl
  | nak e => exact untimed_raise s _ (by simp) (by simp)
  | resetBegin =>
    rw [HwEvent.apply, untimed_setReg _ _ (by simp) (by simp),
      untimed_raise _ _ (by simp) (by simp), untimed_raise_usbsts _ (by decide), HwEvent.apply]
  | resetEnd => exact untimed_lower s _ (by simp) (by simp)

/-- Every step is one without the timers. -/
theorem Step.untimed {l : Label} (h : s.WF) (hstep : Step s l s') :
    Step s.untimed l s'.untimed := by
  cases hstep with
  | call hrun => exact .call (Call.run_untimed h hrun)
  | hw hev =>
    rw [HwEvent.apply_untimed]
    exact .hw (enabled_untimed hev)

end Erasure

/-! ## Timers do not show -/

/-- What a timer does, seen without the timers: nothing. -/
theorem Sys.untimed_raise_timer (s : Sys) {m : Word}
    (hm : ∀ j, j < 32 → j ≠ 24 → j ≠ 25 → m.getLsbD j = false) :
    (s.raise .USBSTS m).untimed = s.untimed := by
  refine untimed_timer_usbsts s fun j hj h24 h25 => ?_
  rw [BitVec.getLsbD_or, hm j hj h24 h25, Bool.or_false]

theorem Gpt.Instance.getLsbD_mask_of_usb (i : Instance) {j : Nat} (hj : j < 32) (h24 : j ≠ 24)
    (h25 : j ≠ 25) : i.mask.getLsbD j = false := by
  rw [i.mask_getLsbD hj]
  cases i with
  | Gpt0 => exact decide_eq_false h24
  | Gpt1 => exact decide_eq_false h25

theorem TimedSys.tick_untimed (x : TimedSys) : x.tick.sys.untimed = x.sys.untimed := by
  refine Sys.untimed_raise_timer _ fun j hj h24 h25 => ?_
  have h0 := Instance.getLsbD_mask_of_usb .Gpt0 hj h24 h25
  have h1 := Instance.getLsbD_mask_of_usb .Gpt1 hj h24 h25
  have hz : (0 : Word).getLsbD j = false := BitVec.getLsbD_zero
  rw [BitVec.getLsbD_or]
  split <;> split <;> simp only [h0, h1, hz, Bool.or_self]

theorem GptCall.apply_untimed (c : GptCall) (i : Instance) (x : TimedSys) :
    (c.apply i x).sys.untimed = x.sys.untimed := by
  cases c with
  | clearElapsed =>
    refine untimed_timer_usbsts x.sys fun j hj h24 h25 => ?_
    rw [BitVec.getLsbD_and, BitVec.getLsbD_not, i.getLsbD_mask_of_usb hj h24 h25, decide_eq_true hj]
    exact Bool.and_true _
  | setInterruptEnabled enable =>
    cases enable with
    | false =>
      refine untimed_timer_usbintr x.sys fun j hj h24 h25 => ?_
      rw [BitVec.getLsbD_and, BitVec.getLsbD_not, i.getLsbD_mask_of_usb hj h24 h25,
        decide_eq_true hj]
      exact Bool.and_true _
    | true =>
      refine untimed_timer_usbintr x.sys fun j hj h24 h25 => ?_
      rw [BitVec.getLsbD_or, i.getLsbD_mask_of_usb hj h24 h25, Bool.or_false]
  | run | isRunning | stop | reset | setMode | mode | setLoad | load | isElapsed
  | isInterruptEnabled => rfl

/-- What is seen of a step without the timers. -/
def TimedLabel.usb? : TimedLabel → Option Label
  | .usb l => some l
  | .gpt _ _ _ | .tick => none

theorem TimedStep.wf {x x' : TimedSys} {l : TimedLabel} (h : x.sys.WF) (hstep : TimedStep x l x') :
    x'.sys.WF := by
  cases hstep with
  | usb hstep => exact hstep.wf h
  | tick => exact (Effect.raise h _ (by simp) (by simp)).wf
  | @gpt i c r x' hrun =>
    obtain ⟨-, rfl⟩ := TimedStep.gpt_eq (.gpt hrun)
    cases c with
    | clearElapsed => exact (Effect.lower h (r := .USBSTS) i.mask (by simp)).wf
    | setInterruptEnabled enable =>
      cases enable with
      | false => exact (Effect.lower h (r := .USBINTR) i.mask (by simp)).wf
      | true => exact (Effect.raise h _ (by simp) (by simp)).wf
    | run | isRunning | stop | reset | setMode | mode | setLoad | load | isElapsed
    | isInterruptEnabled => exact h

theorem timers_refine : Refines TimedStep Step (fun _ _ => True) (fun _ l => l.usb?)
    (fun x s => s = x.sys.untimed ∧ x.sys.WF) where
  visible := by
    rintro x x' s l k ⟨rfl, hwf⟩ - hstep hk
    cases hstep with
    | usb hstep =>
      obtain rfl := Option.some.inj hk
      exact ⟨_, hstep.untimed hwf, rfl, hstep.wf hwf⟩
    | gpt => simp [TimedLabel.usb?] at hk
    | tick => simp [TimedLabel.usb?] at hk
  silent := by
    rintro x x' s l ⟨rfl, hwf⟩ - hstep hk
    refine ⟨?_, hstep.wf hwf⟩
    cases hstep with
    | usb => simp [TimedLabel.usb?] at hk
    | @gpt i c r x' hrun =>
      obtain ⟨-, rfl⟩ := TimedStep.gpt_eq (.gpt hrun)
      exact (c.apply_untimed i x).symm
    | tick => exact x.tick_untimed.symm

/-- The flags and interrupt enables of the timers put back. -/
theorem wf_of_untimed {s : Sys} (h : s.untimed.WF) : s.WF := by
  have h1 := Effect.setReg h (r := .USBSTS) (v := s.reg .USBSTS) (by simp) (by simp)
  have h2 := Effect.setReg h1.wf (r := .USBINTR) (v := s.reg .USBINTR) (by simp) (by simp)
  have hs : (s.untimed.setReg .USBSTS (s.reg .USBSTS)).setReg .USBINTR (s.reg .USBINTR) = s := by
    refine Sys.ext_reg rfl fun r => ?_
    by_cases hr2 : r = .USBINTR
    · subst hr2
      rfl
    · rw [Sys.reg_setReg_of_ne _ _ hr2]
      by_cases hr1 : r = .USBSTS
      · subst hr1
        rfl
      · rw [Sys.reg_setReg_of_ne _ _ hr1, reg_untimed _ hr1 hr2]
  rw [← hs]
  exact h2.wf

/-- The history without the timers. -/
def TimedTrace.untimed (tr : TimedTrace) : Trace :=
  shadow (fun x => x.sys.untimed) (fun _ l => l.usb?) tr

/-- Whatever the timers do, and whatever is done to them at any time: without
    them, a run is a run of the USB calls and the controller alone, with the
    same calls in the same order, which return and show the same. -/
theorem timers_transparent {x x' : TimedSys} {tr : TimedTrace} (hb : Booted x.sys.untimed)
    (hrun : Run TimedStep x tr x') : Run Step x.sys.untimed tr.untimed x'.sys.untimed :=
  (timers_refine.run_shadow hrun (fun _ _ _ _ _ => trivial) (wf_of_untimed hb.idle.wf)).1

/-! ## A device with timers -/

/-- What there is to do. -/
inductive TimedCmd where
  | usb (c : Cmd)
  | gpt (i : Instance) (c : GptCall)
  | tick

def timedPerform (x : TimedSys) : TimedCmd → Option (TimedLabel × TimedSys)
  | .usb c => (perform x.sys c).map fun y => (.usb y.1, { x with sys := y.2 })
  | .gpt i c => some (.gpt i c (c.answer i x), c.apply i x)
  | .tick => some (.tick, x.tick)

theorem timedPerform_sound (x : TimedSys) (c : TimedCmd) (l : TimedLabel) (x' : TimedSys)
    (h : timedPerform x c = some (l, x')) : TimedStep x l x' := by
  cases c with
  | usb c =>
    obtain ⟨⟨k, s'⟩, hk, hx⟩ := Option.map_eq_some_iff.mp h
    obtain ⟨rfl, rfl⟩ := Prod.mk.inj hx
    exact .usb (perform_iff.mp hk).2
  | gpt i c =>
    obtain ⟨rfl, rfl⟩ := Prod.mk.inj (Option.some.inj h)
    exact .gpt (run_gptCall i c x)
  | tick =>
    obtain ⟨rfl, rfl⟩ := Prod.mk.inj (Option.some.inj h)
    exact .tick

/-- The device, its timers after a controller reset. -/
def timedDevice : TimedSys where
  sys := device
  timer := fun _ => ⟨false, false, 0, 0, false⟩

theorem timedDevice_untimed : timedDevice.sys.untimed = device := by
  have hintr : device.reg .USBINTR = 0 := by decide +kernel
  refine Sys.ext_reg rfl fun r => ?_
  by_cases hr1 : r = .USBSTS
  · subst hr1
    show device.untimed.reg .USBSTS = _
    rw [usbsts_untimed, device_booted.usbsts]
    rfl
  · by_cases hr2 : r = .USBINTR
    · subst hr2
      show device.untimed.reg .USBINTR = _
      rw [usbintr_untimed, hintr]
      rfl
    · exact reg_untimed _ hr1 hr2

theorem timedDevice_booted : Booted timedDevice.sys.untimed := by
  rw [timedDevice_untimed]
  exact device_booted

theorem timers_transparent_device : ∃ (tr : TimedTrace) (x' : TimedSys),
    Run Step timedDevice.sys.untimed tr.untimed x'.sys.untimed ∧
      tr.length = 8 ∧ tr.untimed.length = 2 := by
  obtain ⟨tr, x', hrun, hlen⟩ := exists_performed timedPerform_sound
    (p := fun tr _ => tr.length = 8 ∧ (TimedTrace.untimed tr).length = 2) timedDevice
    [.gpt .Gpt0 (.setLoad 2), .gpt .Gpt0 .reset, .gpt .Gpt0 .run, .usb (.call .enable), .tick,
      .gpt .Gpt0 (.setInterruptEnabled true), .tick, .usb (.call .poll)] (by decide +kernel)
  exact ⟨tr, x', timers_transparent timedDevice_booted hrun, hlen⟩

end ImxrtUsbd
