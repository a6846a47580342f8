/-
  ImxrtUsbd.SessionSpec

  The operations that are about all endpoints at once: `poll`, `bus_reset` and
  `on_configured`, with the pass over the non-zero endpoints that the last two
  make.
-/
import ImxrtUsbd.DriverSpec
import ImxrtUsbd.HalfControl
import ImxrtUsbd.Lib.Kept

namespace ImxrtUsbd

open Lib
open EndpointAllocator (endpoint forNonzeroEndpoints endpointsIterMut)

/-! ## Passes over the non-zero endpoints -/

/-- All endpoints, in the order of `endpoints_iter_mut`. -/
def EpId.all : List EpId :=
  (List.finRange 8).flatMap fun n => [⟨.Out, n⟩, ⟨.In, n⟩]

theorem endpointsIterMut_eq : endpointsIterMut = EpId.all.map EpId.address := by decide

theorem EpId.mem_all (e : EpId) : e ∈ EpId.all := by
  obtain ⟨d, n⟩ := e
  rw [all, List.mem_flatMap]
  exact ⟨n, List.mem_finRange n, by cases d <;> simp⟩

theorem EpId.nodup_all : EpId.all.Nodup := by decide

theorem each_map {α β : Type} (f : α → β) (body : β → UsbM Unit) (as : List α) :
    Prog.each body (as.map f) = Prog.each (fun a => body (f a)) as := by
  induction as with
  | nil => rfl
  | cons a as ih => rw [List.map_cons, Prog.each, ih, Prog.each]

/-- Of the actions of a pass, an endpoint sees those of its own turn. -/
theorem flatMap_only {as : List EpId} (hn : as.Nodup) {e : EpId} (he : e ∈ as)
    (f : EpId → List EpAct) : (as.flatMap fun a => only a (f a) e) = f e := by
  have hnone : ∀ bs : List EpId, e ∉ bs → (bs.flatMap fun a => only a (f a) e) = [] := by
    intro bs hbs
    rw [List.flatMap_eq_nil_iff]
    intro a ha
    exact only_of_ne (fun hea : e = a => hbs (by rwa [hea])) _
  induction as with
  | nil => simp at he
  | cons a as ih =>
    rw [List.flatMap_cons]
    rw [List.nodup_cons] at hn
    rcases List.mem_cons.mp he with rfl | he
    · rw [only_self, hnone as hn.1, List.append_nil]
    · have hea : e ≠ a := fun hea => hn.1 (hea ▸ he)
      rw [only_of_ne hea, List.nil_append]
      exact ih hn.2 he

namespace Sys

/-- One turn of a pass: the effect on an allocated non-zero endpoint. -/
def visit (eff : Sys → EpId → Endpoint → Sys) (s : Sys) (e : EpId) : Sys :=
  match s.ep e with
  | some ep => if e.num.val = 0 then s else eff s e ep
  | none => s

/-- What it shows. -/
def visitObs (see : Sys → EpId → Endpoint → List Obs) (s : Sys) (e : EpId) : List Obs :=
  match s.ep e with
  | some ep => if e.num.val = 0 then [] else see s e ep
  | none => []

/-- What it does to the endpoint. -/
def visitActs (s : Sys) (acts : EpId → Endpoint → List EpAct) (e : EpId) : List EpAct :=
  match s.ep e with
  | some ep => if e.num.val = 0 then [] else acts e ep
  | none => []

/-- A pass: every endpoint gets its turn. -/
def pass (eff : Sys → EpId → Endpoint → Sys) (s : Sys) : Sys := EpId.all.foldl (visit eff) s

def passObs (eff : Sys → EpId → Endpoint → Sys) (see : Sys → EpId → Endpoint → List Obs)
    (s : Sys) : List Obs :=
  trail (visit eff) (visitObs see) s EpId.all

end Sys

/-- What relates each turn's ends relates the ends of the pass. -/
theorem Sys.pass_composes {R : Sys → List Obs → Sys → Prop} (hR : Composes R)
    {eff : Sys → EpId → Endpoint → Sys} (see : Sys → EpId → Endpoint → List Obs)
    (hturn : ∀ s e ep, s.ep e = some ep → R s (see s e ep) (eff s e ep)) (s : Sys) :
    R s (s.passObs eff see) (s.pass eff) := by
  refine hR.trail (fun s e => ?_) EpId.all s
  unfold visit visitObs
  cases hep : s.ep e with
  | none => exact hR.refl s
  | some ep =>
    by_cases h0 : e.num.val = 0
    · simpa only [h0, if_true] using hR.refl s
    · simpa only [h0, if_false] using hturn s e ep hep

/-- A pass that shows nothing. -/
theorem Sys.passObs_nil (eff : Sys → EpId → Endpoint → Sys) (s : Sys) :
    s.passObs eff (fun _ _ _ => []) = [] := by
  have hsilent : Composes fun (_ : Sys) (o : List Obs) (_ : Sys) => o = [] :=
    { refl := fun _ => rfl
      trans := fun h h' => by rw [h, h', List.append_nil] }
  exact pass_composes hsilent _ (fun _ _ _ _ => rfl) s

/-- What holds through every turn holds through the pass. -/
theorem Sys.pass_invariant {I : Sys → Prop} {eff : Sys → EpId → Endpoint → Sys}
    (hturn : ∀ s e ep, s.ep e = some ep → I s → I (eff s e ep)) {s : Sys} (h : I s) :
    I (s.pass eff) := by
  have hkept : Composes fun (s : Sys) (_ : List Obs) (s' : Sys) => I s → I s' :=
    { refl := fun _ h => h
      trans := fun h h' hs => h' (h hs) }
  exact pass_composes hkept (fun _ _ _ => []) hturn s h

namespace Sys

variable {β : Type} {eff : Sys → EpId → Endpoint → Sys}

/-- What an allocated non-zero endpoint's own turn makes of `b`. -/
def turn (s : Sys) (e : EpId) (g : Endpoint → β → β) (b : β) : β :=
  match s.ep e with
  | some ep => if e.num.val = 0 then b else g ep b
  | none => b

theorem turn_some {s : Sys} {e : EpId} {ep : Endpoint} (hep : s.ep e = some ep)
    (h0 : e.num.val ≠ 0) (g : Endpoint → β → β) (b : β) : s.turn e g b = g ep b := by
  rw [turn, hep]
  exact if_neg h0

theorem turn_none {s : Sys} {e : EpId} (hep : s.ep e = none) (g : Endpoint → β → β) (b : β) :
    s.turn e g b = b := by
  rw [turn, hep]

/-- What only the endpoint's own turn changes is changed by that turn. -/
theorem pass_at {o : Sys → β} {g : Endpoint → β → β} {e : EpId}
    (hep : ∀ s f fp, (eff s f fp).ep = s.ep) (hself : ∀ s ep, o (eff s e ep) = g ep (o s))
    (hother : ∀ s f fp, f ≠ e → o (eff s f fp) = o s) (s : Sys) :
    o (s.pass eff) = s.turn e g (o s) := by
  have hvisit : ∀ s f, (s.visit eff f).ep = s.ep ∧
      o (s.visit eff f) = if f = e then s.turn e g (o s) else o s := by
    intro s f
    unfold visit
    by_cases hf : f = e
    · subst hf
      rw [if_pos rfl, turn]
      cases s.ep f with
      | none => exact ⟨rfl, rfl⟩
      | some fp =>
        by_cases h0 : f.num.val = 0
        · simp [h0]
        · simp [h0, hep, hself]
    · rw [if_neg hf]
      cases s.ep f with
      | none => exact ⟨rfl, rfl⟩
      | some fp =>
        by_cases h0 : f.num.val = 0
        · simp [h0]
        · simp [h0, hep, hother s f fp hf]
  -- before its turn and after it, nothing changes
  have hfold : ∀ (as : List EpId) (s : Sys), as.Nodup →
      o (as.foldl (visit eff) s) = if e ∈ as then s.turn e g (o s) else o s := by
    intro as
    induction as with
    | nil => exact fun s _ => rfl
    | cons a as ih =>
      intro s hn
      obtain ⟨hmem, hn⟩ := List.nodup_cons.mp hn
      obtain ⟨hsame, ho⟩ := hvisit s a
      have hturn : (s.visit eff a).turn e g = s.turn e g := by
        funext b
        rw [turn, hsame]
        rfl
      rw [List.foldl_cons, ih _ hn, hturn, ho]
      by_cases ha : a = e
      · subst ha
        simp [hmem]
      · simp [ha, Ne.symm ha]
  rw [pass, hfold EpId.all s EpId.nodup_all, if_pos e.mem_all]

end Sys

section Pass

variable {body : Endpoint → UsbM Unit} {eff : Sys → EpId → Endpoint → Sys}
  {see : Sys → EpId → Endpoint → List Obs} {I : Sys → Prop}

/-- The pass is run by running its body for every allocated non-zero endpoint. -/
theorem run_forNonzeroEndpoints {s : Sys}
    (hbody : ∀ s e ep, s.WF → I s → s.ep e = some ep → e.num.val ≠ 0 →
      run (body ep) s = ⟨.ok (), eff s e ep, see s e ep⟩ ∧ (eff s e ep).WF ∧ I (eff s e ep))
    (h : s.WF) (hI : I s) :
    run (forNonzeroEndpoints body) s = ⟨.ok (), s.pass eff, s.passObs eff see⟩ := by
  rw [forNonzeroEndpoints, endpointsIterMut_eq, each_map]
  refine exec_each usb 1 (I := fun s => s.WF ∧ I s) EpId.all s (fun e _ s hs => ?_) ⟨h, hI⟩
  change run _ s = _ ∧ _
  rw [run_bind, run_endpoint hs.1, Out.andThen_ok, Sys.lookup_address]
  cases hep : s.ep e with
  | none => exact ⟨by simp [Sys.visit, Sys.visitObs, hep], by simpa [Sys.visit, hep] using hs⟩
  | some ep =>
    have hat := (hs.1.epOk e ep hep).inPlace
    by_cases h0 : e.num.val = 0
    · refine ⟨?_, by simpa [Sys.visit, hep, h0] using hs⟩
      simp [Sys.visit, Sys.visitObs, hep, hat.address, h0]
    · obtain ⟨hrun, hwf, hI'⟩ := hbody s e ep hs.1 hs.2 hep h0
      refine ⟨?_, by simpa [Sys.visit, hep, h0] using ⟨hwf, hI'⟩⟩
      simp [Sys.visit, Sys.visitObs, hep, hat.address, h0, hrun]

/-- The effect of a pass, from the effect of each turn. -/
theorem pass_effect {s₀ : Sys} {acts : EpId → Endpoint → List EpAct}
    (hturn : ∀ s e ep, s.WF → I s → s.ep e = some ep → e.num.val ≠ 0 →
      Effect s (only e (acts e ep)) (eff s e ep) (see s e ep) ∧ I (eff s e ep))
    (h : s₀.WF) (hI : I s₀) :
    Effect s₀ (s₀.visitActs acts) (s₀.pass eff) (s₀.passObs eff see) ∧ I (s₀.pass eff) := by
  have hfold : ∀ (as : List EpId) (s : Sys), s.WF → I s → s.ep = s₀.ep →
      Effect s (fun e => as.flatMap fun a => only a (s₀.visitActs acts a) e)
        (as.foldl (Sys.visit eff) s) (trail (Sys.visit eff) (Sys.visitObs see) s as) ∧
      I (as.foldl (Sys.visit eff) s) := by
    intro as
    induction as with
    | nil => exact fun s hs hI _ => ⟨.refl hs, hI⟩
    | cons a as ih =>
      intro s hs hI hep
      -- one turn, then the rest of the pass from where it leaves
      have hone : Effect s (only a (s₀.visitActs acts a)) (s.visit eff a) (s.visitObs see a) ∧
          I (s.visit eff a) := by
        rw [Sys.visitActs, ← hep]
        cases ha : s.ep a with
        | none =>
          simp only [Sys.visit, Sys.visitObs, ha]
          exact ⟨(Effect.refl hs).congr fun e => by unfold only; split <;> rfl, hI⟩
        | some ep =>
          by_cases h0 : a.num.val = 0
          · simp only [Sys.visit, Sys.visitObs, ha, h0, if_true]
            exact ⟨(Effect.refl hs).congr fun e => by unfold only; split <;> rfl, hI⟩
          · simp only [Sys.visit, Sys.visitObs, ha, h0, if_false]
            exact hturn s a ep hs hI ha h0
      have hrest := ih (s.visit eff a) hone.1.wf hone.2
        ((funext hone.1.frame.ep).trans hep)
      exact ⟨hone.1.trans hrest.1, hrest.2⟩
  obtain ⟨heff, hI'⟩ := hfold EpId.all s₀ h hI rfl
  exact ⟨heff.congr fun e => flatMap_only EpId.nodup_all e.mem_all _, hI'⟩

/-- A pass whose turns do nothing to the endpoints. -/
theorem quietPass_effect {s₀ : Sys}
    (hturn : ∀ s e ep, s.WF → Effect s (fun _ => []) (eff s e ep) []) (h : s₀.WF) :
    Effect s₀ (fun _ => []) (s₀.pass eff) [] := by
  have hpass : Effect s₀ (s₀.visitActs fun _ _ => []) (s₀.pass eff)
      (s₀.passObs eff fun _ _ _ => []) ∧ True :=
    pass_effect (I := fun _ => True) (fun s e ep hs _ _ _ =>
      ⟨(hturn s e ep hs).congr fun f => (only_nil e f).symm, trivial⟩) h trivial
  rw [Sys.passObs_nil] at hpass
  refine hpass.1.congr fun e => ?_
  rw [Sys.visitActs]
  cases s₀.ep e with
  | none => rfl
  | some ep =>
    show (if e.num.val = 0 then [] else []) = _
    split <;> rfl

end Pass

/-! ## Endpoint control -/

namespace EpId

/-- The enable bit of the endpoint in its control register. -/
def enableBit (e : EpId) : Nat := 7 + 16 * e.inBit

end EpId

namespace Sys

variable {s : Sys}

theorem enabled_eq (s : Sys) {e : EpId} (h : e.num.val ≠ 0) :
    s.enabled e = (s.reg e.ctrlReg).getLsbD e.enableBit := by
  have hbeq : (e.num.val == 0) = false := by simpa using h
  rw [enabled, hbeq, Bool.false_or, EpId.enableBit, EpId.inBit]
  cases e.dir with
  | Out => exact Field.get_bit_eq_one ENDPTCTRL.RXE _ rfl (by decide)
  | In => exact Field.get_bit_eq_one ENDPTCTRL.TXE _ rfl (by decide)

end Sys

/-- A pass of one operation for every allocated non-zero endpoint. -/
theorem control_pass (op : Endpoint → ControlOp) {eff : Sys → EpId → Endpoint → Sys}
    (heff : ∀ s f fp, eff s f fp = s.modifyCtrl f ((op fp).writes f)) (s : Sys) (e : EpId) :
    (s.pass eff).control e = s.turn e (fun ep c => (op ep).apply c) (s.control e) := by
  refine Sys.pass_at (o := fun s => s.control e) (fun s f fp => ?_) (fun s ep => ?_)
    (fun s f fp hf => ?_) s
  · rw [heff]
    rfl
  · rw [heff, control_modifyCtrl, if_pos rfl]
  · rw [heff, control_modifyCtrl, if_neg (Ne.symm hf)]

theorem ctrlReg_arm (s : Sys) (f : EpId) (ptr size : Nat) (e : EpId) :
    (s.arm f ptr size).reg e.ctrlReg = s.reg e.ctrlReg := by
  refine Sys.reg_arm_of_ne _ _ _ _ ?_
  rcases e.ctrlReg_cases with hc | ⟨i, hc⟩ <;> rw [hc] <;> simp

theorem modifyCtrl_effect {s : Sys} (h : s.WF) (e : EpId) (fs : List (Field × Word)) :
    Effect s (fun _ => []) (s.modifyCtrl e fs) [] := by
  rcases e.ctrlReg_cases with hc | ⟨i, hc⟩ <;>
    exact Effect.setReg h (by rw [hc]; simp) (by rw [hc]; simp)

/-! ## Reset -/

namespace Sys

/-- What `bus_reset` does before it goes through the endpoints: completions and
    NAKs acknowledged, everything flushed. -/
def flushed (s : Sys) : Sys :=
  (((s.lower .ENDPTCOMPLETE (s.reg .ENDPTCOMPLETE)).lower .ENDPTNAK (s.reg .ENDPTNAK)).setReg
    .ENDPTNAKEN 0).lower .ENDPTSTAT 0xFFFFFFFF

/-- The state after `bus_reset`. -/
def reset (s : Sys) : Sys := s.flushed.pass fun s e _ => s.disableEp e

end Sys

theorem flushed_effect {s : Sys} (h : s.WF) :
    Effect s (fun _ => [.ack, .unprime]) s.flushed [] := by
  have hack := Effect.lowerComplete h (s.reg .ENDPTCOMPLETE) (fun _ => True)
    fun e he => iff_true_intro he
  have hnak := Effect.lower hack.wf (r := .ENDPTNAK) (s.reg .ENDPTNAK) (by simp)
  have hnaken := Effect.setReg hnak.wf (r := .ENDPTNAKEN) (v := 0) (by simp) (by simp)
  have hall : ∀ e : EpId, (0xFFFFFFFF : Word).getLsbD e.bit = true := by
    rw [EpId.forall_iff]
    decide
  have hstat := Effect.lowerStat hnaken.wf 0xFFFFFFFF (fun _ => True)
    fun e _ => iff_true_intro (hall e)
  exact (((hack.trans hnak).trans hnaken).trans hstat).congr fun e => rfl

theorem reset_effect {s : Sys} (h : s.WF) :
    Effect s (fun _ => [.ack, .unprime]) s.reset [] := by
  have hflush := flushed_effect h
  have hpass : Effect s.flushed (fun _ => []) s.reset [] :=
    quietPass_effect (fun _ e _ hs => modifyCtrl_effect hs e _) hflush.wf
  exact hflush.trans hpass

/-- The host is still driving the reset. -/
def Sys.portReset (s : Sys) : Bool := PORTSC1.PR.get (s.reg .PORTSC1) == 1

theorem run_busReset {s : Sys} (h : s.WF) (debugAssertions : Bool) :
    run (Driver.busReset debugAssertions) s =
      if debugAssertions && !s.portReset then ⟨.fail .panic, s.flushed, []⟩
      else ⟨.ok (), s.reset, []⟩ := by
  have hwf := (flushed_effect h).wf
  -- the pass over the endpoints, from the flushed state
  have hpass : run Driver.initializeEndpoints s.flushed = ⟨.ok (), s.reset, []⟩ := by
    rw [Sys.reset, ← Sys.passObs_nil (fun s e _ => s.disableEp e) s.flushed]
    refine run_forNonzeroEndpoints (I := fun _ => True) (fun s e ep hs _ hep h0 => ?_) hwf trivial
    refine ⟨?_, (modifyCtrl_effect hs e _).wf, trivial⟩
    rw [run_initializeEp (hs.epOk e ep hep).inPlace, if_neg h0]
  -- the prelude, whatever follows it
  have hstart : ∀ k : UsbM Unit, run (do
      writeBack .ENDPTSTAT
      writeBack .ENDPTCOMPLETE
      writeBack .ENDPTNAK
      writeReg .ENDPTNAKEN 0
      waitZero .ENDPTPRIME
      writeReg .ENDPTFLUSH 0xFFFFFFFF
      waitZero .ENDPTFLUSH
      k) s = run k s.flushed := by
    intro k
    rw [run_bind, run_writeBack _ _ (by simp), Out.andThen_ok, run_bind,
      run_writeBack _ _ (by simp), Out.andThen_ok, run_bind, run_writeBack _ _ (by simp),
      Out.andThen_ok, run_bind, run_writeReg _ _ _ (by simp), Out.andThen_ok, run_bind,
      run_waitZero _ _ (by exact h.prime), Out.andThen_ok, run_bind, run_writeReg _ _ _ (by simp),
      Out.andThen_ok, run_bind, run_waitZero _ _ (by exact h.flush), Out.andThen_ok]
    rfl
  rw [Driver.busReset, hstart]
  cases debugAssertions with
  | false => exact hpass
  | true =>
    have hreg : s.flushed.reg .PORTSC1 = s.reg .PORTSC1 := rfl
    rw [if_pos rfl, run_bind, run_readField, Out.andThen_ok, hreg, Bool.true_and, run_bind]
    by_cases hpr : PORTSC1.PR.get (s.reg .PORTSC1) = 1
    · have hp : s.portReset = true := by simpa [Sys.portReset] using hpr
      rw [run_require _ hpr, Out.andThen_ok, hpass, hp]
      rfl
    · have hp : s.portReset = false := by simpa [Sys.portReset] using hpr
      have hreq : run (.require .panic (PORTSC1.PR.get (s.reg .PORTSC1) = 1)) s.flushed =
          ⟨.fail .panic, s.flushed, []⟩ := by
        rw [Prog.require, if_neg hpr]
        rfl
      rw [hreq, hp]
      rfl

/-! ## Configuration -/

namespace Sys

/-- One turn of `enable_endpoints`. -/
def enableTurn (s : Sys) (e : EpId) (ep : Endpoint) : Sys := s.enableEp e ep.kind

def enableAll (s : Sys) : Sys := s.pass enableTurn

/-- One turn of `prime_endpoints`, for an enabled endpoint. -/
def primeTurn (s : Sys) (e : EpId) (ep : Endpoint) : Sys :=
  if e.dir = .Out then s.arm e ep.buffer.ptr ep.packetLen else s

def primeObs (s : Sys) (e : EpId) (_ : Endpoint) : List Obs :=
  if e.dir = .Out then s.armObs e else []

/-- The state after `on_configured`. -/
def configured (s : Sys) : Sys := s.enableAll.pass primeTurn

def configuredObs (s : Sys) : List Obs := s.enableAll.passObs primeTurn primeObs

/-- Every allocated non-zero endpoint is enabled. -/
def AllEnabled (s : Sys) : Prop :=
  ∀ e ep, s.ep e = some ep → e.num.val ≠ 0 → s.enabled e = true

end Sys

theorem control_enableAll (s : Sys) (e : EpId) :
    s.enableAll.control e =
      s.turn e (fun ep c => (ControlOp.enable ep.kind).apply c) (s.control e) :=
  control_pass (fun ep => .enable ep.kind) (fun s f fp => s.enableEp_eq f fp.kind) s e

/-- The pass of `enable_endpoints` leaves no endpoint out. -/
theorem enableAll_effect {s : Sys} (h : s.WF) :
    Effect s (fun _ => []) s.enableAll [] ∧ s.enableAll.AllEnabled := by
  have heff : Effect s (fun _ => []) s.enableAll [] :=
    quietPass_effect (fun _ e _ hs => modifyCtrl_effect hs e _) h
  refine ⟨heff, fun e ep hep h0 => ?_⟩
  rw [heff.frame.ep] at hep
  rw [Sys.enabled_eq_enable _ h0, control_enableAll, Sys.turn_some hep h0]
  rfl

/-- What `on_configured` does to an endpoint. -/
def Sys.configureActs (s : Sys) : EpId → List EpAct :=
  s.visitActs fun e ep => if e.dir = .Out then [.schedule ep.packetLen] else []

theorem primeTurn_effect {s : Sys} {e : EpId} {ep : Endpoint} (h : s.WF) (hep : s.ep e = some ep) :
    Effect s (only e (if e.dir = .Out then [.schedule ep.packetLen] else []))
      (s.primeTurn e ep) (s.primeObs e ep) := by
  unfold Sys.primeTurn Sys.primeObs
  split
  · exact Effect.arm h hep (Nat.le_refl _)
  · exact (Effect.refl h).congr fun f => by unfold only; split <;> rfl

theorem allEnabled_primeTurn {s : Sys} (h : s.AllEnabled) (e : EpId) (ep : Endpoint) :
    (s.primeTurn e ep).AllEnabled := by
  unfold Sys.primeTurn
  split
  · intro f fp hf h0
    rw [Sys.enabled_eq_enable _ h0, Sys.control_congr (ctrlReg_arm s e _ _ f),
      ← Sys.enabled_eq_enable _ h0]
    exact h f fp hf h0
  · exact h

theorem configured_effect {s : Sys} (h : s.WF) :
    Effect s s.configureActs s.configured s.configuredObs := by
  obtain ⟨hena, hall⟩ := enableAll_effect h
  have hpass := pass_effect (I := fun _ => True)
    (fun s e ep hs _ hep _ => ⟨primeTurn_effect hs hep, trivial⟩) hena.wf trivial
  refine (hena.trans hpass.1).congr fun e => ?_
  rw [Sys.configureActs, List.nil_append, Sys.visitActs, Sys.visitActs, hena.frame.ep]

theorem run_onConfigured {s : Sys} (h : s.WF) :
    run Driver.onConfigured s = ⟨.ok (), s.configured, s.configuredObs⟩ := by
  obtain ⟨hena, hall⟩ := enableAll_effect h
  have henable : run Driver.enableEndpoints s = ⟨.ok (), s.enableAll, []⟩ := by
    rw [Sys.enableAll, ← Sys.passObs_nil Sys.enableTurn s]
    refine run_forNonzeroEndpoints (I := fun _ => True) (fun s e ep hs _ hep h0 => ?_) h trivial
    refine ⟨?_, (modifyCtrl_effect hs e _).wf, trivial⟩
    rw [run_enable (hs.epOk e ep hep).inPlace, if_neg h0]
    rfl
  have hprime : run Driver.primeEndpoints s.enableAll =
      ⟨.ok (), s.configured, s.configuredObs⟩ := by
    refine run_forNonzeroEndpoints (I := Sys.AllEnabled) (fun s e ep hs hall hep h0 => ?_)
      hena.wf hall
    have hat := (hs.epOk e ep hep).inPlace
    refine ⟨?_, (primeTurn_effect hs hep).wf, allEnabled_primeTurn hall e ep⟩
    rw [run_bind, run_isEnabled hat, Out.andThen_ok, hall e ep hep h0, hat.address,
      EpId.address_direction, Bool.true_and]
    unfold Sys.primeTurn Sys.primeObs
    cases hd : e.dir with
    | Out =>
      rw [if_pos rfl, if_pos rfl, if_pos (by decide), run_bind, run_packetLen hs hep,
        Out.andThen_ok, run_schedule hs hep]
    | In => rfl
  rw [Driver.onConfigured, run_bind, henable, Out.andThen_ok, hprime]

/-! ## Polling -/

namespace Sys

/-- Some USB interrupt is flagged; a reset was detected. -/
def usbInterrupt (s : Sys) : Bool := (s.reg .USBSTS).getLsbD 0
def resetReceived (s : Sys) : Bool := (s.reg .USBSTS).getLsbD 6

/-- What a `poll` that finds traffic reports. -/
def pollData (s : Sys) : PollResult :=
  .Data ((rxHalf.get (s.reg .ENDPTCOMPLETE)).setWidth 16)
    ((txHalf.get (s.reg .ENDPTCOMPLETE)).setWidth 16) ((s.reg .ENDPTSETUPSTAT).setWidth 16)

/-- The state it leaves. -/
def polled (s : Sys) : Sys :=
  let s := s.lower .USBSTS (USBSTS.UI.put 1)
  Sys.lower
    { s with driver :=
      { s.driver with epOut := (rxHalf.get (s.reg .ENDPTCOMPLETE)).setWidth 16 } }
    .ENDPTCOMPLETE (txHalf.put (txHalf.get (s.reg .ENDPTCOMPLETE)))

end Sys

theorem run_poll (s : Sys) :
    run Driver.poll s =
      if s.resetReceived then ⟨.ok .Reset, s.lower .USBSTS (USBSTS.URI.put 1), []⟩
      else if s.usbInterrupt then ⟨.ok s.pollData, s.polled, []⟩
      else ⟨.ok .None, s, []⟩ := by
  have huri : (s.reg .USBSTS &&& USBSTS.URI.mask 32 != 0) = s.resetReceived :=
    Field.and_bit_ne_zero _ (i := 6) (by decide)
  have hui : (s.reg .USBSTS &&& USBSTS.UI.mask 32 != 0) = s.usbInterrupt :=
    Field.and_bit_ne_zero _ (i := 0) (by decide)
  rw [Driver.poll, run_bind, run_readReg, Out.andThen_ok, huri, hui]
  split
  · rw [run_bind, writeField, run_writeReg _ _ _ (by simp), Out.andThen_ok, run_pure,
      Sys.writeReg_w1c _ _ (by simp)]
  · split
    · simp only [run_bind, writeField, run_writeReg _ _ _ (show Reg.USBSTS ≠ .ENDPTPRIME by simp),
        run_writeReg _ _ _ (show Reg.ENDPTCOMPLETE ≠ .ENDPTPRIME by simp), Out.andThen_ok,
        run_readField, run_getDriver, run_setDriver, run_readReg, run_pure,
        Sys.writeReg_w1c _ _ (show Reg.USBSTS = .USBSTS ∨ _ by simp),
        Sys.writeReg_w1c _ _ (show Reg.ENDPTCOMPLETE = .USBSTS ∨ _ by simp)]
      rfl
    · rfl

/-- `ep_out` is the receive half of `ENDPTCOMPLETE`. -/
theorem getLsbD_epOut (s : Sys) (n : Fin 8) :
    ((rxHalf.get (s.reg .ENDPTCOMPLETE)).setWidth 16).getLsbD n.val = s.completed ⟨.Out, n⟩ := by
  have h16 : n.val < 16 := by
    have := n.isLt
    omega
  have h8 : n.val < rxHalf.width := n.isLt
  rw [BitVec.getLsbD_setWidth, Field.getLsbD_get, decide_eq_true h16, decide_eq_true h8,
    Bool.true_and, Bool.true_and, Sys.completed, EpId.bit, EpId.inBit]
  congr 1
  show 0 + n.val = n.val + 16 * 0
  omega

theorem polled_effect {s : Sys} (h : s.WF) :
    Effect s (fun e => .signal (s.completed ⟨.Out, e.num⟩) :: if e.dir = .In then [.ack] else [])
      s.polled [] := by
  have hui := Effect.lower h (r := .USBSTS) (USBSTS.UI.put 1) (by simp)
  have hout := Effect.setEpOut hui.wf ((rxHalf.get (s.reg .ENDPTCOMPLETE)).setWidth 16)
  -- what is written back is the transmit half: bit by bit, those of IN endpoints
  have hin := Effect.lowerComplete hout.wf (txHalf.put (txHalf.get (s.reg .ENDPTCOMPLETE)))
    (fun e => e.dir = .In) fun e he => by
      have hbit : (s.reg .ENDPTCOMPLETE).getLsbD e.bit = true := he
      have hlt := e.bit_lt
      rw [Field.getLsbD_put _ _ hlt, Field.getLsbD_get, Bool.and_eq_true, Bool.and_eq_true,
        decide_eq_true_eq, decide_eq_true_eq]
      have hn := e.num.isLt
      unfold EpId.bit EpId.inBit at hbit ⊢
      cases hd : e.dir with
      | Out =>
        simp only [hd] at hbit ⊢
        refine ⟨fun hc => ?_, (by simp)⟩
        have : 16 ≤ e.num.val + 16 * 0 := hc.1.1
        omega
      | In =>
        simp only [hd, if_true] at hbit ⊢
        have hoff : txHalf.offset + (e.num.val + 16 * 1 - txHalf.offset) = e.num.val + 16 * 1 := by
          show 16 + (e.num.val + 16 * 1 - 16) = _
          omega
        refine iff_of_true ⟨⟨?_, ?_⟩, ?_, ?_⟩ trivial
        · show 16 ≤ e.num.val + 16 * 1
          omega
        · show e.num.val + 16 * 1 < 16 + 8
          omega
        · show e.num.val + 16 * 1 - 16 < 8
          omega
        · rw [hoff]
          exact hbit
  refine ((hui.trans hout).trans hin).congr fun e => ?_
  rw [getLsbD_epOut]
  rfl

end ImxrtUsbd
