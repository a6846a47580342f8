/-
  ImxrtUsbd.ToggleAgreement

  Whether the two sides of the bus agree on the data toggles.  Both flip with
  every transaction, and both are back at DATA0 after SET_CONFIGURATION; but
  when the host clears a halt only the host returns to DATA0.
  `toggles_agree_iff`: the sides stay in agreement exactly when every halt of
  an enabled half is cleared after an even number of transactions.
-/
import ImxrtUsbd.Toggles
import ImxrtUsbd.Lib.Replay

namespace ImxrtUsbd

open Lib

/-! ## The two sides of the bus -/

/-- The device, its toggles and those of the host. -/
structure Bus where
  sys : Sys
  device : Toggles
  host : Toggles

inductive BusLabel where
  | call (c : Call) (r : Ret) (obs : List Obs)
  | hw (ev : HwEvent)
  /-- A transaction that leaves the transfer going on. -/
  | packet (e : EpId)

/-- The host returns to DATA0: on SET_CONFIGURATION, which makes `usb-device`
    configure the driver, and on clearing the halt of the half, which makes it
    unstall the half. -/
def Call.resetsHost (c : Call) (e : EpId) : Bool :=
  match c with
  | .configure => true
  | .setStalled addr false => addr == e.address
  | _ => false

/-- A transaction of the half succeeds. -/
def BusLabel.transaction (l : BusLabel) (e : EpId) : Bool :=
  match l with
  | .hw (.outDone n _) => e == ⟨.Out, n⟩
  | .hw (.inDone n _) => e == ⟨.In, n⟩
  | .packet f => e == f
  | _ => false

/-- Both sides flip. -/
def Toggles.flip (t : Toggles) (l : BusLabel) : Toggles := fun e => t e ^^ l.transaction e

inductive BusStep (b : Bus) : BusLabel → Bus → Prop where
  | call {c : Call} {r : Ret} {s' : Sys} {t' : Toggles} {obs : List Obs} :
      exec usbToggles 1 c.prog (b.sys, b.device) = ⟨.ok r, (s', t'), obs⟩ →
        BusStep b (.call c r obs) ⟨s', t', fun e => if c.resetsHost e then false else b.host e⟩
  | hw {ev : HwEvent} : ev.Enabled b.sys → BusStep b (.hw ev)
      ⟨ev.apply b.sys, b.device.flip (.hw ev), b.host.flip (.hw ev)⟩
  | packet {e : EpId} : b.sys.primed e = true → BusStep b (.packet e)
      ⟨b.sys, b.device.flip (.packet e), b.host.flip (.packet e)⟩

/-- The sides agree on every enabled half other than the control endpoint's. -/
def Bus.Agree (b : Bus) : Prop :=
  ∀ e : EpId, e.num.val ≠ 0 → b.sys.enabled e = true → b.device e = b.host e

/-- The driver is configured. -/
def BusLabel.isConfigure : BusLabel → Bool
  | .call .configure _ _ => true
  | _ => false

/-- The half has seen this many transactions since it was configured. -/
def transactions (tr : Hist Bus BusLabel) (e : EpId) : Nat :=
  tr.foldl (fun n x => if x.2.isConfigure then 0 else n + (x.2.transaction e).toNat) 0

theorem transactions_snoc (tr : Hist Bus BusLabel) (e : EpId) (b : Bus) (l : BusLabel) :
    transactions (tr ++ [(b, l)]) e =
      if l.isConfigure then 0 else transactions tr e + (l.transaction e).toNat := by
  rw [transactions, List.foldl_append]
  rfl

/-- The halt of the half is cleared. -/
def BusLabel.clearsHalt (l : BusLabel) (e : EpId) : Bool :=
  match l with
  | .call (.setStalled addr false) _ _ => addr == e.address
  | _ => false

/-- Every halt of an enabled half is cleared after an even number of transactions. -/
def ClearsEven (tr : Hist Bus BusLabel) (b : Bus) (l : BusLabel) : Prop :=
  ∀ e : EpId, e.num.val ≠ 0 → b.sys.enabled e = true → l.clearsHalt e = true →
    transactions tr e % 2 = 0

/-! ## The invariant -/

/-- What is true of the bus while halts are cleared at even times. -/
structure BusInv (tr : Hist Bus BusLabel) (b : Bus) : Prop where
  wf : b.sys.WF
  clean : b.sys.CtrlClean
  allocated : ∀ e : EpId, e.num.val ≠ 0 → b.sys.enabled e = true → (b.sys.ep e).isSome = true
  device : ∀ e : EpId, e.num.val ≠ 0 → b.sys.enabled e = true →
    b.device e = decide (transactions tr e % 2 = 1)
  host : ∀ e : EpId, e.num.val ≠ 0 → b.sys.enabled e = true → b.host e = b.device e

theorem enabled_iff_ctrl (s : Sys) {e : EpId} (h0 : e.num.val ≠ 0) :
    s.enabled e = s.ctrlEnabled e := s.enabled_eq h0

section Steps

variable {tr : Hist Bus BusLabel} {b b' : Bus} {l : BusLabel}

/-- One more transaction turns the parity around. -/
theorem parity_flip (n : Nat) (t : Bool) :
    decide ((n + t.toNat) % 2 = 1) = (decide (n % 2 = 1) ^^ t) := by
  cases t with
  | false => simp
  | true =>
    rw [Bool.xor_true, Bool.toNat_true]
    rcases Nat.mod_two_eq_zero_or_one n with h | h
    · have h1 : (n + 1) % 2 = 1 := by omega
      rw [h, h1]
      rfl
    · have h1 : (n + 1) % 2 = 0 := by omega
      rw [h, h1]
      rfl

/-- A step of the controller, or a transaction, flips both sides alike. -/
theorem BusInv.flip (h : BusInv tr b) {s' : Sys} (hwf : s'.WF)
    (hreg : ∀ r : Reg, r.isCtrl = true → s'.reg r = b.sys.reg r)
    (hep : ∀ e, s'.ep e = b.sys.ep e) (hl : l.isConfigure = false) :
    BusInv (tr ++ [(b, l)]) ⟨s', b.device.flip l, b.host.flip l⟩ := by
  have hena : ∀ e : EpId, e.num.val ≠ 0 → s'.enabled e = b.sys.enabled e := by
    intro e h0
    rw [enabled_iff_ctrl _ h0, enabled_iff_ctrl _ h0, Sys.ctrlEnabled, hreg _ e.isCtrl_ctrlReg]
    rfl
  refine ⟨hwf, fun e => ?_, fun e h0 he => ?_, fun e h0 he => ?_, fun e h0 he => ?_⟩
  · show (s'.reg e.ctrlReg).getLsbD _ = false
    rw [hreg _ e.isCtrl_ctrlReg]
    exact h.clean e
  · show (s'.ep e).isSome = true
    rw [hep]
    exact h.allocated e h0 (by rwa [← hena e h0])
  · show (b.device e ^^ l.transaction e) = _
    rw [h.device e h0 (by rwa [← hena e h0]), transactions_snoc, hl, if_neg Bool.false_ne_true,
      parity_flip]
  · show (b.host e ^^ l.transaction e) = (b.device e ^^ l.transaction e)
    rw [h.host e h0 (by rwa [← hena e h0])]

/-- A call other than `configure` leaves the device's toggles; if it clears the
    halt of an enabled half, the device must be at DATA0. -/
theorem BusInv.call (h : BusInv tr b) {c : Call} {r : Ret} {s' : Sys} {t' : Toggles}
    {obs : List Obs} (hc : c ≠ .configure)
    (hrun : exec usbToggles 1 c.prog (b.sys, b.device) = ⟨.ok r, (s', t'), obs⟩)
    (hcond : ClearsEven tr b (.call c r obs)) :
    BusInv (tr ++ [(b, .call c r obs)])
      ⟨s', t', fun e => if c.resetsHost e then false else b.host e⟩ := by
  have hkept := Call.keeps_toggles hc 1 (b.sys, b.device) h.clean
  rw [hrun] at hkept
  obtain ⟨hclean, ht, hena⟩ := hkept
  have hena' : ∀ e : EpId, e.num.val ≠ 0 → s'.enabled e = true → b.sys.enabled e = true := by
    intro e h0 he
    rw [enabled_iff_ctrl _ h0] at he ⊢
    exact hena e he
  have heff := Call.effect h.wf (run_of_toggles hrun)
  have hconf : (BusLabel.call c r obs).isConfigure = false := by
    cases c <;> first | rfl | exact absurd rfl hc
  have htrans : ∀ e, (BusLabel.call c r obs).transaction e = false := fun _ => rfl
  have hdev : ∀ e, t' e = b.device e := fun e => congrFun ht e
  refine ⟨heff.wf, hclean, fun e h0 he => ?_, fun e h0 he => ?_, fun e h0 he => ?_⟩
  · show (s'.ep e).isSome = true
    rw [heff.frame.ep]
    exact h.allocated e h0 (hena' e h0 he)
  · show t' e = _
    rw [hdev, h.device e h0 (hena' e h0 he), transactions_snoc, hconf, htrans,
      if_neg Bool.false_ne_true]
    rfl
  · show (if c.resetsHost e then false else b.host e) = t' e
    rw [hdev]
    split
    · -- the host goes to DATA0, where the device is already
      rename_i hreset
      have hclear : (BusLabel.call c r obs).clearsHalt e = true := by
        unfold Call.resetsHost at hreset
        split at hreset
        · exact absurd rfl hc
        · exact hreset
        · simp at hreset
      have heven := hcond e h0 (hena' e h0 he) hclear
      rw [h.device e h0 (hena' e h0 he), heven]
      rfl
    · exact h.host e h0 (hena' e h0 he)

/-- After `configure` both sides are at DATA0. -/
theorem BusInv.configure (h : BusInv tr b) {r : Ret} {s' : Sys} {t' : Toggles} {obs : List Obs}
    (hrun : exec usbToggles 1 Call.configure.prog (b.sys, b.device) = ⟨.ok r, (s', t'), obs⟩) :
    BusInv (tr ++ [(b, .call .configure r obs)])
      ⟨s', t', fun e => if Call.configure.resetsHost e then false else b.host e⟩ := by
  obtain ⟨hclean, htog, hena⟩ := exec_configure h.wf h.clean hrun
  have heff := Call.effect h.wf (run_of_toggles hrun)
  have halloc : ∀ e : EpId, e.num.val ≠ 0 → s'.enabled e = true →
      (b.sys.ep e).isSome = true := by
    intro e h0 he
    rw [enabled_iff_ctrl _ h0] at he
    rcases hena e he with he | he
    · exact h.allocated e h0 (by rwa [enabled_iff_ctrl _ h0])
    · exact he
  refine ⟨heff.wf, hclean, fun e h0 he => ?_, fun e h0 he => ?_, fun e h0 he => ?_⟩
  · show (s'.ep e).isSome = true
    rw [heff.frame.ep]
    exact halloc e h0 he
  · show t' e = _
    rw [htog e (halloc e h0 he) h0, transactions_snoc]
    rfl
  · show false = t' e
    rw [htog e (halloc e h0 he) h0]

theorem BusInv.step (h : BusInv tr b) (hcond : ClearsEven tr b l) (hstep : BusStep b l b') :
    BusInv (tr ++ [(b, l)]) b' := by
  cases hstep with
  | @call c r s' t' obs hrun =>
    by_cases hc : c = .configure
    · subst hc
      exact h.configure hrun
    · exact h.call hc hrun hcond
  | hw hev =>
    have heff := HwEvent.effect h.wf hev
    exact h.flip heff.wf (fun r hr => HwEvent.reg_ctrl _ _ hr) heff.frame.ep rfl
  | packet => exact h.flip h.wf (fun _ _ => rfl) (fun _ => rfl) rfl

/-- Stalling and unstalling leave the half enabled or disabled. -/
theorem enabled_setStall (s : Sys) {e : EpId} (h0 : e.num.val ≠ 0) (stall : Bool) :
    (s.setStall e stall).enabled e = s.enabled e := by
  rw [Sys.enabled_eq_enable _ h0, s.setStall_eq, control_modifyCtrl, if_pos rfl,
    Sys.enabled_eq_enable _ h0]
  rfl

theorem enabled_busSetStalled {s s' : Sys} {e : EpId} {ep : Endpoint} {stalled : Bool}
    {o : List Obs} (h : s.WF) (hep : s.ep e = some ep) (h0 : e.num.val ≠ 0)
    (hrun : run (BusAdapter.setStalled e.address stalled) s = ⟨.ok (), s', o⟩) :
    s'.enabled e = s.enabled e := by
  have hstall := enabled_setStall s h0 stalled
  rw [run_busSetStalled h hep] at hrun
  split at hrun <;> obtain ⟨-, rfl, -⟩ := Out.mk.inj hrun
  · rw [← hstall, enabled_iff_ctrl _ h0, enabled_iff_ctrl _ h0, Sys.ctrlEnabled,
      Sys.reg_arm_of_ne]
    · rfl
    · rcases e.ctrlReg_cases with hc | ⟨i, hc⟩ <;> rw [hc] <;> simp
  · exact hstall

/-- Clearing a halt at an odd time leaves the sides apart. -/
theorem BusInv.clearsEven_of_agree (h : BusInv tr b) (hstep : BusStep b l b') (ha : b'.Agree) :
    ClearsEven tr b l := by
  intro e h0 he hclear
  unfold BusLabel.clearsHalt at hclear
  split at hclear
  · rename_i addr r obs
    obtain rfl : addr = e.address := by simpa using hclear
    obtain ⟨ep, hep⟩ := Option.isSome_iff_exists.mp (h.allocated e h0 he)
    cases hstep with
    | @call _ _ s' t' _ hrun =>
      have hkept := Call.keeps_toggles (c := .setStalled e.address false) (by simp) 1
        (b.sys, b.device) h.clean
      rw [hrun] at hkept
      have hdev : t' e = b.device e := congrFun hkept.2.1 e
      obtain ⟨_, hcall, -⟩ := run_map_ok (run_of_toggles hrun)
      have hena : s'.enabled e = true := by rw [enabled_busSetStalled h.wf hep h0 hcall, he]
      -- the host is at DATA0 now, so the device has to be
      have hagree : t' e = false := by
        have := ha e h0 hena
        simpa [Call.resetsHost] using this
      rw [hdev, h.device e h0 he] at hagree
      simpa using hagree
  · simp at hclear

end Steps

/-! ## Booted devices -/

/-- Before it is configured, no half of the device is enabled. -/
theorem Booted.busInv {b : Bus} (h : Booted b.sys) : BusInv [] b := by
  have hdis : ∀ e : EpId, e.num.val ≠ 0 → b.sys.enabled e = false := by
    intro e h0
    rw [enabled_iff_ctrl _ h0, Sys.ctrlEnabled, h.ctrlZero e]
    exact BitVec.getLsbD_zero
  refine ⟨h.idle.wf, fun e => ?_, fun e h0 he => ?_, fun e h0 he => ?_, fun e h0 he => ?_⟩
  · rw [h.ctrlZero e]
    exact BitVec.getLsbD_zero
  all_goals
    rw [hdis e h0] at he
    simp at he

/-! ## Agreement -/

/-- In a run from boot, whatever the toggles start at, the two sides agree in
    every state exactly when every halt of an enabled half is cleared after an
    even number of transactions. -/
theorem toggles_agree_iff {b₀ b : Bus} {tr : Hist Bus BusLabel} (h₀ : Booted b₀.sys)
    (hrun : Run BusStep b₀ tr b) :
    Throughout (fun _ b => b.Agree) tr b ↔ Always ClearsEven tr :=
  hrun.throughout_iff (I := BusInv) (always_true tr) h₀.busInv
    (fun _ _ _ _ hI _ hc hs => hI.step hc hs) (fun _ _ hI e h0 he => (hI.host e h0 he).symm)
    fun _ _ _ _ hI _ hs ha => hI.clearsEven_of_agree hs ha

/-! ## Replay -/

/-- What there is to do on the bus. -/
inductive BusCmd where
  | call (c : Call)
  | hw (ev : HwEvent)
  | packet (e : EpId)

namespace Bus

def perform (b : Bus) : BusCmd → Option (BusLabel × Bus)
  | .call c =>
    match exec usbToggles 1 c.prog (b.sys, b.device) with
    | ⟨.ok r, (s', t'), obs⟩ =>
      some (.call c r obs, ⟨s', t', fun e => if c.resetsHost e then false else b.host e⟩)
    | _ => none
  | .hw ev =>
    if ev.Enabled b.sys then
      some (.hw ev, ⟨ev.apply b.sys, b.device.flip (.hw ev), b.host.flip (.hw ev)⟩)
    else none
  | .packet e =>
    if b.sys.primed e = true then
      some (.packet e, ⟨b.sys, b.device.flip (.packet e), b.host.flip (.packet e)⟩)
    else none

theorem perform_sound (b : Bus) (c : BusCmd) (l : BusLabel) (b' : Bus)
    (h : b.perform c = some (l, b')) : BusStep b l b' := by
  cases c with
  | call c =>
    rw [perform] at h
    split at h
    · rename_i hrun
      obtain ⟨rfl, rfl⟩ := Prod.mk.inj (Option.some.inj h)
      exact .call hrun
    · simp at h
  | hw ev =>
    rw [perform] at h
    split at h
    · rename_i hev
      obtain ⟨rfl, rfl⟩ := Prod.mk.inj (Option.some.inj h)
      exact .hw hev
    · simp at h
  | packet e =>
    rw [perform] at h
    split at h
    · rename_i hp
      obtain ⟨rfl, rfl⟩ := Prod.mk.inj (Option.some.inj h)
      exact .packet hp
    · simp at h

end Bus

/-- A device that has just been connected. -/
def connectedBus : Bus := ⟨device, fun _ => false, fun _ => false⟩

theorem connectedBus_booted : Booted connectedBus.sys := by
  rw [connectedBus]
  exact device_booted

instance (tr : Hist Bus BusLabel) (b : Bus) (l : BusLabel) : Decidable (ClearsEven tr b l) :=
  decidable_of_iff (∀ e ∈ EpId.all, e.num.val ≠ 0 → b.sys.enabled e = true →
      l.clearsHalt e = true → transactions tr e % 2 = 0)
    ⟨fun h e => h e e.mem_all, fun h e _ => h e⟩

/-- A packet, a halt, and its end: the device expects DATA1 where the host goes
    on with DATA0. -/
theorem toggles_disagree : ∃ tr b, Run BusStep connectedBus tr b ∧
    b.sys.enabled bulkOut = true ∧ b.device bulkOut = true ∧ b.host bulkOut = false :=
  exists_performed Bus.perform_sound connectedBus
    [.call .configure, .hw (.outDone 1 [1, 2, 3]), .call (.setStalled bulkOut.address true),
      .call (.setStalled bulkOut.address false)] (by decide +kernel)

/-- After two packets nothing is lost. -/
theorem toggles_agree_device : ∃ tr b, Run BusStep connectedBus tr b ∧ tr.length = 6 ∧
    Throughout (fun _ b => b.Agree) tr b := by
  obtain ⟨tr, b, hrun, hlen, hcond⟩ := exists_performed Bus.perform_sound
    (p := fun tr _ => tr.length = 6 ∧ Always ClearsEven tr) connectedBus
    [.call .configure, .hw (.outDone 1 [1, 2, 3]), .call .poll,
      .call (.read bulkOut.address (List.replicate 64 0)), .packet bulkOut,
      .call (.setStalled bulkOut.address false)]
    (by decide +kernel)
  exact ⟨tr, b, hrun, hlen, (toggles_agree_iff connectedBus_booted hrun).mpr hcond⟩

end ImxrtUsbd
