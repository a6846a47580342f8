/-
  ImxrtUsbd.Reconfiguration

  What `bus_reset` and then `on_configured` make of the endpoint control
  registers.

  Both passes rewrite the type and the enable bit of every allocated non-zero
  half, and neither touches its stall bit: the device comes back as it was
  configured first if and only if nothing was stalled (`restored_iff`).  Halves
  that are not allocated are in neither pass: the unused half of an endpoint is
  left with the type of a control endpoint (`unused_halves_iff`).
-/
import ImxrtUsbd.EndpointControl

namespace ImxrtUsbd

open Lib

/-! ## What a configured device looks like -/

/-- The endpoint is ready for use, and nothing but its OUT transfer is under way. -/
structure Sys.RestoredAt (s : Sys) (e : EpId) (ep : Endpoint) : Prop where
  enabled : s.enabled e = true
  unstalled : s.stalled e = false
  type : s.halfType e = intoRawEndpointType ep.kind
  /-- An OUT endpoint is primed for a whole packet. -/
  out : e.dir = .Out → s.primed e = true ∧ (s.td e.slot).totalBytes = s.maxPacketLen e
  idle : e.dir = .In → s.primed e = false

namespace Sys

/-- Every allocated non-zero endpoint is. -/
def Restored (s : Sys) : Prop :=
  ∀ e ep, s.ep e = some ep → e.num.val ≠ 0 → s.RestoredAt e ep

/-- `ENDPTCTRL1..7` and `ENDPTSTAT` hold the same words. -/
def SameControl (s t : Sys) : Prop :=
  (∀ i, s.reg (.ENDPTCTRL i) = t.reg (.ENDPTCTRL i)) ∧ s.reg .ENDPTSTAT = t.reg .ENDPTSTAT

/-- No allocated non-zero endpoint is stalled. -/
def NoneStalled (s : Sys) : Prop :=
  ∀ e, (s.ep e).isSome = true → e.num.val ≠ 0 → s.stalled e = false

/-- The same ones are. -/
def StalledAlike (s t : Sys) : Prop :=
  ∀ e, (s.ep e).isSome = true → e.num.val ≠ 0 → s.stalled e = t.stalled e

/-- The same addresses are allocated, with the same kinds. -/
def SameEndpoints (s t : Sys) : Prop :=
  ∀ e, (s.ep e).map (·.kind) = (t.ep e).map (·.kind)

end Sys

/-! ## The two passes -/

section Passes

variable {s s' t : Sys} {e : EpId} {ep : Endpoint}

theorem Step.reset_eq {dbg : Bool} {r : Ret} {o : List Obs} (h : s.WF)
    (hstep : Step s (.call (.reset dbg) r o) s') : s' = s.reset :=
  (reset_leaves h hstep.run_eq).1

theorem Step.configured_eq {r : Ret} {o : List Obs} (h : s.WF)
    (hstep : Step s (.call .configure r o) s') : s' = s.configured :=
  (configure_leaves h hstep.run_eq).1

/-- One after the other. -/
theorem reconfigured_eq {s₁ s₂ : Sys} {dbg : Bool} {r r' : Ret} {o o' : List Obs} (h : s.WF)
    (hreset : Step s (.call (.reset dbg) r o) s₁) (hconf : Step s₁ (.call .configure r' o') s₂) :
    s₂ = s.reset.configured := by
  rw [hreset.reset_eq h] at hconf
  exact hconf.configured_eq (reset_effect h).wf

theorem ep_reset (s : Sys) : s.reset.ep = s.ep := by
  have hflush : s.flushed.ep = s.ep := rfl
  rw [Sys.reset, ← hflush]
  refine Sys.pass_invariant (I := fun t => t.ep = s.flushed.ep) (fun t f fp _ ht => ?_) rfl
  exact ht

/-- What the passes make of a half that they visit: only its stall bit is left. -/
theorem control_restored (hep : s.ep e = some ep) (h0 : e.num.val ≠ 0) :
    s.reset.configured.control e = ⟨s.stalled e, intoRawEndpointType ep.kind, true⟩ := by
  have hep' : s.reset.ep e = some ep := by rw [ep_reset, hep]
  rw [control_configured, Sys.turn_some hep' h0, control_reset, Sys.turn_some hep h0,
    s.stalled_eq]
  rfl

theorem control_restored_none (hep : s.ep e = none) :
    s.reset.configured.control e = s.control e := by
  have hep' : s.reset.ep e = none := by rw [ep_reset, hep]
  rw [control_configured, Sys.turn_none hep', control_reset, Sys.turn_none hep]

/-- What is left of a transfer, and what is armed. -/
theorem view_restored (h : s.WF) (hep : s.ep e = some ep) :
    s.reset.configured.view e ep = (s.view e ep).acts (.ack :: .unprime ::
      if e.num.val = 0 then [] else if e.dir = .Out then [.schedule ep.packetLen] else []) := by
  have hep' : s.reset.ep e = some ep := by rw [ep_reset, hep]
  have hreset := reset_effect h
  have hview := (configured_effect hreset.wf).view e ep hep'
  rw [hreset.view e ep hep, ← EpView.acts_append, Sys.configureActs, Sys.visitActs, hep'] at hview
  exact hview

theorem primed_restored (h : s.WF) (e : EpId) :
    s.reset.configured.primed e =
      ((s.ep e).isSome && (decide (e.num.val ≠ 0) && decide (e.dir = .Out))) := by
  have hwf := (configured_effect (reset_effect h).wf).wf
  have hsame : s.reset.configured.ep e = s.ep e := by
    rw [(configured_effect (reset_effect h).wf).frame.ep, ep_reset]
  cases hep : s.ep e with
  | none =>
    -- only allocated endpoints are ever primed
    rw [Option.isSome_none, Bool.false_and, Bool.eq_false_iff]
    intro hp
    have halloc := hwf.primed e hp
    rw [hsame, hep] at halloc
    simp at halloc
  | some ep =>
    have hview := congrArg EpView.primed (view_restored h hep)
    have hp : s.reset.configured.primed e = (s.reset.configured.view e ep).primed := rfl
    rw [hp, hview]
    by_cases h0 : e.num.val = 0
    · simp [h0, EpView.act]
    · cases hd : e.dir <;> simp [h0, EpView.act]

theorem totalBytes_restored (h : s.WF) (hep : s.ep e = some ep) (h0 : e.num.val ≠ 0)
    (hd : e.dir = .Out) :
    (s.reset.configured.td e.slot).totalBytes = s.reset.configured.maxPacketLen e := by
  have hconf := configured_effect (reset_effect h).wf
  have hep' : s.reset.configured.ep e = some ep := by rw [hconf.frame.ep, ep_reset, hep]
  have hview := congrArg EpView.left (view_restored h hep)
  rw [if_neg h0, if_pos hd] at hview
  rw [(hconf.wf.epOk e ep hep').mpl]
  exact hview

/-- `ENDPTSTAT` has no bits besides those of the endpoints. -/
theorem stat_restored (s : Sys) {j : Nat} (hj : ∀ e : EpId, j ≠ e.bit) :
    (s.reset.configured.reg .ENDPTSTAT).getLsbD j = false := by
  have hflush : s.flushed.reg .ENDPTSTAT = 0 := by
    have hmask : ~~~ (0xFFFFFFFF : Word) = 0 := by decide
    rw [Sys.flushed, Sys.lower, Sys.reg_setReg_self, hmask]
    exact BitVec.and_zero
  have hreset : s.reset.reg .ENDPTSTAT = 0 := by
    rw [← hflush]
    exact reg_pass (fun _ => .disable) (fun s f _ => s.disableEp_eq f) (by simp [Reg.isCtrl]) _
  have hena : s.reset.enableAll.reg .ENDPTSTAT = 0 := by
    rw [← hreset]
    exact reg_pass (fun ep => .enable ep.kind) (fun s f fp => s.enableEp_eq f fp.kind)
      (by simp [Reg.isCtrl]) _
  rw [Sys.configured]
  refine Sys.pass_invariant (I := fun t => (t.reg .ENDPTSTAT).getLsbD j = false)
    (fun t f fp _ ht => ?_) ?_
  · unfold Sys.primeTurn
    split
    · show ((t.reg .ENDPTSTAT ||| f.mask).getLsbD j) = false
      rw [BitVec.getLsbD_or, ht, EpId.getLsbD_mask, decide_eq_false (hj f), Bool.false_or]
    · exact ht
  · rw [hena]
    exact BitVec.getLsbD_zero

end Passes

/-! ## Coming back from a reset -/

section Restored

variable {s t : Sys} {e : EpId} {ep : Endpoint}

/-- Everything but the stall bit comes back. -/
theorem restoredAt_iff (h : s.WF) (hep : s.ep e = some ep) (h0 : e.num.val ≠ 0) :
    s.reset.configured.RestoredAt e ep ↔ s.stalled e = false := by
  have hc := control_restored hep h0
  have hstall : s.reset.configured.stalled e = s.stalled e := by rw [Sys.stalled_eq, hc]
  constructor
  · intro hr
    rw [← hstall]
    exact hr.unstalled
  · intro hs
    refine ⟨?_, hstall.trans hs, congrArg HalfControl.type hc, fun hd => ⟨?_, ?_⟩, fun hd => ?_⟩
    · rw [Sys.enabled_eq_enable _ h0, hc]
    · rw [primed_restored h, hep, decide_eq_true h0, decide_eq_true hd]
      rfl
    · exact totalBytes_restored h hep h0 hd
    · rw [primed_restored h, hd]
      simp

theorem Sys.SameEndpoints.isSome (h : s.SameEndpoints t) (e : EpId) :
    (s.ep e).isSome = (t.ep e).isSome := by
  have he := congrArg Option.isSome (h e)
  rwa [Option.isSome_map, Option.isSome_map] at he

/-- The halves come back alike where they were stalled alike. -/
theorem control_restored_alike (hs : Reachable s) (ht : Reachable t) (hsame : s.SameEndpoints t)
    (halike : s.StalledAlike t) (h0 : e.num.val ≠ 0) :
    s.reset.configured.control e = t.reset.configured.control e := by
  have hkind := hsame e
  cases hep : s.ep e with
  | none =>
    have htp : t.ep e = none := by
      rw [hep] at hkind
      simpa using hkind.symm
    rw [control_restored_none hep, control_restored_none htp, hs.ctrlInv.unused e hep,
      ht.ctrlInv.unused e htp]
  | some ep =>
    obtain ⟨tp, htp⟩ := Option.isSome_iff_exists.mp ((hsame.isSome e).symm.trans
      (by rw [hep]; rfl))
    rw [hep, htp, Option.map_some, Option.map_some, Option.some.injEq] at hkind
    rw [control_restored hep h0, control_restored htp h0, hkind,
      halike e (by rw [hep]; rfl) h0]

/-- So the words are the same. -/
theorem sameControl_iff (hs : Reachable s) (ht : Reachable t) (hsame : s.SameEndpoints t) :
    s.reset.configured.SameControl t.reset.configured ↔ s.StalledAlike t := by
  constructor
  · rintro ⟨hctrl, -⟩ e he h0
    obtain ⟨ep, hep⟩ := Option.isSome_iff_exists.mp he
    obtain ⟨tp, htp⟩ := Option.isSome_iff_exists.mp ((hsame.isSome e).symm.trans he)
    have hreg : s.reset.configured.reg e.ctrlReg = t.reset.configured.reg e.ctrlReg := by
      -- the stall bit is in the register
      rw [EpId.ctrlReg, dif_neg h0]
      exact hctrl _
    have hstall := congrArg HalfControl.stall (Sys.control_congr hreg)
    rwa [control_restored hep h0, control_restored htp h0] at hstall
  · intro halike
    refine ⟨fun i => ?_, ?_⟩
    · have hi : Reg.ENDPTCTRL i = (⟨.Out, i.succ⟩ : EpId).ctrlReg := rfl
      rw [hi]
      refine hs.ctrlInv.reset.configured.reg_eq ht.ctrlInv.reset.configured fun f hf => ?_
      refine control_restored_alike hs ht hsame halike ?_
      have hnum : f.num = i.succ := hf
      rw [hnum]
      simp
    · apply BitVec.eq_of_getLsbD_eq
      intro j _
      -- a bit of an endpoint, or one that no endpoint has
      by_cases hj : ∃ e : EpId, j = e.bit
      · obtain ⟨e, rfl⟩ := hj
        have hprimed : s.reset.configured.primed e = t.reset.configured.primed e := by
          rw [primed_restored hs.wf, primed_restored ht.wf, hsame.isSome e]
        exact hprimed
      · have hne : ∀ e : EpId, j ≠ e.bit := fun e he => hj ⟨e, he⟩
        rw [stat_restored s hne, stat_restored t hne]

end Restored

/-- After a bus reset and `on_configured`, every allocated non-zero endpoint is
    enabled, not stalled, of its own type, and primed if and only if it is an OUT
    endpoint, exactly if none was stalled before; and two devices with the same
    endpoints end with the same words exactly if the same ones were stalled.
    `on_configured` is the very next call here: a call in between may stall or
    unstall an endpoint, and then that decides. -/
theorem restored_iff {s s₁ s₂ : Sys} {dbg : Bool} {r r' : Ret} {o o' : List Obs}
    (hs : Reachable s) (hreset : Step s (.call (.reset dbg) r o) s₁)
    (hconf : Step s₁ (.call .configure r' o') s₂) :
    (s₂.Restored ↔ s.NoneStalled) ∧
    ∀ (t t₁ t₂ : Sys) (tdbg : Bool) (q q' : Ret) (u u' : List Obs), Reachable t →
      s.SameEndpoints t → Step t (.call (.reset tdbg) q u) t₁ →
      Step t₁ (.call .configure q' u') t₂ → (s₂.SameControl t₂ ↔ s.StalledAlike t) := by
  have hwf := hs.wf
  rw [reconfigured_eq hwf hreset hconf]
  have hsame : ∀ e, s.reset.configured.ep e = s.ep e := fun e => by
    rw [(configured_effect (reset_effect hwf).wf).frame.ep, ep_reset]
  refine ⟨?_, fun t t₁ t₂ tdbg q q' u u' ht hst htreset htconf => ?_⟩
  · constructor
    · intro hr e he h0
      obtain ⟨ep, hep⟩ := Option.isSome_iff_exists.mp he
      exact (restoredAt_iff hwf hep h0).mp (hr e ep ((hsame e).trans hep) h0)
    · intro hn e ep hep h0
      rw [hsame] at hep
      exact (restoredAt_iff hwf hep h0).mpr (hn e (by rw [hep]; rfl) h0)
  · rw [reconfigured_eq ht.wf htreset htconf]
    exact sameControl_iff hs ht hst

/-- In a release build both calls return from every state. -/
theorem exists_reconfigured {s : Sys} (h : s.WF) : ∃ r r' o o',
    Step s (.call (.reset false) r o) s.reset ∧
      Step s.reset (.call .configure r' o') s.reset.configured := by
  have hreset : run (Call.reset false).prog s = ⟨.ok .unit, s.reset, []⟩ := by
    show run (Driver.busReset false >>= fun _ => pure Ret.unit) s = _
    rw [run_bind, run_busReset h, Bool.false_and, if_neg Bool.false_ne_true]
    rfl
  have hconf : ∀ t : Sys, t.WF → run Call.configure.prog t =
      ⟨.ok .unit, t.configured, t.configuredObs ++ []⟩ := by
    intro t ht
    show run (Driver.onConfigured >>= fun _ => pure Ret.unit) t = _
    rw [run_bind, run_onConfigured ht]
    rfl
  exact ⟨_, _, _, _, .call hreset, .call (hconf _ (reset_effect h).wf)⟩

/-- A device that was configured, and one that was not yet. -/
theorem restored_device : ∃ tr s r r' o o', Run Step device tr s ∧
    s.enabled bulkIn = true ∧ Step s (.call (.reset false) r o) s.reset ∧
      Step s.reset (.call .configure r' o') s.reset.configured ∧
        s.reset.configured.Restored ∧
        s.reset.configured.SameControl device.reset.configured := by
  obtain ⟨tr, s, hrun, hena, hnone⟩ := exists_run (s := device)
    (p := fun _ s => s.enabled bulkIn = true ∧
      ∀ n : Fin 8, s.stalled ⟨.Out, n⟩ = false ∧ s.stalled ⟨.In, n⟩ = false)
    [.call .configure] (by decide +kernel)
  have hstall : ∀ e, s.stalled e = false := EpId.forall_iff.mpr hnone
  have hdevice : ∀ e, device.stalled e = false := by
    rw [EpId.forall_iff]
    decide +kernel
  have hs := device_booted.reachable.run hrun
  obtain ⟨r, r', o, o', hreset, hconf⟩ := exists_reconfigured hs.wf
  obtain ⟨q, q', u, u', htreset, htconf⟩ := exists_reconfigured device_booted.reachable.wf
  have hiff := restored_iff hs hreset hconf
  refine ⟨tr, s, r, r', o, o', hrun, hena, hreset, hconf, hiff.1.mpr fun e _ _ => hstall e, ?_⟩
  refine (hiff.2 device _ _ _ _ _ _ _ device_booted.reachable (fun e => ?_) htreset htconf).mpr
    fun e _ _ => (hstall e).trans (hdevice e).symm
  rw [ep_device hrun]

/-- A stalled endpoint is still stalled in the next configuration. -/
theorem stall_survives_reconfiguration : ∃ tr s r r' o o', Run Step device tr s ∧
    Step s (.call (.reset false) r o) s.reset ∧
      Step s.reset (.call .configure r' o') s.reset.configured ∧
        ¬ s.reset.configured.Restored ∧
        ¬ s.reset.configured.SameControl device.reset.configured := by
  obtain ⟨tr, s, hrun, hstall⟩ := exists_run (s := device) (p := fun _ s => s.stalled bulkIn = true)
    [.call .configure, .call (.setStalled bulkIn.address true)] (by decide +kernel)
  have hs := device_booted.reachable.run hrun
  have hep := (ep_device hrun bulkIn).trans device_bulkIn
  have h0 : bulkIn.num.val ≠ 0 := by decide
  obtain ⟨r, r', o, o', hreset, hconf⟩ := exists_reconfigured hs.wf
  refine ⟨tr, s, r, r', o, o', hrun, hreset, hconf, fun hr => ?_, fun hsame => ?_⟩
  · have hep' : s.reset.configured.ep bulkIn = some (deviceEndpoint bulkIn 3 .Bulk) := by
      rw [(configured_effect (reset_effect hs.wf).wf).frame.ep, ep_reset, hep]
    rw [(restoredAt_iff hs.wf hep h0).mp (hr bulkIn _ hep' h0)] at hstall
    simp at hstall
  · have hends : s.SameEndpoints device := fun e => by rw [ep_device hrun]
    have halike := (sameControl_iff hs device_booted.reachable hends).mp hsame
    have hdevice : device.stalled bulkIn = false := by decide +kernel
    rw [halike bulkIn (by rw [hep]; rfl) h0, hdevice] at hstall
    simp at hstall

/-! ## Unused halves -/

namespace Sys

/-- Beside a half in use, the other half is not left as a control endpoint. -/
def UnusedNotControl (s : Sys) : Prop :=
  ∀ e f : EpId, e.num = f.num → e.num.val ≠ 0 → (s.ep e).isSome = true → s.enabled e = true →
    s.ep f = none → s.enabled f = false → s.halfType f ≠ intoRawEndpointType .Control

/-- No non-zero endpoint number has exactly one direction allocated. -/
def Paired (s : Sys) : Prop :=
  ∀ e f : EpId, e.num = f.num → e.num.val ≠ 0 → (s.ep e).isSome = true → (s.ep f).isSome = true

end Sys

/-- In every run that ends in a bus reset and, later, `on_configured`, the unused
    half of an endpoint in use is not of the control type if and only if there
    is no such half. -/
theorem unused_halves_iff {s s₁ s₂ s₃ : Sys} {tr : Trace} {dbg : Bool} {r r' : Ret}
    {o o' : List Obs} (hs : Reachable s) (hreset : Step s (.call (.reset dbg) r o) s₁)
    (hrun : Run Step s₁ tr s₂) (hconf : Step s₂ (.call .configure r' o') s₃) :
    s₃.UnusedNotControl ↔ s.Paired := by
  have hs₂ := (hs.run (Run.single hreset)).run hrun
  have hs₃ := hs₂.run (Run.single hconf)
  have hep₂ : ∀ e, s₂.ep e = s.ep e := fun e =>
    (ep_run (hreset.wf hs.wf) hrun e).trans (hreset.ep_eq hs.wf e)
  have hep : ∀ e, s₃.ep e = s.ep e := fun e => (hconf.ep_eq hs₂.wf e).trans (hep₂ e)
  constructor
  · intro hsafe e f hnum h0 he
    rw [← Option.ne_none_iff_isSome]
    intro hf
    -- nothing ever configured the unused half
    have hoff := hs₃.ctrlInv.unused f ((hep f).trans hf)
    have htype : s₃.halfType f = intoRawEndpointType .Control := congrArg HalfControl.type hoff
    have hdis : s₃.enabled f = false := by
      rw [Sys.enabled_eq_enable _ (by rw [← hnum]; exact h0), hoff]
      rfl
    have hena : s₃.enabled e = true := by
      obtain ⟨ep, hep'⟩ := Option.isSome_iff_exists.mp he
      rw [hconf.configured_eq hs₂.wf, Sys.enabled_eq_enable _ h0, control_configured,
        Sys.turn_some ((hep₂ e).trans hep') h0]
      rfl
    exact hsafe e f hnum h0 (by rw [hep]; exact he) hena ((hep f).trans hf) hdis htype
  · intro hpaired e f hnum h0 he _ hf
    rw [hep] at he hf
    have hsome := hpaired e f hnum h0 he
    rw [hf] at hsome
    simp at hsome

/-- The device uses its bulk endpoint in both directions. -/
theorem unused_halves_device : ∃ tr s r r' o o', Run Step device tr s ∧
    Step s (.call (.reset false) r o) s.reset ∧
      Step s.reset (.call .configure r' o') s.reset.configured ∧
        s.reset.configured.UnusedNotControl := by
  obtain ⟨tr, s, hrun, -⟩ := exists_run (s := device) (p := fun _ s => s.enabled bulkIn = true)
    [.call .configure] (by decide +kernel)
  have hs := device_booted.reachable.run hrun
  have hpaired : s.Paired := by
    have hall : ∀ n : Fin 8, n.val ≠ 0 →
        (device.ep ⟨.Out, n⟩).isSome = (device.ep ⟨.In, n⟩).isSome := by decide +kernel
    rintro ⟨d, n⟩ ⟨d', n'⟩ hnum h0 he
    obtain rfl : n = n' := hnum
    rw [ep_device hrun] at he ⊢
    have hn := hall n h0
    cases d <;> cases d' <;> first | exact he | (rw [← hn]; exact he) | (rw [hn]; exact he)
  obtain ⟨r, r', o, o', hreset, hconf⟩ := exists_reconfigured hs.wf
  exact ⟨tr, s, r, r', o, o', hrun, hreset, hconf,
    (unused_halves_iff hs hreset .nil hconf).mpr hpaired⟩

/-- A keyboard: one interrupt endpoint, from the device to the host. -/
def keyboard : Sys :=
  (bootWith (powerOn 16 2048) .High
    [⟨.Out, some EpId.ep0Out.address, .Control, 64⟩, ⟨.In, some EpId.ep0In.address, .Control, 64⟩,
      ⟨.In, none, .Interrupt, 8⟩]).getD (powerOn 16 2048)

theorem keyboard_booted : Booted keyboard :=
  bootWith_getD (powerOn_ok 16 (by omega)) (by decide +kernel)

/-- Its OUT half is left as a control endpoint. -/
theorem keyboard_unused_half : ∃ r r' o o',
    Step keyboard (.call (.reset false) r o) keyboard.reset ∧
      Step keyboard.reset (.call .configure r' o') keyboard.reset.configured ∧
        ¬ keyboard.reset.configured.UnusedNotControl := by
  obtain ⟨r, r', o, o', hreset, hconf⟩ := exists_reconfigured keyboard_booted.reachable.wf
  refine ⟨r, r', o, o', hreset, hconf, fun hsafe => ?_⟩
  have hstate : (keyboard.reset.configured.ep ⟨.In, 1⟩).isSome = true ∧
      keyboard.reset.configured.enabled ⟨.In, 1⟩ = true ∧
      keyboard.reset.configured.ep ⟨.Out, 1⟩ = none ∧
      keyboard.reset.configured.enabled ⟨.Out, 1⟩ = false ∧
      keyboard.reset.configured.halfType ⟨.Out, 1⟩ = intoRawEndpointType .Control := by
    decide +kernel
  obtain ⟨he, hena, hf, hdis, htype⟩ := hstate
  exact hsafe ⟨.In, 1⟩ ⟨.Out, 1⟩ rfl (by decide) he hena hf hdis htype

end ImxrtUsbd
