/-
  ImxrtUsbd.TransferErrors

  The errors that the controller leaves in a descriptor.  Only arming the
  endpoint again clears them, and reads and writes refuse to do so.
  `errors_cleared_iff` says which errors are gone once the bus was reset and the
  device was configured again, whatever happened in between.
-/
import ImxrtUsbd.BusReset

namespace ImxrtUsbd

open Lib

/-! ## What clears an error -/

/-- The controller reports an error. -/
def Label.hwError : Label → Bool
  | .hw (.error _ _ _ _) => true
  | _ => false

/-- A read or a write returns `InvalidState`. -/
def Label.invalidState : Label → Bool
  | .call (.read _ _) (.read (.error .InvalidState)) _ => true
  | .call (.write _ _) (.write (.error .InvalidState)) _ => true
  | _ => false

/-- No allocated endpoint carries an error. -/
def Sys.ErrorFree (s : Sys) : Prop := ∀ e ep, s.ep e = some ep → (s.td e.slot).errored = false

/-- Nothing that happens to an endpoint gives it an error, short of a transfer
    that ends with one. -/
theorem EpView.errored_acts {v : EpView} {as : List EpAct} (has : ∀ k, .retire k true ∉ as)
    (h : v.errored = false) : (v.acts as).errored = false := by
  induction as generalizing v with
  | nil => exact h
  | cons a as ih =>
    have hrest : ∀ k, .retire k true ∉ as := fun k hk => has k (List.mem_cons_of_mem _ hk)
    refine ih hrest ?_
    cases a with
    | schedule => rfl
    | retire k error =>
      cases error with
      | true => exact absurd (List.mem_cons_self ..) (has k)
      | false => rfl
    | ack | fill | signal | unprime | complete => exact h

/-- Calls do not end transfers. -/
theorem Call.retire_not_mem {s : Sys} {e : EpId} {ep : Endpoint} (c : Call) (k : Nat)
    (error : Bool) : .retire k error ∉ c.acts s e ep := by
  cases c with
  | poll | setStalled | configure =>
    rw [Call.acts]
    split <;> simp
  | read | write =>
    rw [Call.acts]
    split <;> (try split) <;> (try split) <;> simp
  | reset => simp [Call.acts]
  | isStalled | setDeviceAddress | enable | enableZlt | setInterrupts => simp [Call.acts]

/-- Arming clears the error. -/
theorem EpView.errored_acts_of_schedule {v : EpView} {as : List EpAct}
    (has : ∀ k, .retire k true ∉ as) {size : Nat} (hs : .schedule size ∈ as) :
    (v.acts as).errored = false := by
  induction as generalizing v with
  | nil => simp at hs
  | cons a as ih =>
    have hrest : ∀ k, .retire k true ∉ as := fun k hk => has k (List.mem_cons_of_mem _ hk)
    rcases List.mem_cons.mp hs with rfl | hs
    · exact EpView.errored_acts (v := v.act (.schedule size)) hrest rfl
    · exact ih hrest hs

/-- The endpoint carries an error, and no transfer is armed that could end. -/
structure EpView.Stuck (v : EpView) : Prop where
  errored : v.errored = true
  primed : v.primed = false

theorem EpView.Stuck.acts {v : EpView} {as : List EpAct} (h : v.Stuck)
    (hs : ∀ size, .schedule size ∉ as) (hr : ∀ k error, .retire k error ∉ as) :
    (v.acts as).Stuck := by
  induction as generalizing v with
  | nil => exact h
  | cons a as ih =>
    refine ih ?_ (fun size hm => hs size (List.mem_cons_of_mem _ hm))
      fun k error hm => hr k error (List.mem_cons_of_mem _ hm)
    cases a with
    | schedule size => exact absurd (List.mem_cons_self ..) (hs size)
    | retire k error => exact absurd (List.mem_cons_self ..) (hr k error)
    | unprime => exact ⟨h.errored, rfl⟩
    | ack | fill | signal | complete => exact ⟨h.errored, h.primed⟩

/-- Nothing arms an IN endpoint that carries an error. -/
theorem Call.schedule_not_mem {s : Sys} {e : EpId} {ep : Endpoint} (c : Call) (hd : e.dir = .In)
    (herr : (s.view e ep).errored = true) (size : Nat) : .schedule size ∉ c.acts s e ep := by
  have hne : e.dir ≠ .Out := by
    rw [hd]
    rintro ⟨⟩
  have htd : (s.td e.slot).errored = true := herr
  cases c with
  | poll =>
    rw [Call.acts]
    split <;> simp
  | read addr buf =>
    rw [Call.acts]
    split
    · split
      · rename_i hset
        -- only the OUT half of the control endpoint takes SETUP packets
        exact absurd (by rw [hset.1]; rfl) hne
      · rw [if_neg]
        · simp
        · intro hr
          rw [hr.1] at herr
          simp at herr
    · simp
  | write addr buf =>
    rw [Call.acts]
    split
    · rw [if_neg]
      · simp
      · intro hw
        rw [hw.2.1] at htd
        simp at htd
    · rename_i h0
      -- the response is what an IN endpoint 0 sends
      have he : e = .ep0In := by
        rcases e.num_cases with h | rfl | h
        · exact absurd h h0
        · exact absurd rfl hne
        · exact h
      rw [if_neg]
      · simp
      · intro hw
        rw [he, hw.2.2.1] at htd
        simp at htd
  | setStalled addr stalled =>
    rw [Call.acts, if_neg fun hc => hne hc.2.2.1]
    simp
  | configure =>
    rw [Call.acts, if_neg fun hc => hne hc.2]
    simp
  | reset => simp [Call.acts]
  | isStalled | setDeviceAddress | enable | enableZlt | setInterrupts => simp [Call.acts]

/-- Only a transfer that is armed ends. -/
theorem HwEvent.primed_of_retire {s : Sys} {ev : HwEvent} (hev : ev.Enabled s) {e : EpId} {k : Nat}
    {error : Bool} (hmem : .retire k error ∈ ev.acts e) : s.primed e = true := by
  have hone : ∀ (f : EpId) (as : List EpAct), s.primed f = true →
      .retire k error ∈ only f as e → s.primed e = true := by
    intro f as hp hm
    by_cases he : e = f
    · rw [he]
      exact hp
    · rw [only_of_ne he] at hm
      simp at hm
  cases ev with
  | outDone n data => exact hone _ _ hev.1 hmem
  | inDone n c => exact hone _ _ hev.1 hmem
  | error f => exact hone _ _ hev.1 hmem
  | setup =>
    change EpAct.retire k error ∈ (if _ then _ else _) at hmem
    split at hmem <;> simp at hmem
  | nak | resetBegin | resetEnd => simp [HwEvent.acts] at hmem

section Errors

variable {s s₁ s₂ s₃ : Sys} {l l' : Label} {tr : Trace} {e : EpId} {ep : Endpoint}

theorem Step.retire_not_mem (hstep : Step s l s₁) (hl : l.hwError = false) (e : EpId) (k : Nat) :
    .retire k true ∉ s.acts l e := by
  cases l with
  | call c r obs =>
    show _ ∉ s.callActs c e
    unfold Sys.callActs
    split
    · exact c.retire_not_mem k true
    · simp
  | hw ev =>
    show _ ∉ ev.acts e
    cases ev with
    | outDone | inDone =>
      rw [HwEvent.acts]
      unfold only
      split <;> simp
    | error => simp [Label.hwError] at hl
    | setup =>
      show _ ∉ (if _ then _ else _)
      split <;> simp
    | nak | resetBegin | resetEnd => simp [HwEvent.acts]

theorem Step.errorFree (h : s.WF) (hfree : s.ErrorFree) (hl : l.hwError = false)
    (hstep : Step s l s₁) : s₁.ErrorFree := by
  intro e ep hep
  rw [hstep.ep_eq h] at hep
  have hv := congrArg EpView.errored (hstep.view_eq h hep)
  rw [EpView.errored_acts (hstep.retire_not_mem hl e) (hfree e ep hep)] at hv
  exact hv

/-- Only an error makes a read or a write return `InvalidState`. -/
theorem Step.not_invalidState (h : s.WF) (hfree : s.ErrorFree) (hstep : Step s l s₁) :
    l.invalidState = false := by
  unfold Label.invalidState
  split
  · rename_i addr buf obs
    -- a read that says `InvalidState` found error bits
    obtain ⟨a, hrun, hr⟩ := run_map_ok hstep.run_eq
    obtain rfl := Ret.read.inj hr
    cases halloc : s.lookup addr with
    | none =>
      rw [run_busRead_none h halloc] at hrun
      simp at hrun
    | some _ =>
      have hsome : (s.lookup addr).isSome := by rw [halloc]; rfl
      obtain ⟨e, he, -, hep | ⟨h0, hnone⟩⟩ := Sys.exists_readsFrom hsome
      · obtain ⟨ep, hep⟩ := Option.isSome_iff_exists.mp hep
        have herr : (s.view e ep).errored = false := hfree e ep hep
        have hret := ImxrtUsbd.read_ret h he hep hrun
        unfold Sys.readRet at hret
        rw [herr, if_neg Bool.false_ne_true] at hret
        split at hret
        · simp at hret
        · split at hret <;> simp at hret
      · rw [run_busRead_panic h hsome h0 hnone] at hrun
        simp at hrun
  · rename_i addr buf obs
    obtain ⟨a, hrun, hr⟩ := run_map_ok hstep.run_eq
    obtain rfl := Ret.write.inj hr
    -- and so does a write, whatever its endpoint
    have hend : ∀ e ep, s.WritesTo addr e → s.ep e = some ep → False := by
      intro e ep he hep
      have herr : (s.view e ep).errored = false := hfree e ep hep
      have hret := write_ret h he hep hrun
      rw [Sys.writeRet, herr, if_neg Bool.false_ne_true] at hret
      split at hret <;> simp at hret
    cases halloc : s.lookup addr with
    | none =>
      rw [run_busWrite_none h halloc] at hrun
      simp at hrun
    | some ep =>
      have hsome : (s.lookup addr).isSome := by rw [halloc]; rfl
      by_cases h0 : addr.index = 0
      · cases hep : s.ep .ep0In with
        | none =>
          have := run_busWrite_fails h hsome h0 (Or.inl hep) buf
          rw [hrun] at this
          simp at this
        | some ep => exact (hend .ep0In ep ⟨hsome, by rw [if_pos h0]⟩ hep).elim
      · obtain ⟨e, rfl, hep⟩ := Sys.lookup_eq_some halloc
        exact (hend e ep ⟨hsome, by rw [if_neg h0]⟩ hep).elim
  · rfl

/-- An error stays until the endpoint is armed. -/
theorem Step.stuck (h : s.WF) (hep : s.ep e = some ep) (hstuck : (s.view e ep).Stuck)
    (harm : ¬ l.Arms e) (hstep : Step s l s₁) : (s₁.view e ep).Stuck := by
  rw [hstep.view_eq h hep]
  refine hstuck.acts (fun size hm => harm ((hstep.arms_iff h hep).mpr ⟨size, hm⟩)) ?_
  intro k error hm
  cases l with
  | call c r obs =>
    rw [Sys.acts_call hep] at hm
    exact c.retire_not_mem k error hm
  | hw ev =>
    have hp : (s.view e ep).primed = true := HwEvent.primed_of_retire hstep.enabled.1 hm
    rw [hstuck.primed] at hp
    simp at hp

theorem Step.not_arms_of_errored (h : s.WF) (hep : s.ep e = some ep) (hd : e.dir = .In)
    (herr : (s.view e ep).errored = true) (hstep : Step s l s₁) : ¬ l.Arms e := by
  intro harm
  obtain ⟨size, hm⟩ := (hstep.arms_iff h hep).mp harm
  cases l with
  | call c r obs =>
    rw [Sys.acts_call hep] at hm
    exact c.schedule_not_mem hd herr size hm
  | hw ev => simp [Label.Arms, Label.obs] at harm

/-- As long as no new error is reported, an endpoint that was unprimed carries
    an error exactly if it did at first and was not armed since. -/
theorem errored_run_iff (h : s.WF) (hep : s.ep e = some ep) (hp : s.primed e = false)
    (hrun : Run Step s tr s₁) (hquiet : Always (fun _ _ l => l.hwError = false) tr) :
    (s₁.view e ep).errored = true ↔
      (s.view e ep).errored = true ∧ ∀ x ∈ tr, ¬ x.2.Arms e := by
  have hinv := hrun.hist_invariant hquiet
    (I := fun tr s₁ => s₁.WF ∧ s₁.ep e = some ep ∧
      ((s₁.view e ep).errored = true ↔ (s.view e ep).errored = true ∧ ∀ x ∈ tr, ¬ x.2.Arms e) ∧
      ((s₁.view e ep).errored = true → (s₁.view e ep).primed = false))
    ⟨h, hep, by simp, fun _ => hp⟩ ?_
  · exact hinv.2.2.1
  · rintro tr t k t' ⟨hwf, hep, hiff, hstuck⟩ hk hstep
    refine ⟨hstep.wf hwf, (hstep.ep_eq hwf e).trans hep, ?_⟩
    have hretire := hstep.retire_not_mem hk e
    have hview := hstep.view_eq hwf hep
    have hsnoc : (∀ x ∈ tr ++ [(t, k)], ¬ x.2.Arms e) ↔ (∀ x ∈ tr, ¬ x.2.Arms e) ∧ ¬ k.Arms e := by
      rw [List.forall_mem_append, List.forall_mem_singleton]
    by_cases harm : k.Arms e
    · -- the endpoint is armed, and carries no error from here on
      obtain ⟨size, hm⟩ := (hstep.arms_iff hwf hep).mp harm
      have hclear : (t'.view e ep).errored = false := by
        rw [hview]
        exact EpView.errored_acts_of_schedule hretire hm
      rw [hclear]
      exact ⟨iff_of_false (by rintro ⟨⟩) fun hc => (hsnoc.mp hc.2).2 harm, (by rintro ⟨⟩)⟩
    · cases herr : (t.view e ep).errored with
      | true =>
        have hstill := hstep.stuck hwf hep ⟨herr, hstuck herr⟩ harm
        obtain ⟨hfirst, hnone⟩ := hiff.mp herr
        exact ⟨iff_of_true hstill.errored ⟨hfirst, hsnoc.mpr ⟨hnone, harm⟩⟩,
          fun _ => hstill.primed⟩
      | false =>
        have hclear : (t'.view e ep).errored = false := by
          rw [hview]
          exact EpView.errored_acts hretire herr
        rw [herr] at hiff
        rw [hclear]
        refine ⟨iff_of_false (by rintro ⟨⟩) fun hc => ?_, (by rintro ⟨⟩)⟩
        exact absurd (hiff.mpr ⟨hc.1, (hsnoc.mp hc.2).1⟩) (by rintro ⟨⟩)

/-- An IN endpoint keeps its error. -/
theorem errored_run_of_in (h : s.WF) (hep : s.ep e = some ep) (hd : e.dir = .In)
    (hstuck : (s.view e ep).Stuck) (hrun : Run Step s tr s₁) : (s₁.view e ep).Stuck := by
  have hinv := hrun.invariant (always_true tr)
    (I := fun s => s.WF ∧ s.ep e = some ep ∧ (s.view e ep).Stuck) ⟨h, hep, hstuck⟩ ?_
  · exact hinv.2.2
  · rintro tr t k t' ⟨hwf, hep, hstuck⟩ - hstep
    exact ⟨hstep.wf hwf, (hstep.ep_eq hwf e).trans hep,
      hstep.stuck hwf hep hstuck (hstep.not_arms_of_errored hwf hep hd hstuck.errored)⟩

/-- `configure` clears the errors of the non-zero OUT endpoints. -/
theorem Step.errored_configure (h : s.WF) (hep : s.ep e = some ep) (hl : l.isConfigure = true)
    (hconf : Step s l s₁) : (s₁.view e ep).errored =
      if e.num.val ≠ 0 ∧ e.dir = .Out then false else (s.view e ep).errored := by
  have hacts : s.acts l e =
      if e.num.val ≠ 0 ∧ e.dir = .Out then [.schedule ep.packetLen] else [] := by
    obtain ⟨r, obs, rfl⟩ := Label.isConfigure_eq hl
    exact Sys.acts_call hep .configure r obs
  rw [hconf.view_eq h hep, hacts]
  split <;> rfl

/-! ## Reset and configure -/

/-- A bus reset, then any calls and controller steps that report no error, then
    `configure`. -/
structure Reconfigured (s : Sys) (tr : Trace) (s₃ : Sys) : Prop where
  reach : Reachable s
  run : ∃ l s₁ s₂ l', l.isReset = true ∧ Step s l s₁ ∧ Run Step s₁ tr s₂ ∧
    l'.isConfigure = true ∧ Step s₂ l' s₃
  quiet : Always (fun _ _ l => l.hwError = false) tr

theorem Reconfigured.wf (h : Reconfigured s tr s₃) : s₃.WF := by
  obtain ⟨l, s₁, s₂, l', -, hreset, hrun, -, hconf⟩ := h.run
  exact hconf.wf ((hreset.wf h.reach.wf).run hrun)

theorem Reconfigured.ep_eq (h : Reconfigured s tr s₃) (e : EpId) : s₃.ep e = s.ep e := by
  obtain ⟨l, s₁, s₂, l', -, hreset, hrun, -, hconf⟩ := h.run
  have hwf := h.reach.wf
  have hwf₁ := hreset.wf hwf
  exact (hconf.ep_eq (hwf₁.run hrun) e).trans ((ep_run hwf₁ hrun e).trans (hreset.ep_eq hwf e))

/-- Which errors are left. -/
theorem Reconfigured.errored_iff (h : Reconfigured s tr s₃) (hep : s.ep e = some ep) :
    (s₃.td e.slot).errored = true ↔
      (s.td e.slot).errored = true ∧ (e.dir = .In ∨ e = .ep0Out ∧ ∀ x ∈ tr, ¬ x.2.Arms e) := by
  obtain ⟨l, s₁, s₂, l', hl, hreset, hrun, hl', hconf⟩ := h.run
  have hwf := h.reach.wf
  have hwf₁ := hreset.wf hwf
  have hwf₂ := hwf₁.run hrun
  have hep₁ := (hreset.ep_eq hwf e).trans hep
  have hep₂ := (ep_run hwf₁ hrun e).trans hep₁
  have hv₁ := hreset.view_reset hwf hep hl
  have herr₁ : (s₁.view e ep).errored = (s.td e.slot).errored := congrArg EpView.errored hv₁
  have hp₁ : s₁.primed e = false := congrArg EpView.primed hv₁
  have hiff := errored_run_iff hwf₁ hep₁ hp₁ hrun h.quiet
  have hconf' := hconf.errored_configure hwf₂ hep₂ hl'
  show (s₃.view e ep).errored = true ↔ _
  rw [hconf']
  split
  · -- a non-zero OUT endpoint
    rename_i hout
    refine iff_of_false (by rintro ⟨⟩) ?_
    rintro ⟨-, hin | ⟨rfl, -⟩⟩
    · rw [hout.2] at hin
      simp at hin
    · exact hout.1 rfl
  · rename_i hnot
    rw [hiff, herr₁]
    refine and_congr_right fun herr => ⟨fun hnone => ?_, ?_⟩
    · cases hd : e.dir with
      | In => exact Or.inl rfl
      | Out =>
        refine Or.inr ⟨?_, hnone⟩
        rcases e.num_cases with h0 | rfl | rfl
        · exact absurd ⟨h0, hd⟩ hnot
        · rfl
        · simp [EpId.ep0In] at hd
    · rintro (hd | ⟨-, hnone⟩)
      · have hstuck := errored_run_of_in hwf₁ hep₁ hd ⟨herr₁.trans herr, hp₁⟩ hrun
        exact (hiff.mp hstuck.errored).2
      · exact hnone

/-- After a bus reset and `configure`, every endpoint passes `check_errors`, and
    no read or write returns `InvalidState` until a new error is reported, if
    and only if no IN endpoint carried an error before, and EP0 OUT carried none
    or was armed in between. -/
theorem errors_cleared_iff (h : Reconfigured s tr s₃) :
    ((∀ e ep, s₃.ep e = some ep → run ep.checkErrors s₃ = ⟨.ok (.ok ()), s₃, []⟩) ∧
        ∀ tr' s₄, Run Step s₃ tr' s₄ → Always (fun _ _ l => l.hwError = false) tr' →
          Always (fun _ _ l => l.invalidState = false) tr') ↔
      (∀ e, (s.ep e).isSome = true → e.dir = .In → (s.td e.slot).errored = false) ∧
        ((s.ep .ep0Out).isSome = true → (s.td EpId.ep0Out.slot).errored = true →
          ∃ x ∈ tr, x.2.Arms .ep0Out) := by
  have hwf₃ := h.wf
  constructor
  · rintro ⟨hcheck, -⟩
    -- no endpoint that passes its check has error bits
    have hclear : ∀ e ep, s.ep e = some ep → (s₃.td e.slot).errored = false := by
      intro e ep hep
      have hep₃ := (h.ep_eq e).trans hep
      have hok := hcheck e ep hep₃
      rw [run_checkErrors (hwf₃.epOk e ep hep₃).inPlace] at hok
      by_contra herr
      rw [Bool.eq_true_of_not_eq_false herr] at hok
      simp at hok
    refine ⟨fun e hsome hd => ?_, fun hsome herr => ?_⟩
    · obtain ⟨ep, hep⟩ := Option.isSome_iff_exists.mp hsome
      by_contra herr
      have hleft := (h.errored_iff hep).mpr ⟨Bool.eq_true_of_not_eq_false herr, Or.inl hd⟩
      rw [hclear e ep hep] at hleft
      simp at hleft
    · obtain ⟨ep, hep⟩ := Option.isSome_iff_exists.mp hsome
      by_contra hnone
      have hleft := (h.errored_iff hep).mpr
        ⟨herr, Or.inr ⟨rfl, fun x hx harm => hnone ⟨x, hx, harm⟩⟩⟩
      rw [hclear _ ep hep] at hleft
      simp at hleft
  · rintro ⟨hin, hout⟩
    -- what was left from before has been armed since
    have hfree : s₃.ErrorFree := by
      intro e ep hep
      rw [h.ep_eq] at hep
      have hsome : (s.ep e).isSome = true := by rw [hep]; rfl
      by_contra herr
      obtain ⟨hfirst, hd | ⟨rfl, hnone⟩⟩ :=
        (h.errored_iff hep).mp (Bool.eq_true_of_not_eq_false herr)
      · rw [hin e hsome hd] at hfirst
        simp at hfirst
      · obtain ⟨x, hx, harm⟩ := hout hsome hfirst
        exact hnone x hx harm
    refine ⟨fun e ep hep => ?_, fun tr' s₄ hrun hquiet => ?_⟩
    · rw [run_checkErrors (hwf₃.epOk e ep hep).inPlace, hfree e ep hep]
      rfl
    · exact hrun.always hquiet (I := fun _ s => s.WF ∧ s.ErrorFree) ⟨hwf₃, hfree⟩
        (fun _ _ _ _ hI hl hstep => ⟨hstep.wf hI.1, hstep.errorFree hI.1 hI.2 hl⟩)
        fun _ _ _ _ hI _ hstep => hstep.not_invalidState hI.1 hI.2

end Errors

/-- Errors on the bulk OUT endpoint, which `configure` arms again, and on the
    OUT half of the control endpoint, which the read of a SETUP packet does. -/
theorem errors_cleared_device :
    ∃ s tr s₃, Reconfigured s tr s₃ ∧ ((s.td bulkOut.slot).errored = true ∧
      (s.td EpId.ep0Out.slot).errored = true ∧
      (∀ e ep, s₃.ep e = some ep → run ep.checkErrors s₃ = ⟨.ok (.ok ()), s₃, []⟩) ∧
      ∀ tr' s₄, Run Step s₃ tr' s₄ → Always (fun _ _ l => l.hwError = false) tr' →
        Always (fun _ _ l => l.invalidState = false) tr') := by
  obtain ⟨tr₀, s, l, s₁, hrun₀, hreset, hl, hbulk, hout, hin, hmore⟩ := exists_step (s := device)
    (p := fun _ s l s₁ => l.isReset = true ∧ (s.td bulkOut.slot).errored = true ∧
      (s.td EpId.ep0Out.slot).errored = true ∧
      (∀ n : Fin 8, (s.td (EpId.slot ⟨.In, n⟩)).errored = false) ∧
      ((replay s₁ [.hw .resetEnd, .hw (.setup 0x0000000000010900), .call .poll,
          .call (.read EpId.ep0Out.address (List.replicate 8 0))]).any fun x =>
        (perform x.2 (.call .configure)).any fun y => decide
          (Always (fun _ _ l => l.hwError = false) x.1 ∧ y.1.isConfigure = true ∧
            ∃ z ∈ x.1, z.2.Arms .ep0Out)) = true)
    [.call .configure, .hw (.error bulkOut true false true),
      .call (.setStalled EpId.ep0Out.address false), .hw (.error .ep0Out false true false),
      .hw .resetBegin, .call .poll]
    (.call (.reset true)) (by decide +kernel)
  obtain ⟨tr, s₂, l', s₃, hrun, hconf, hquiet, hl', harm⟩ := exists_step (s := s₁)
    (p := fun tr _ l' _ => Always (fun _ _ l => l.hwError = false) tr ∧ l'.isConfigure = true ∧
      ∃ z ∈ tr, z.2.Arms .ep0Out) _ _ hmore
  have h : Reconfigured s tr s₃ :=
    ⟨device_booted.reachable.run hrun₀, ⟨l, s₁, s₂, l', hl, hreset, hrun, hl', hconf⟩, hquiet⟩
  refine ⟨s, tr, s₃, h, hbulk, hout, (errors_cleared_iff h).mpr ⟨?_, fun _ _ => harm⟩⟩
  rintro ⟨d, n⟩ - rfl
  exact hin n

/-- An error on the bulk IN endpoint outlives the reset and `configure`. -/
theorem error_survives_reset :
    ∃ s tr s₃ ep, Reconfigured s tr s₃ ∧ s₃.ep bulkIn = some ep ∧
      run ep.checkErrors s₃ = ⟨.ok (.error .InvalidState), s₃, []⟩ := by
  obtain ⟨tr, s, l, s₁, l', s₂, hrun, hreset, hconf, hl, hl', herr⟩ :=
    exists_two_steps (s := device)
    (p := fun _ l _ l' s₂ => l.isReset = true ∧ l'.isConfigure = true ∧
      (s₂.td bulkIn.slot).errored = true)
    [.call .configure, .call (.write bulkIn.address [7]), .hw (.error bulkIn true false false),
      .hw .resetBegin, .call .poll]
    (.call (.reset true)) (.call .configure) (by decide +kernel)
  have h : Reconfigured s [] s₂ := ⟨device_booted.reachable.run hrun,
    ⟨l, s₁, s₁, l', hl, hreset, .nil, hl', hconf⟩, Always.nil⟩
  have hep := (h.ep_eq bulkIn).trans ((ep_device hrun bulkIn).trans device_bulkIn)
  refine ⟨s, [], s₂, _, h, hep, ?_⟩
  rw [run_checkErrors (h.wf.epOk _ _ hep).inPlace, herr]
  rfl

end ImxrtUsbd
