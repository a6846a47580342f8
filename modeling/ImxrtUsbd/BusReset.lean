/-
  ImxrtUsbd.BusReset

  What survives a bus reset: a SETUP packet that was latched
  (`no_setup_survives_iff`) and an OUT packet that was signalled
  (`no_data_survives_iff`).  Each result names the states in which nothing
  survives.
-/
import ImxrtUsbd.SetupLatch
import ImxrtUsbd.Replay

namespace ImxrtUsbd

open Lib

/-! ## The reset call -/

section Reset

variable {s s₁ s₂ : Sys} {l : Label} {e : EpId} {ep : Endpoint}

/-- A reset takes back every transfer and every completion. -/
theorem Step.view_reset (h : s.WF) (hep : s.ep e = some ep) (hl : l.isReset = true)
    (hstep : Step s l s₁) : s₁.view e ep = (s.view e ep).acts [.ack, .unprime] := by
  obtain ⟨dbg, r, obs, rfl⟩ := Label.isReset_eq hl
  rw [hstep.view_eq h hep]
  congr 1
  exact Sys.acts_call hep (.reset dbg) r obs

/-- A reset does not touch the SETUP latch. -/
theorem Step.latch_reset (h : s.WF) (hl : l.isReset = true) (hstep : Step s l s₁) :
    s₁.reg .ENDPTSETUPSTAT = s.reg .ENDPTSETUPSTAT := by
  obtain ⟨dbg, r, obs, rfl⟩ := Label.isReset_eq hl
  have hc : ¬ (Call.reset dbg).TakesSetup s := id
  exact (Call.latch_kept h hc hstep.run_eq).latch

/-- A reset in a release build always returns. -/
theorem exists_reset (h : s.WF) : ∃ l s₁, l.isReset = true ∧ Step s l s₁ ∧
    ∀ n, l.received n = none := by
  have hrun : run (Call.reset false).prog s = ⟨.ok .unit, s.reset, []⟩ := by
    show run (Driver.busReset false >>= fun _ => pure Ret.unit) s = _
    rw [run_bind, run_busReset h, Bool.false_and, if_neg Bool.false_ne_true]
    rfl
  exact ⟨_, _, rfl, .call hrun, fun _ => rfl⟩

end Reset

/-! ## SETUP packets -/

/-- A poll reports a SETUP packet. -/
def Label.reportsSetup : Label → Bool
  | .call .poll (.poll (.Data _ _ epSetup)) _ => epSetup != 0
  | _ => false

section Setup

variable {s s₁ s₂ : Sys} {l : Label} {tr : Trace} {ep : Endpoint}

/-- Only the control endpoint latches SETUP packets. -/
def Sys.LatchOnly0 (s : Sys) : Prop := ∀ i, i ≠ 0 → (s.reg .ENDPTSETUPSTAT).getLsbD i = false

theorem Sys.LatchOnly0.eq_zero (h : s.LatchOnly0) (hp : s.setupPending = false) :
    s.reg .ENDPTSETUPSTAT = 0 := by
  apply BitVec.eq_of_getLsbD_eq
  intro i _
  rw [show ((0 : Word).getLsbD i) = false from BitVec.getLsbD_zero]
  by_cases hi : i = 0
  · subst hi
    exact hp
  · exact h i hi

theorem Step.latchOnly0 (h : s.WF) (hep : s.ep .ep0Out = some ep) (h0 : s.LatchOnly0)
    (hstep : Step s l s₁) : s₁.LatchOnly0 := by
  intro i hi
  rcases hstep.latch_cases h hep with ⟨-, -, hreg⟩ | ⟨-, -, -, hreg⟩ | ⟨-, -, hreg⟩
  · have hone : (1#32).getLsbD i = false := by
      rw [BitVec.getLsbD_one]
      simp [hi]
    rw [hreg, BitVec.getLsbD_or, h0 i hi, Bool.false_or]
    exact hone
  · rw [hreg, BitVec.getLsbD_and, h0 i hi]
    rfl
  · rw [hreg]
    exact h0 i hi

theorem Reachable.latchOnly0 (h : Reachable s) (hep : s.ep .ep0Out = some ep) :
    s.LatchOnly0 := by
  obtain ⟨s₀, tr, hb, hrun⟩ := h
  have hwf := hb.idle.wf
  have hep₀ : s₀.ep .ep0Out = some ep := (ep_run hwf hrun _).symm.trans hep
  have hinv := hrun.invariant (I := fun s => s.WF ∧ s.ep .ep0Out = some ep ∧ s.LatchOnly0)
    (always_true tr)
    ⟨hwf, hep₀, fun i _ => by rw [hb.idle.setupstat]; exact BitVec.getLsbD_zero⟩
    fun _ _ _ _ ⟨hwf, hep, h0⟩ _ hstep =>
      ⟨hstep.wf hwf, (hstep.ep_eq hwf _).trans hep, hstep.latchOnly0 hwf hep h0⟩
  exact hinv.2.2

/-- With an empty latch, nothing is reported and nothing is returned. -/
theorem Step.no_setup (h : s.WF) (hep : s.ep .ep0Out = some ep)
    (h0 : s.reg .ENDPTSETUPSTAT = 0) (hstep : Step s l s₁) :
    l.reportsSetup = false ∧ l.tookSetup = false := by
  constructor
  · unfold Label.reportsSetup
    split
    · rcases hstep.poll_cases with ⟨-, hr⟩ | ⟨-, -, hr⟩ | ⟨-, -, hr⟩
      · simp at hr
      · rw [Sys.pollData, h0] at hr
        simp only [Ret.poll.injEq, PollResult.Data.injEq] at hr
        rw [hr.2.2]
        rfl
      · simp at hr
    · rfl
  · have hp : s.setupPending = false := by
      rw [Sys.setupPending, h0]
      rfl
    rcases hstep.latch_cases h hep with ⟨-, ht, -⟩ | ⟨-, -, hpend, -⟩ | ⟨-, ht, -⟩
    · exact ht
    · rw [hp] at hpend
      simp at hpend
    · exact ht

/-- After a bus reset, and until a new SETUP packet arrives, no poll reports a
    SETUP packet and no `ctrl0_read` returns one, if and only if none was
    latched when the reset was handled. -/
theorem no_setup_survives_iff (hs : Reachable s) (hep : s.ep .ep0Out = some ep)
    (hl : l.isReset = true) (hstep : Step s l s₁) :
    (∀ tr s₂, Run Step s₁ tr s₂ → Always (fun _ _ l => l.setupArrives = false) tr →
      Always (fun _ _ l => l.reportsSetup = false ∧ l.tookSetup = false) tr) ↔
      s.setupPending = false := by
  have hwf := hs.wf
  have hwf₁ := hstep.wf hwf
  have hep₁ : s₁.ep .ep0Out = some ep := (hstep.ep_eq hwf _).trans hep
  have hlatch := hstep.latch_reset hwf hl
  constructor
  · intro hall
    by_contra hp
    -- a read takes the packet that was left in the latch
    have hp₁ : s₁.setupPending = true := by
      rw [Sys.setupPending, hlatch]
      exact Bool.eq_true_of_not_eq_false hp
    obtain ⟨l', s₂, hread, htook, hquiet⟩ := exists_readSetup hwf₁ hep₁ hp₁
    have hgood := always_single.mp (hall _ _ (Run.single hread) (always_single.mpr hquiet))
    rw [htook] at hgood
    simp at hgood
  · intro hp tr s₂ hrun hquiet
    have h0 : s₁.reg .ENDPTSETUPSTAT = 0 := by
      rw [hlatch]
      exact (hs.latchOnly0 hep).eq_zero hp
    -- the latch stays empty
    refine hrun.always hquiet
      (I := fun _ s => s.WF ∧ s.ep .ep0Out = some ep ∧ s.reg .ENDPTSETUPSTAT = 0)
      ⟨hwf₁, hep₁, h0⟩ ?_ fun _ _ _ _ hI _ hstep => hstep.no_setup hI.1 hI.2.1 hI.2.2
    rintro tr s l s' ⟨hwf, hep, h0⟩ hl hstep
    refine ⟨hstep.wf hwf, (hstep.ep_eq hwf _).trans hep, ?_⟩
    rcases hstep.latch_cases hwf hep with ⟨ha, -⟩ | ⟨-, -, -, hreg⟩ | ⟨-, -, hreg⟩
    · rw [hl] at ha
      simp at ha
    · rw [hreg, h0]
      exact BitVec.zero_and
    · rw [hreg, h0]

end Setup

/-- A SETUP packet that was read before the reset. -/
theorem no_setup_survives_device :
    ∃ tr s l s₁, Run Step device tr s ∧ (l.isReset = true ∧ Step s l s₁ ∧
      ∀ tr' s₂, Run Step s₁ tr' s₂ → Always (fun _ _ l => l.setupArrives = false) tr' →
        Always (fun _ _ l => l.reportsSetup = false ∧ l.tookSetup = false) tr') := by
  obtain ⟨tr, s, l, s₁, hrun, hstep, hl, hp⟩ := exists_step (s := device)
    (p := fun _ s l _ => l.isReset = true ∧ s.setupPending = false)
    [.hw (.setup 0x0000000000010900), .call .poll,
      .call (.read EpId.ep0Out.address (List.replicate 8 0)), .hw .resetBegin, .call .poll]
    (.call (.reset true)) (by decide +kernel)
  exact ⟨tr, s, l, s₁, hrun, hl, hstep,
    (no_setup_survives_iff (device_booted.reachable.run hrun)
      ((ep_device hrun _).trans device_ep0Out) hl hstep).mpr hp⟩

/-- A SETUP packet that was latched before the reset is returned after it. -/
theorem setup_survives_reset :
    ∃ tr s l s₁ tr' s₂, Run Step device tr s ∧ l.isReset = true ∧ Step s l s₁ ∧
      Run Step s₁ tr' s₂ ∧ Always (fun _ _ l => l.setupArrives = false) tr' ∧
      ¬ Always (fun _ _ l => l.reportsSetup = false ∧ l.tookSetup = false) tr' := by
  obtain ⟨tr, s, l, s₁, hrun, hstep, hl, hmore⟩ := exists_step (s := device)
    (p := fun _ _ l s₁ => l.isReset = true ∧
      ((replay s₁ [.call (.read EpId.ep0Out.address (List.replicate 8 0))]).any fun x => decide
        (Always (fun _ _ l => l.setupArrives = false) x.1 ∧
          ¬ Always (fun _ _ l => l.reportsSetup = false ∧ l.tookSetup = false) x.1)) = true)
    [.hw (.setup 0x0000000000010900), .hw .resetBegin, .call .poll] (.call (.reset true))
    (by decide +kernel)
  obtain ⟨tr', s₂, hrun', hquiet, hbad⟩ := exists_run (p := fun tr _ =>
    Always (fun _ _ l => l.setupArrives = false) tr ∧
      ¬ Always (fun _ _ l => l.reportsSetup = false ∧ l.tookSetup = false) tr) _ hmore
  exact ⟨tr, s, l, s₁, tr', s₂, hrun, hl, hstep, hrun', hquiet, hbad⟩

/-! ## OUT packets -/

/-- A read of the endpoint returns nothing but an error. -/
def Label.ReadBlocked (e : EpId) (l : Label) : Prop :=
  ∀ buf r obs, l = .call (.read e.address buf) (.read r) obs →
    r = .error .WouldBlock ∨ r = .error .InvalidState

theorem Label.ReadBlocked.returned {e : EpId} {l : Label} (h : l.ReadBlocked e) :
    l.returned e = none := by
  unfold Label.returned
  split
  · refine if_neg ?_
    rintro rfl
    have := h _ _ _ rfl
    simp at this
  · rfl

section Data

variable {s s₁ s₂ : Sys} {l l' : Label} {tr : Trace} {e : EpId} {ep : Endpoint}

/-- A read returns an error as long as nothing is signalled. -/
theorem Step.readBlocked (h : s.WF) (hep : s.ep e = some ep) (h0 : e.num.val ≠ 0)
    (hs : (s.view e ep).signalled = false) (hstep : Step s l s₁) : l.ReadBlocked e := by
  rintro buf r obs rfl
  have haddr : s.ReadsFrom e.address e := (Sys.readsFrom_address hep h0).mpr rfl
  have hset : ¬ s.TakesSetup e buf := by
    rintro ⟨rfl, -⟩
    exact h0 rfl
  have hrd : ¬ s.Readable e ep := by
    intro hrd
    rw [hrd.2.2 h0] at hs
    simp at hs
  have hr := hstep.read_ret h haddr hep
  rw [Sys.readRet_of_not_readable hset hrd] at hr
  rw [Ret.read.inj hr]
  split
  · exact Or.inr rfl
  · exact Or.inl rfl

/-- Nothing is signalled as long as nothing is received. -/
theorem OutStep.unsignalled {n : Nat} {v : EpView} {acts : List EpAct}
    (hstep : OutStep e n v l acts) (hrec : l.received e.num = none)
    (h : v.signalled = false ∧ v.completed = false) :
    (v.acts acts).signalled = false ∧ (v.acts acts).completed = false := by
  cases hstep with
  | received => simp [Label.received] at hrec
  | failed => exact h
  | polled => exact ⟨h.2, h.2⟩
  | read _ _ hs =>
    rw [h.1] at hs
    simp at hs
  | wrote => exact h
  | unstalled => exact h
  | configured => exact h
  | reset => exact ⟨h.1, rfl⟩
  | other => exact h

/-- A configured endpoint that is reset again can be read if it is signalled. -/
theorem exists_stale_read (h : s.WF) (hep : s.ep e = some ep) (hout : e.dir = .Out)
    (h0 : e.num.val ≠ 0) (hs : (s.view e ep).signalled = true) :
    ∃ tr s₁, Run Step s tr s₁ ∧ Always (fun _ _ l => l.received e.num = none) tr ∧
      ¬ Always (fun _ _ l => l.ReadBlocked e) tr := by
  -- arm the endpoint, so that its descriptor carries no error
  have hconf : Step s (.call .configure .unit s.configuredObs) s.configured := by
    refine .call ?_
    show run (Driver.onConfigured >>= fun _ => pure Ret.unit) s = _
    rw [run_bind, run_onConfigured h, Out.andThen_ok_obs, run_pure, List.append_nil]
  have hwf₁ := hconf.wf h
  have hep₁ := (hconf.ep_eq h e).trans hep
  have hv₁ : s.configured.view e ep = (s.view e ep).act (.schedule ep.packetLen) := by
    rw [hconf.view_eq h hep, Sys.acts_call hep, Call.acts, if_pos ⟨h0, hout⟩]
    rfl
  -- take the transfer back
  obtain ⟨l, s₂, hl, hreset, hrec⟩ := exists_reset hwf₁
  have hwf₂ := hreset.wf hwf₁
  have hep₂ := (hreset.ep_eq hwf₁ e).trans hep₁
  have hv₂ := hreset.view_reset hwf₁ hep₁ hl
  rw [hv₁] at hv₂
  have hrd : s₂.Readable e ep := by
    refine ⟨?_, ?_, fun _ => ?_⟩
    · rw [hv₂]
      rfl
    · rw [hv₂]
      rfl
    · rw [hv₂]
      exact hs
  -- and read it
  have haddr : s₂.ReadsFrom e.address e := (Sys.readsFrom_address hep₂ h0).mpr rfl
  have hset : ¬ s₂.TakesSetup e [] := by
    rintro ⟨rfl, -⟩
    exact h0 rfl
  have hread : Step s₂ (.call (.read e.address []) (.read (s₂.readRet e ep [])) (s₂.armObs e))
      (s₂.rearm e ep ep.packetLen) := by
    refine .call ?_
    show run (BusAdapter.read _ _ >>= fun x => pure (Ret.read x)) s₂ = _
    rw [run_bind, run_busRead hwf₂ haddr hep₂, if_neg hset, if_pos hrd, Out.andThen_ok_obs,
      run_pure, List.append_nil]
  refine ⟨_, _, ((Run.single hconf).snoc hreset).snoc hread, ?_, fun hgood => ?_⟩
  · rw [always_snoc, always_snoc, always_single]
    exact ⟨⟨rfl, hrec _⟩, rfl⟩
  · have hblocked := (always_snoc.mp hgood).2 [] _ _ rfl
    rw [Sys.readRet_of_readable hset hrd] at hblocked
    simp at hblocked

/-- After a bus reset, and until a new packet is received on the OUT endpoint,
    reads of it return nothing but errors if and only if the driver had not
    signalled the endpoint when the reset was handled. -/
theorem no_data_survives_iff (hs : Reachable s) (hep : s.ep e = some ep) (hout : e.dir = .Out)
    (h0 : e.num.val ≠ 0) (hl : l.isReset = true) (hreset : Step s l s₁) :
    (∀ tr s₂, Run Step s₁ tr s₂ → Always (fun _ _ l => l.received e.num = none) tr →
      Always (fun _ _ l => l.ReadBlocked e) tr) ↔ s.driver.epOut.getLsbD e.num.val = false := by
  have hwf := hs.wf
  have hwf₁ := hreset.wf hwf
  have hep₁ := (hreset.ep_eq hwf e).trans hep
  -- the reset does not touch the signal
  have hv := hreset.view_reset hwf hep hl
  have hs₁ : (s₁.view e ep).signalled = s.driver.epOut.getLsbD e.num.val := by
    rw [hv]
    rfl
  constructor
  · intro hall
    by_contra hsig
    have hsig₁ : (s₁.view e ep).signalled = true := by
      rw [hs₁]
      exact Bool.eq_true_of_not_eq_false hsig
    obtain ⟨tr, s₂, hrun, hrec, hbad⟩ := exists_stale_read hwf₁ hep₁ hout h0 hsig₁
    exact hbad (hall tr s₂ hrun hrec)
  · intro hsig tr s₂ hrun hrec
    refine hrun.always hrec
      (I := fun _ s => s.WF ∧ s.ep e = some ep ∧ (s.view e ep).signalled = false ∧
        (s.view e ep).completed = false)
      ⟨hwf₁, hep₁, by rw [hs₁, hsig], by rw [hv]; rfl⟩ ?_ ?_
    · rintro tr s l s' ⟨hwf, hep, hquiet⟩ hl hstep
      refine ⟨hstep.wf hwf, (hstep.ep_eq hwf e).trans hep, ?_⟩
      rw [hstep.view_eq hwf hep]
      exact (hstep.outStep hwf hep hout h0).unsignalled hl hquiet
    · rintro tr s l s' ⟨hwf, hep, hquiet⟩ - hstep
      exact hstep.readBlocked hwf hep h0 hquiet.1

end Data

/-- A packet that was read, and a poll after it, before the reset. -/
theorem no_data_survives_device :
    ∃ tr s l s₁, Run Step device tr s ∧ (l.isReset = true ∧ Step s l s₁ ∧
      ∀ tr' s₂, Run Step s₁ tr' s₂ → Always (fun _ _ l => l.received bulkOut.num = none) tr' →
        Always (fun _ _ l => l.ReadBlocked bulkOut) tr') := by
  obtain ⟨tr, s, l, s₁, hrun, hreset, hl, hs⟩ := exists_step (s := device)
    (p := fun _ s l _ => l.isReset = true ∧ s.driver.epOut.getLsbD bulkOut.num.val = false)
    [.call .configure, .hw (.outDone 1 [1, 2, 3]), .call .poll,
      .call (.read bulkOut.address (List.replicate 64 0)), .hw (.setup 0), .call .poll,
      .hw .resetBegin, .call .poll]
    (.call (.reset true)) (by decide +kernel)
  exact ⟨tr, s, l, s₁, hrun, hl, hreset, (no_data_survives_iff (device_booted.reachable.run hrun)
    ((ep_device hrun _).trans device_bulkOut) rfl (by decide) hl hreset).mpr hs⟩

/-- A packet that was signalled before the reset is returned after it. -/
theorem data_survives_reset :
    ∃ tr s l s₁ l' s₂ tr' s₃, Run Step device tr s ∧ l.reportsReset = true ∧ Step s l s₁ ∧
      l'.isReset = true ∧ Step s₁ l' s₂ ∧ Run Step s₂ tr' s₃ ∧
      Always (fun _ _ l => l.received bulkOut.num = none) tr' ∧
      ¬ Always (fun _ _ l => l.ReadBlocked bulkOut) tr' := by
  obtain ⟨tr, s, l, s₁, l', s₂, hrun, hpoll, hreset, hl, hl', hmore⟩ :=
    exists_two_steps (s := device)
    (p := fun _ l _ l' s₂ => l.reportsReset = true ∧ l'.isReset = true ∧
      ((perform s₂ (.call (.read bulkOut.address (List.replicate 4 0)))).any fun x =>
        decide (x.1.returned bulkOut = some (List.replicate 4 0, 3, [1, 2, 3, 0]))) = true)
    [.call .configure, .hw (.outDone 1 [1, 2, 3]), .call .poll, .hw .resetBegin]
    (.call .poll) (.call (.reset true)) (by decide +kernel)
  obtain ⟨⟨k, s₃⟩, hx, hret⟩ := (Option.any_eq_true _ _).mp hmore
  obtain ⟨hcmd, hread⟩ := perform_iff.mp hx
  refine ⟨tr, s, l, s₁, l', s₂, _, s₃, hrun, hl, hpoll, hl', hreset, Run.single hread, ?_, ?_⟩
  · rw [always_single]
    cases k with
    | call => rfl
    | hw => simp [Label.cmd] at hcmd
  · rw [always_single]
    intro hblocked
    have hret' := of_decide_eq_true hret
    rw [hblocked.returned] at hret'
    simp at hret'

end ImxrtUsbd
