/-
  ImxrtUsbd.ControlEndpoint

  The control endpoint.  `CtrlStep` lists what a step of the system can be to
  its two halves and to the SETUP latch, and `Step.ctrlStep` says that the list
  is complete.
-/
import ImxrtUsbd.SetupLatch

namespace ImxrtUsbd

open Lib

/-! ## What a step means to the control endpoint -/

/-- The slice passed to a data read of the control endpoint, and what the read
    returned. -/
def Label.returnedData (l : Label) : Option (List Byte × Nat × List Byte) :=
  match l with
  | .call (.read addr buf) (.read (.ok r)) _ =>
    if addr.index = 0 ∧ l.tookSetup = false then some (buf, r) else none
  | _ => none

/-- The IN half takes a response: a write that is not refused. -/
def EpView.AcceptsWrite (v : EpView) : Label → Prop
  | .call (.write addr _) _ _ => addr.index = 0 ∧ v.errored = false ∧ v.primed = false
  | _ => False

/-- The OUT half is unstalled. -/
def Label.UnstallsEp0 : Label → Prop
  | .call (.setStalled addr stalled) _ _ => addr = EpId.ep0Out.address ∧ stalled = false
  | _ => False

/-- A read that takes a SETUP packet if one is pending. -/
def Label.ReadsSetup (pending : Bool) : Label → Prop
  | .call (.read addr buf) _ _ => addr.index = 0 ∧ pending = true ∧ 8 ≤ buf.length
  | _ => False

instance (v : EpView) (l : Label) : Decidable (v.AcceptsWrite l) :=
  match l with
  | .call (.write _ _) _ _ => inferInstanceAs (Decidable (_ ∧ _))
  | .hw _ | .call (.read _ _) _ _ | .call .poll _ _ | .call (.setStalled _ _) _ _
  | .call (.isStalled _) _ _ | .call (.reset _) _ _ | .call .configure _ _
  | .call (.setDeviceAddress _) _ _ | .call .enable _ _ | .call (.enableZlt _) _ _
  | .call (.setInterrupts _) _ _ =>
    inferInstanceAs (Decidable False)

instance (l : Label) : Decidable l.UnstallsEp0 :=
  match l with
  | .call (.setStalled _ _) _ _ => inferInstanceAs (Decidable (_ ∧ _))
  | .hw _ | .call (.read _ _) _ _ | .call (.write _ _) _ _ | .call .poll _ _
  | .call (.isStalled _) _ _ | .call (.reset _) _ _ | .call .configure _ _
  | .call (.setDeviceAddress _) _ _ | .call .enable _ _ | .call (.enableZlt _) _ _
  | .call (.setInterrupts _) _ _ =>
    inferInstanceAs (Decidable False)

instance (pending : Bool) (l : Label) : Decidable (l.ReadsSetup pending) :=
  match l with
  | .call (.read _ _) _ _ => inferInstanceAs (Decidable (_ ∧ _))
  | .hw _ | .call (.write _ _) _ _ | .call .poll _ _ | .call (.setStalled _ _) _ _
  | .call (.isStalled _) _ _ | .call (.reset _) _ _ | .call .configure _ _
  | .call (.setDeviceAddress _) _ _ | .call .enable _ _ | .call (.enableZlt _) _ _
  | .call (.setInterrupts _) _ _ =>
    inferInstanceAs (Decidable False)

/-- What a step can be to the control endpoint, whose halves have packets of up
    to `n` and `m` bytes: its label, what it does to the OUT half and to the IN
    half, and whether a SETUP packet is pending afterwards. -/
inductive CtrlStep (n m : Nat) (vo vi : EpView) (pending : Bool) :
    Label → List EpAct → List EpAct → Bool → Prop where
  /-- A packet is received. -/
  | received {data : List Byte} : vo.primed = true → data.length ≤ vo.left →
      CtrlStep n m vo vi pending (.hw (.outDone 0 data))
        [.fill data, .retire data.length false, .complete] [] pending
  /-- A response is sent. -/
  | sent {k : Nat} : vi.primed = true →
      CtrlStep n m vo vi pending (.hw (.inDone 0 k)) [] [.retire k false, .complete] pending
  | failedOut {halted dataBuffer transaction : Bool} : vo.primed = true →
      CtrlStep n m vo vi pending (.hw (.error .ep0Out halted dataBuffer transaction))
        [.retire 0 true] [] pending
  | failedIn {halted dataBuffer transaction : Bool} : vi.primed = true →
      CtrlStep n m vo vi pending (.hw (.error .ep0In halted dataBuffer transaction))
        [] [.retire 0 true] pending
  /-- A SETUP packet arrives. -/
  | setup {packet : BitVec 64} :
      CtrlStep n m vo vi pending (.hw (.setup packet)) [.unprime] [.unprime] true
  | polled {r : PollResult} {obs : List Obs} :
      CtrlStep n m vo vi pending (.call .poll (.poll r) obs)
        [.signal vo.completed] [.signal vo.completed, .ack] pending
  /-- A read takes the SETUP packet. -/
  | readSetup {addr : EndpointAddress} {buf : List Byte} {r : Nat × List Byte} {obs : List Obs} :
      addr.index = 0 → pending = true → 8 ≤ buf.length →
      Label.tookSetup (.call (.read addr buf) (.read (.ok r)) obs) = true →
      CtrlStep n m vo vi pending (.call (.read addr buf) (.read (.ok r)) obs)
        (if vo.primed then [] else [.schedule n]) [] false
  /-- A read returns data. -/
  | readData {addr : EndpointAddress} {buf : List Byte} {obs : List Obs} :
      addr.index = 0 → ¬ (pending = true ∧ 8 ≤ buf.length) → vo.errored = false →
      vo.primed = false →
      Label.tookSetup (.call (.read addr buf) (.read (.ok (vo.fetch n buf))) obs) = false →
      CtrlStep n m vo vi pending (.call (.read addr buf) (.read (.ok (vo.fetch n buf))) obs)
        [.ack, .schedule n] [] pending
  /-- A write is accepted; it arms the OUT half too, for the status stage. -/
  | wrote {addr : EndpointAddress} {buf : List Byte} {r : Ret} {obs : List Obs} :
      addr.index = 0 → vi.errored = false → vi.primed = false →
      CtrlStep n m vo vi pending (.call (.write addr buf) r obs)
        (if vo.primed then [] else [.ack, .schedule 0])
        [.fill (buf.take m), .schedule (min m buf.length)] pending
  /-- An unstall finds the OUT half unprimed. -/
  | unstalled {r : Ret} {obs : List Obs} : vo.primed = false →
      CtrlStep n m vo vi pending (.call (.setStalled EpId.ep0Out.address false) r obs)
        [.schedule n] [] pending
  | reset {debugAssertions : Bool} {r : Ret} {obs : List Obs} :
      CtrlStep n m vo vi pending (.call (.reset debugAssertions) r obs)
        [.ack, .unprime] [.ack, .unprime] pending
  /-- Anything else leaves the control endpoint alone. -/
  | other {l : Label} : l.received 0 = none → l.setupArrives = false →
      l.returnedData = none → ¬ vi.AcceptsWrite l → (l.UnstallsEp0 → vo.primed = true) →
      ¬ l.ReadsSetup pending → l.isReset = false → CtrlStep n m vo vi pending l [] [] pending

/-! ## The list is complete -/

section Complete

variable {s s' : Sys} {l : Label} {epo epi : Endpoint}

/-- Endpoint number 0 is the control endpoint. -/
theorem address_of_index_zero {addr : EndpointAddress} (h : addr.index = 0) :
    addr = EpId.ep0Out.address ∨ addr = EpId.ep0In.address := by
  have hlt : index addr < 16 := by
    unfold index
    split <;> omega
  obtain ⟨e, rfl⟩ := EpId.exists_of_index_lt hlt
  rw [EpId.address_index] at h
  rcases e.num_cases with h0 | rfl | rfl
  · exact absurd h h0
  · exact Or.inl rfl
  · exact Or.inr rfl

theorem Sys.lookup_index_zero {addr : EndpointAddress} (h : addr.index = 0)
    (hepo : s.ep .ep0Out = some epo) (hepi : s.ep .ep0In = some epi) :
    (s.lookup addr).isSome = true := by
  rcases address_of_index_zero h with rfl | rfl
  · rw [Sys.lookup_address, hepo]
    rfl
  · rw [Sys.lookup_address, hepi]
    rfl

theorem HwEvent.ctrlStep {ev : HwEvent} (hev : ev.Enabled s) (n m : Nat) :
    CtrlStep n m (s.view .ep0Out epo) (s.view .ep0In epi) s.setupPending (.hw ev)
      (ev.acts .ep0Out) (ev.acts .ep0In) (ev.apply s).setupPending := by
  -- events of other endpoints are nothing to the control endpoint
  have hnone : ∀ ev : HwEvent, (∀ packet, ev ≠ .setup packet) → ev.acts .ep0Out = [] →
      ev.acts .ep0In = [] → Label.received 0 (.hw ev) = none →
      (ev.apply s).setupPending = s.setupPending →
      CtrlStep n m (s.view .ep0Out epo) (s.view .ep0In epi) s.setupPending (.hw ev)
        (ev.acts .ep0Out) (ev.acts .ep0In) (ev.apply s).setupPending := by
    intro ev hs ho hi hrec hp
    rw [ho, hi, hp]
    refine .other hrec ?_ rfl id (by rintro ⟨⟩) id rfl
    cases ev with
    | setup packet => exact absurd rfl (hs packet)
    | outDone | inDone | error | nak | resetBegin | resetEnd => rfl
  cases ev with
  | outDone k data =>
    by_cases hk : k = 0
    · subst hk
      exact .received hev.1 hev.2
    · have hne : EpId.ep0Out ≠ ⟨.Out, k⟩ := fun heq => hk (congrArg EpId.num heq).symm
      exact hnone _ (by simp) (only_of_ne hne _) (only_of_ne (by rintro ⟨⟩) _) (if_neg hk) rfl
  | inDone k c =>
    by_cases hk : k = 0
    · subst hk
      exact .sent hev.1
    · have hne : EpId.ep0In ≠ ⟨.In, k⟩ := fun heq => hk (congrArg EpId.num heq).symm
      exact hnone _ (by simp) (only_of_ne (by rintro ⟨⟩) _) (only_of_ne hne _) rfl rfl
  | error f halted dataBuffer transaction =>
    by_cases ho : EpId.ep0Out = f
    · subst ho
      exact .failedOut hev.1
    · by_cases hi : EpId.ep0In = f
      · subst hi
        exact .failedIn hev.1
      · exact hnone _ (by simp) (only_of_ne ho _) (only_of_ne hi _) rfl rfl
  | setup packet =>
    have hp : ((HwEvent.setup packet).apply s).setupPending = true := by
      show (s.reg .ENDPTSETUPSTAT ||| 1).getLsbD 0 = true
      rw [BitVec.getLsbD_or]
      exact Bool.or_true _
    rw [hp]
    exact .setup
  | nak | resetBegin | resetEnd => exact hnone _ (by simp) rfl rfl rfl rfl

/-- The call, in the list. -/
abbrev Sys.CtrlCall (s : Sys) (epo epi : Endpoint) (c : Call) (r : Ret) (obs : List Obs)
    (s' : Sys) : Prop :=
  CtrlStep epo.packetLen epi.packetLen (s.view .ep0Out epo) (s.view .ep0In epi) s.setupPending
    (.call c r obs) (c.acts s .ep0Out epo) (c.acts s .ep0In epi) s'.setupPending

section Calls

variable {c : Call} {r : Ret} {obs : List Obs}

/-- Only a read that takes a SETUP packet sees the latch. -/
theorem Step.latch_alone (h : s.WF) (hstep : Step s (.call c r obs) s')
    (hc : ¬ c.TakesSetup s) :
    s'.setupPending = s.setupPending ∧ Label.tookSetup (.call c r obs) = false := by
  have hk := Call.latch_kept h hc hstep.run_eq
  refine ⟨by rw [Sys.setupPending, hk.latch, Sys.setupPending], ?_⟩
  rw [Bool.eq_false_iff]
  intro ht
  obtain ⟨high, v, hmem⟩ := Label.tookSetup_iff.mp ht
  exact hk.unseen high v hmem

theorem Step.ctrl_poll (h : s.WF) (hstep : Step s (.call .poll r obs) s') :
    s.CtrlCall epo epi .poll r obs s' := by
  rw [Sys.CtrlCall, (hstep.latch_alone h id).1, Call.acts]
  rcases hstep.poll_cases with ⟨hr, rfl⟩ | ⟨hr, hu, rfl⟩ | ⟨hr, hu, rfl⟩
  · rw [hr, Bool.true_or, if_pos rfl, Call.acts, hr, Bool.true_or, if_pos rfl]
    exact .other rfl rfl rfl id (by rintro ⟨⟩) id rfl
  · rw [hr, hu, Bool.not_true, Bool.or_self, if_neg Bool.false_ne_true, Call.acts, hr, hu,
      Bool.not_true, Bool.or_self, if_neg Bool.false_ne_true]
    exact .polled
  · rw [hr, hu, Bool.not_false, Bool.or_true, if_pos rfl, Call.acts, hr, hu, Bool.not_false,
      Bool.or_true, if_pos rfl]
    exact .other rfl rfl rfl id (by rintro ⟨⟩) id rfl

/-- Reads are of the OUT half. -/
theorem Sys.not_readsFrom_ep0In (s : Sys) (addr : EndpointAddress) :
    ¬ s.ReadsFrom addr .ep0In := by
  rintro ⟨-, htarget⟩
  split at htarget
  · exact absurd htarget (by decide)
  · rename_i h0
    rw [htarget] at h0
    exact h0 rfl

/-- A read of the control endpoint: of a SETUP packet, of data, or of nothing. -/
theorem Step.ctrl_readZero {addr : EndpointAddress} {buf : List Byte} (h : s.WF)
    (hepo : s.ep .ep0Out = some epo) (hepi : s.ep .ep0In = some epi) (h0 : addr.index = 0)
    (hstep : Step s (.call (.read addr buf) r obs) s') :
    s.CtrlCall epo epi (.read addr buf) r obs s' := by
  have haddr : s.ReadsFrom addr .ep0Out :=
    ⟨Sys.lookup_index_zero h0 hepo hepi, by rw [if_pos h0]⟩
  have hret := hstep.read_ret h haddr hepo
  rw [Sys.CtrlCall, Call.acts, if_pos haddr, Call.acts, if_neg (s.not_readsFrom_ep0In addr)]
  by_cases hset : s.TakesSetup .ep0Out buf
  · obtain ⟨hlatch, hseen, rfl⟩ := latch_taken h hepo haddr hset hstep.run_eq
    have hp : s'.setupPending = false := by
      rw [Sys.setupPending, hlatch, BitVec.getLsbD_and]
      exact Bool.and_false _
    rw [if_pos hset, hp]
    exact .readSetup h0 hset.2.1 hset.2.2 (Label.tookSetup_iff.mpr hseen)
  · have hns : ¬ (s.setupPending = true ∧ 8 ≤ buf.length) := fun hs => hset ⟨rfl, hs⟩
    obtain ⟨hp, ht⟩ := hstep.latch_alone h fun hc => hset hc.2
    rw [if_neg hset, hp]
    by_cases hr : s.Readable .ep0Out epo
    · rw [Sys.readRet_of_readable hset hr] at hret
      subst hret
      rw [if_pos hr]
      exact .readData h0 hns hr.1 hr.2.1 ht
    · rw [Sys.readRet_of_not_readable hset hr] at hret
      subst hret
      rw [if_neg hr]
      exact .other rfl rfl rfl id (by rintro ⟨⟩) (fun hs => hns hs.2) rfl

/-- A read of another endpoint. -/
theorem Step.ctrl_readOther {addr : EndpointAddress} {buf : List Byte} (h : s.WF)
    (h0 : addr.index ≠ 0) (hstep : Step s (.call (.read addr buf) r obs) s') :
    s.CtrlCall epo epi (.read addr buf) r obs s' := by
  have haddr : ¬ s.ReadsFrom addr .ep0Out := by
    rintro ⟨-, htarget⟩
    rw [if_neg h0] at htarget
    rw [htarget] at h0
    exact h0 rfl
  rw [Sys.CtrlCall, Call.acts, if_neg haddr, Call.acts, if_neg (s.not_readsFrom_ep0In addr),
    (hstep.latch_alone h fun hc => haddr hc.1).1]
  refine .other rfl rfl ?_ id (by rintro ⟨⟩) (fun hs => h0 hs.1) rfl
  unfold Label.returnedData
  split
  · rename_i heq
    obtain ⟨rfl, rfl⟩ := Call.read.inj (Label.call.inj heq).1
    exact if_neg fun hz => h0 hz.1
  · rfl

theorem Step.ctrl_write {addr : EndpointAddress} {buf : List Byte} (h : s.WF)
    (hepo : s.ep .ep0Out = some epo) (hepi : s.ep .ep0In = some epi)
    (hstep : Step s (.call (.write addr buf) r obs) s') :
    s.CtrlCall epo epi (.write addr buf) r obs s' := by
  have hno : ¬ EpId.ep0Out.num.val ≠ 0 := by decide
  have hni : ¬ EpId.ep0In.num.val ≠ 0 := by decide
  rw [Sys.CtrlCall, (hstep.latch_alone h id).1, Call.acts, if_neg hno, Call.acts, if_neg hni]
  split
  · rename_i hw
    have hd : ¬ EpId.ep0Out.dir = .In := by decide
    rw [if_neg hd]
    exact .wrote hw.1 hw.2.2.1 hw.2.2.2
  · rename_i hw
    exact .other rfl rfl rfl
      (fun ha => hw ⟨ha.1, Sys.lookup_index_zero ha.1 hepo hepi, ha.2.1, ha.2.2⟩) (by rintro ⟨⟩)
      id rfl

theorem Step.ctrl_setStalled {addr : EndpointAddress} {stalled : Bool} (h : s.WF)
    (hstep : Step s (.call (.setStalled addr stalled) r obs) s') :
    s.CtrlCall epo epi (.setStalled addr stalled) r obs s' := by
  have hin : ¬ (addr = EpId.ep0In.address ∧ stalled = false ∧ EpId.ep0In.dir = .Out ∧
      s.primed .ep0In = false) := by
    rintro ⟨-, -, hdir, -⟩
    simp [EpId.ep0In] at hdir
  rw [Sys.CtrlCall, (hstep.latch_alone h id).1, Call.acts, Call.acts, if_neg hin]
  split
  · rename_i hc
    obtain ⟨rfl, rfl, -, hp⟩ := hc
    exact .unstalled hp
  · rename_i hc
    refine .other rfl rfl rfl id (fun hu => ?_) id rfl
    by_contra hp
    exact hc ⟨hu.1, hu.2, rfl, Bool.eq_false_of_not_eq_true hp⟩

/-- Endpoint number 0 is not primed with the others. -/
theorem Step.ctrl_configure (h : s.WF) (hstep : Step s (.call .configure r obs) s') :
    s.CtrlCall epo epi .configure r obs s' := by
  have hno : ¬ (EpId.ep0Out.num.val ≠ 0 ∧ EpId.ep0Out.dir = .Out) := by decide
  have hni : ¬ (EpId.ep0In.num.val ≠ 0 ∧ EpId.ep0In.dir = .Out) := by decide
  rw [Sys.CtrlCall, (hstep.latch_alone h id).1, Call.acts, if_neg hno, Call.acts, if_neg hni]
  exact .other rfl rfl rfl id (by rintro ⟨⟩) id rfl

end Calls

/-- Every step of the system is in the list. -/
theorem Step.ctrlStep (h : s.WF) (hepo : s.ep .ep0Out = some epo) (hepi : s.ep .ep0In = some epi)
    (hstep : Step s l s') :
    CtrlStep epo.packetLen epi.packetLen (s.view .ep0Out epo) (s.view .ep0In epi)
      s.setupPending l (s.acts l .ep0Out) (s.acts l .ep0In) s'.setupPending := by
  cases l with
  | hw ev =>
    obtain ⟨hev, rfl⟩ := hstep.enabled
    exact HwEvent.ctrlStep hev _ _
  | call c r obs =>
    rw [Sys.acts_call hepo, Sys.acts_call hepi]
    cases c with
    | poll => exact hstep.ctrl_poll h
    | read addr buf =>
      by_cases h0 : addr.index = 0
      · exact hstep.ctrl_readZero h hepo hepi h0
      · exact hstep.ctrl_readOther h h0
    | write addr buf => exact hstep.ctrl_write h hepo hepi
    | setStalled addr stalled => exact hstep.ctrl_setStalled h
    | reset debugAssertions =>
      rw [(hstep.latch_alone h id).1]
      exact .reset
    | configure => exact hstep.ctrl_configure h
    | isStalled _ | setDeviceAddress _ | enable | enableZlt _ | setInterrupts _ =>
      rw [(hstep.latch_alone h id).1]
      exact .other rfl rfl rfl id (by rintro ⟨⟩) id rfl

end Complete

end ImxrtUsbd
