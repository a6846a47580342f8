/-
  ImxrtUsbd.Calls

  The calls `usb-device` makes to the bus adapter, and their effects:
  `Call.acts` says what a call does to an endpoint, and `Call.effect` that the
  code does just that.
-/
import ImxrtUsbd.SessionSpec

namespace ImxrtUsbd

open Lib

/-! ## Calls -/

/-- The calls of a bus adapter whose endpoints are allocated. -/
inductive Call where
  | poll
  | read (addr : EndpointAddress) (buf : List Byte)
  | write (addr : EndpointAddress) (buf : List Byte)
  | setStalled (addr : EndpointAddress) (stalled : Bool)
  | isStalled (addr : EndpointAddress)
  /-- `debugAssertions` is a property of the build. -/
  | reset (debugAssertions : Bool)
  | configure
  | setDeviceAddress (addr : BitVec 8)
  | enable
  | enableZlt (addr : EndpointAddress)
  | setInterrupts (interrupts : Bool)

/-- What they return. -/
inductive Ret where
  | unit
  | poll (r : PollResult)
  | read (r : Except UsbError (Nat × List Byte))
  | write (r : Except UsbError Nat)
  | bool (b : Bool)

/-- The code of a call. -/
def Call.prog : Call → UsbM Ret
  | .poll => return .poll (← Driver.poll)
  | .read addr buf => return .read (← BusAdapter.read addr buf)
  | .write addr buf => return .write (← BusAdapter.write addr buf)
  | .setStalled addr stalled => do
    BusAdapter.setStalled addr stalled
    return .unit
  | .isStalled addr => return .bool (← BusAdapter.isStalled addr)
  | .reset debugAssertions => do
    Driver.busReset debugAssertions
    return .unit
  | .configure => do
    Driver.onConfigured
    return .unit
  | .setDeviceAddress addr => do
    Driver.setAddress addr
    return .unit
  | .enable => do
    Driver.attach
    return .unit
  | .enableZlt addr => do
    Driver.enableZlt addr
    return .unit
  | .setInterrupts interrupts => do
    Driver.setInterrupts interrupts
    return .unit

/-! ## What a call does to an endpoint -/

namespace Sys

/-- A read of the address reads from the endpoint: number 0 in either direction
    is the OUT half of the control endpoint. -/
def ReadsFrom (s : Sys) (addr : EndpointAddress) (e : EpId) : Prop :=
  (s.lookup addr).isSome = true ∧ if addr.index = 0 then e = .ep0Out else addr = e.address

instance (s : Sys) (addr : EndpointAddress) (e : EpId) : Decidable (s.ReadsFrom addr e) :=
  inferInstanceAs (Decidable (_ ∧ _))

/-- A read of the endpoint into `buf` takes a SETUP packet. -/
def TakesSetup (s : Sys) (e : EpId) (buf : List Byte) : Prop :=
  e = .ep0Out ∧ s.setupPending = true ∧ 8 ≤ buf.length

instance (s : Sys) (e : EpId) (buf : List Byte) : Decidable (s.TakesSetup e buf) :=
  inferInstanceAs (Decidable (_ ∧ _))

/-- What a read of the endpoint returns. -/
def readRet (s : Sys) (e : EpId) (ep : Endpoint) (buf : List Byte) :
    Except UsbError (Nat × List Byte) :=
  if s.TakesSetup e buf then .ok (8, setupBytes (s.qh 0).setup ++ buf.drop 8)
  else if (s.view e ep).errored then .error .InvalidState
  else if (s.view e ep).primed || (e.num.val != 0 && !(s.view e ep).signalled) then
    .error .WouldBlock
  else .ok ((s.view e ep).fetch ep.packetLen buf)

/-- A data read of the endpoint returns data. -/
def Readable (s : Sys) (e : EpId) (ep : Endpoint) : Prop :=
  (s.view e ep).errored = false ∧ (s.view e ep).primed = false ∧
    (e.num.val ≠ 0 → (s.view e ep).signalled = true)

instance (s : Sys) (e : EpId) (ep : Endpoint) : Decidable (s.Readable e ep) :=
  inferInstanceAs (Decidable (_ ∧ _))

theorem readRet_of_readable {s : Sys} {e : EpId} {ep : Endpoint} {buf : List Byte}
    (hset : ¬ s.TakesSetup e buf) (hr : s.Readable e ep) :
    s.readRet e ep buf = .ok ((s.view e ep).fetch ep.packetLen buf) := by
  obtain ⟨herr, hp, hs⟩ := hr
  have hblock : ((s.view e ep).primed || (e.num.val != 0 && !(s.view e ep).signalled)) = false := by
    rw [hp, Bool.false_or]
    by_cases h0 : e.num.val = 0
    · rw [h0]
      rfl
    · rw [hs h0, Bool.not_true, Bool.and_false]
  rw [readRet, if_neg hset, herr, hblock, if_neg Bool.false_ne_true, if_neg Bool.false_ne_true]

theorem readRet_of_not_readable {s : Sys} {e : EpId} {ep : Endpoint} {buf : List Byte}
    (hset : ¬ s.TakesSetup e buf) (hr : ¬ s.Readable e ep) :
    s.readRet e ep buf =
      .error (if (s.view e ep).errored then .InvalidState else .WouldBlock) := by
  rw [readRet, if_neg hset]
  cases herr : (s.view e ep).errored with
  | true => rfl
  | false =>
    have hblock : ((s.view e ep).primed || (e.num.val != 0 && !(s.view e ep).signalled)) =
        true := by
      by_contra hb
      rw [Bool.not_eq_true, Bool.or_eq_false_iff, Bool.and_eq_false_iff] at hb
      refine hr ⟨herr, hb.1, fun h0 => ?_⟩
      rcases hb.2 with h | h
      · exact absurd (by simpa using h) h0
      · simpa using h
    rw [hblock]
    rfl

/-- A write to the endpoint is accepted. -/
def Writable (s : Sys) (e : EpId) : Prop := (s.td e.slot).errored = false ∧ s.primed e = false

instance (s : Sys) (e : EpId) : Decidable (s.Writable e) :=
  inferInstanceAs (Decidable (_ ∧ _))

/-- A write to the address goes to the endpoint: number 0 in either direction
    is the IN half of the control endpoint. -/
def WritesTo (s : Sys) (addr : EndpointAddress) (e : EpId) : Prop :=
  (s.lookup addr).isSome = true ∧ if addr.index = 0 then e = .ep0In else addr = e.address

instance (s : Sys) (addr : EndpointAddress) (e : EpId) : Decidable (s.WritesTo addr e) :=
  inferInstanceAs (Decidable (_ ∧ _))

/-- What a write to the endpoint returns. -/
def writeRet (s : Sys) (e : EpId) (ep : Endpoint) (buf : List Byte) : Except UsbError Nat :=
  if (s.view e ep).errored then .error .InvalidState
  else if (s.view e ep).primed then .error .WouldBlock
  else .ok (min ep.packetLen buf.length)

end Sys

/-- What a call that returns does to the endpoint `e`. -/
def Call.acts (s : Sys) (e : EpId) (ep : Endpoint) : Call → List EpAct
  | .poll =>
    if s.resetReceived || !s.usbInterrupt then []
    else .signal (s.completed ⟨.Out, e.num⟩) :: if e.dir = .In then [.ack] else []
  | .read addr buf =>
    if s.ReadsFrom addr e then
      if s.TakesSetup e buf then
        if s.primed e then [] else [.schedule ep.packetLen]
      else if s.Readable e ep then [.ack, .schedule ep.packetLen] else []
    else []
  | .write addr buf =>
    if e.num.val ≠ 0 then
      if addr = e.address ∧ s.Writable e then
        [.fill (buf.take ep.packetLen), .schedule (min ep.packetLen buf.length)]
      else []
    else if addr.index = 0 ∧ (s.lookup addr).isSome ∧ s.Writable .ep0In then
      if e.dir = .In then
        [.fill (buf.take ep.packetLen), .schedule (min ep.packetLen buf.length)]
      else if s.primed e then [] else [.ack, .schedule 0]
    else []
  | .setStalled addr stalled =>
    if addr = e.address ∧ stalled = false ∧ e.dir = .Out ∧ s.primed e = false then
      [.schedule ep.packetLen]
    else []
  | .reset _ => [.ack, .unprime]
  | .configure => if e.num.val ≠ 0 ∧ e.dir = .Out then [.schedule ep.packetLen] else []
  | .isStalled _ | .setDeviceAddress _ | .enable | .enableZlt _ | .setInterrupts _ => []

/-- No call completes a transfer. -/
theorem Call.complete_not_mem {s : Sys} {e : EpId} {ep : Endpoint} (c : Call) :
    .complete ∉ c.acts s e ep := by
  cases c with
  | poll | read | write | setStalled | configure => simp only [Call.acts]; split_ifs <;> simp
  | reset | isStalled | setDeviceAddress | enable | enableZlt | setInterrupts => simp [Call.acts]

/-- The same, for all endpoints. -/
def Sys.callActs (s : Sys) (c : Call) (e : EpId) : List EpAct :=
  match s.ep e with
  | some ep => c.acts s e ep
  | none => []

section Effects

variable {s s' : Sys} {r : Ret} {o : List Obs}

theorem run_map_ok {α β : Type} {p : UsbM α} {f : α → β} {r : β}
    (h : run (p >>= fun a => pure (f a)) s = ⟨.ok r, s', o⟩) :
    ∃ a, run p s = ⟨.ok a, s', o⟩ ∧ r = f a := by
  rw [run_bind] at h
  generalize run p s = x at h ⊢
  obtain ⟨res, post, obs⟩ := x
  cases res with
  | ok a =>
    rw [Out.andThen_ok_obs, run_pure, List.append_nil] at h
    obtain ⟨hr, rfl, rfl⟩ := Out.mk.inj h
    exact ⟨a, rfl, (Res.ok.inj hr).symm⟩
  | fail e => simp [Out.andThen] at h
  | spin => simp [Out.andThen] at h

/-- A call that is about one endpoint. -/
theorem callActs_only {e : EpId} {ep : Endpoint} (hep : s.ep e = some ep) {c : Call}
    (hne : ∀ f fp, f ≠ e → c.acts s f fp = []) (f : EpId) :
    only e (c.acts s e ep) f = s.callActs c f := by
  unfold Sys.callActs
  by_cases hf : f = e
  · subst hf
    rw [only_self, hep]
  · rw [only_of_ne hf]
    cases s.ep f with
    | none => rfl
    | some fp => exact (hne f fp hf).symm

/-- A call that is about no endpoint. -/
theorem callActs_none {c : Call} (h : ∀ f fp, s.ep f = some fp → c.acts s f fp = []) (f : EpId) :
    [] = s.callActs c f := by
  unfold Sys.callActs
  cases hf : s.ep f with
  | none => rfl
  | some fp => exact (h f fp hf).symm

theorem callActs_none_at {c : Call} {f : EpId} (h : ∀ fp, c.acts s f fp = []) :
    [] = s.callActs c f := by
  unfold Sys.callActs
  cases s.ep f with
  | none => rfl
  | some fp => exact (h fp).symm

theorem EpId.num_cases (e : EpId) : e.num.val ≠ 0 ∨ e = .ep0Out ∨ e = .ep0In := by
  revert e
  rw [forall_iff]
  decide

/-! ### Reads -/

theorem Sys.readsFrom_address {e f : EpId} {ep : Endpoint} (hep : s.ep e = some ep)
    (h0 : e.num.val ≠ 0) : s.ReadsFrom e.address f ↔ f = e := by
  rw [ReadsFrom, lookup_address, hep, EpId.address_index, if_neg h0, EpId.address_inj]
  exact ⟨fun h => h.2.symm, fun h => ⟨rfl, h.symm⟩⟩

/-- A read of an allocated endpoint, in one equation for both kinds of endpoint. -/
theorem run_busRead {addr : EndpointAddress} {e : EpId} {ep : Endpoint} (h : s.WF)
    (haddr : s.ReadsFrom addr e) (hep : s.ep e = some ep) (buf : List Byte) :
    run (BusAdapter.read addr buf) s =
      if s.TakesSetup e buf then
        if s.primed e then ⟨.ok (s.readRet e ep buf), s.takeSetup, s.setupObs⟩
        else
          ⟨.ok (s.readRet e ep buf),
            (s.takeSetup.lower .ENDPTNAK e.mask).arm e ep.buffer.ptr ep.packetLen,
            s.setupObs ++ s.armObs e⟩
      else if s.Readable e ep then
        ⟨.ok (s.readRet e ep buf), s.rearm e ep ep.packetLen, s.armObs e⟩
      else ⟨.ok (s.readRet e ep buf), s, []⟩ := by
  obtain ⟨halloc, htarget⟩ := haddr
  rw [BusAdapter.read, run_bind, run_isAllocated h, Out.andThen_ok, halloc, Bool.not_true,
    if_neg Bool.false_ne_true]
  split at htarget
  · -- the control endpoint
    rename_i h0
    subst htarget
    have hsetup : (s.setupPending && decide (8 ≤ buf.length)) = true ↔
        s.TakesSetup .ep0Out buf := by
      simp [Sys.TakesSetup]
    have hnum : (EpId.ep0Out.num.val != 0) = false := rfl
    rw [if_pos h0, run_ctrl0Read h hep]
    simp only [hsetup, Sys.readRet, Sys.Readable, hnum, Bool.false_and, Bool.or_false]
    by_cases hset : s.TakesSetup .ep0Out buf
    · simp only [if_pos hset]
    · simp only [if_neg hset]
      cases herr : (s.view .ep0Out ep).errored <;> cases hp : (s.view .ep0Out ep).primed <;>
        simp [EpId.ep0Out]
  · -- another endpoint
    rename_i h0
    subst htarget
    rw [EpId.address_index] at h0
    have hset : ¬ s.TakesSetup e buf := by
      rintro ⟨rfl, -⟩
      exact h0 rfl
    have hnum : (e.num.val != 0) = true := by simpa using h0
    rw [EpId.address_index, if_neg h0, run_epRead h hep, if_neg hset, Sys.readRet, if_neg hset,
      hnum, Bool.true_and]
    by_cases hr : s.Readable e ep
    · obtain ⟨herr, hp, hs⟩ := id hr
      rw [if_pos hr, herr, hp, hs h0]
      rfl
    · rw [if_neg hr]
      cases herr : (s.view e ep).errored with
      | true => rfl
      | false =>
        have hblock : ((s.view e ep).primed || !(s.view e ep).signalled) = true := by
          by_contra hb
          rw [Bool.not_eq_true, Bool.or_eq_false_iff, Bool.not_eq_false_eq_eq_true] at hb
          exact hr ⟨herr, hb.1, fun _ => hb.2⟩
        rw [hblock]
        rfl

theorem run_busRead_none {addr : EndpointAddress} (h : s.WF) (haddr : s.lookup addr = none)
    (buf : List Byte) :
    run (BusAdapter.read addr buf) s = ⟨.ok (.error .InvalidEndpoint), s, []⟩ := by
  rw [BusAdapter.read, run_bind, run_isAllocated h, Out.andThen_ok, haddr]
  rfl

/-- Reading the control endpoint needs its OUT half. -/
theorem run_busRead_panic {addr : EndpointAddress} (h : s.WF) (halloc : (s.lookup addr).isSome)
    (h0 : addr.index = 0) (hnone : s.ep .ep0Out = none) (buf : List Byte) :
    run (BusAdapter.read addr buf) s = ⟨.fail .panic, s, []⟩ := by
  have haddr : ctrlEp0Out = EpId.ep0Out.address := rfl
  rw [BusAdapter.read, run_bind, run_isAllocated h, Out.andThen_ok, halloc, Bool.not_true,
    if_neg Bool.false_ne_true, if_pos h0, Driver.ctrl0Read, run_bind, run_endpoint h,
    Out.andThen_ok, haddr, Sys.lookup_address, hnone]
  rfl

/-- Which endpoint a read of an allocated address is about. -/
theorem Sys.exists_readsFrom {addr : EndpointAddress} (halloc : (s.lookup addr).isSome) :
    ∃ e, s.ReadsFrom addr e ∧ (addr.index = 0 → e = .ep0Out) ∧
      ((s.ep e).isSome ∨ addr.index = 0 ∧ s.ep .ep0Out = none) := by
  obtain ⟨ep, hep⟩ := Option.isSome_iff_exists.mp halloc
  by_cases h0 : addr.index = 0
  · refine ⟨.ep0Out, ⟨halloc, by rw [if_pos h0]⟩, fun _ => rfl, ?_⟩
    cases ho : s.ep .ep0Out with
    | none => exact Or.inr ⟨h0, rfl⟩
    | some _ => exact Or.inl rfl
  · obtain ⟨e, rfl, he⟩ := lookup_eq_some hep
    exact ⟨e, ⟨halloc, by rw [if_neg h0]⟩, fun h => absurd h h0, Or.inl (by rw [he]; rfl)⟩

theorem read_ret {addr : EndpointAddress} {e : EpId} {ep : Endpoint} {buf : List Byte}
    {r : Except UsbError (Nat × List Byte)} (h : s.WF) (haddr : s.ReadsFrom addr e)
    (hep : s.ep e = some ep) (hrun : run (BusAdapter.read addr buf) s = ⟨.ok r, s', o⟩) :
    r = s.readRet e ep buf := by
  have hres := congrArg Out.res hrun
  rw [run_busRead h haddr hep] at hres
  split at hres
  · split at hres <;> exact (Res.ok.inj hres).symm
  · split at hres <;> exact (Res.ok.inj hres).symm

/-- Only one endpoint is read from. -/
theorem Sys.ReadsFrom.unique {addr : EndpointAddress} {e f : EpId} (he : s.ReadsFrom addr e)
    (hf : s.ReadsFrom addr f) : f = e := by
  have h1 := hf.2
  have h2 := he.2
  by_cases h0 : addr.index = 0
  · rw [if_pos h0] at h1 h2
    rw [h1, h2]
  · rw [if_neg h0] at h1 h2
    exact EpId.address_inj.mp (h1.symm.trans h2)

/-- A read does nothing, takes the packet of the latch, or arms the endpoint again. -/
theorem read_leaves {addr : EndpointAddress} {buf : List Byte} (h : s.WF)
    (hrun : run (Call.read addr buf).prog s = ⟨.ok r, s', o⟩) :
    (s.lookup addr = none ∧ s' = s ∧ o = []) ∨
      ∃ e ep, s.ReadsFrom addr e ∧ s.ep e = some ep ∧
        ((s.TakesSetup e buf ∧
            (s.primed e = true ∧ s' = s.takeSetup ∧ o = s.setupObs ∨
              s.primed e = false ∧ o = s.setupObs ++ s.armObs e ∧
                s' = (s.takeSetup.lower .ENDPTNAK e.mask).arm e ep.buffer.ptr ep.packetLen)) ∨
          (¬ s.TakesSetup e buf ∧
            (s.Readable e ep ∧ s' = s.rearm e ep ep.packetLen ∧ o = s.armObs e ∨
              ¬ s.Readable e ep ∧ s' = s ∧ o = []))) := by
  obtain ⟨_, hrun, -⟩ := run_map_ok hrun
  cases halloc : s.lookup addr with
  | none =>
    rw [run_busRead_none h halloc] at hrun
    obtain ⟨-, rfl, rfl⟩ := Out.mk.inj hrun
    exact Or.inl ⟨rfl, rfl, rfl⟩
  | some _ =>
    have hsome : (s.lookup addr).isSome := by rw [halloc]; rfl
    obtain ⟨e, he, -, hep | ⟨h0, hnone⟩⟩ := Sys.exists_readsFrom hsome
    · obtain ⟨ep, hep⟩ := Option.isSome_iff_exists.mp hep
      refine Or.inr ⟨e, ep, he, hep, ?_⟩
      rw [run_busRead h he hep] at hrun
      split at hrun <;> rename_i hset
      · refine Or.inl ⟨hset, ?_⟩
        split at hrun <;> rename_i hp <;> obtain ⟨-, rfl, rfl⟩ := Out.mk.inj hrun
        · exact Or.inl ⟨hp, rfl, rfl⟩
        · exact Or.inr ⟨Bool.eq_false_of_not_eq_true hp, rfl, rfl⟩
      · refine Or.inr ⟨hset, ?_⟩
        split at hrun <;> rename_i hr <;> obtain ⟨-, rfl, rfl⟩ := Out.mk.inj hrun
        · exact Or.inl ⟨hr, rfl, rfl⟩
        · exact Or.inr ⟨hr, rfl, rfl⟩
    · -- without the OUT half of the control endpoint the call panics
      rw [run_busRead_panic h hsome h0 hnone] at hrun
      simp at hrun

theorem read_effect {addr : EndpointAddress} {buf : List Byte} (h : s.WF)
    (hrun : run (Call.read addr buf).prog s = ⟨.ok r, s', o⟩) :
    Effect s (s.callActs (.read addr buf)) s' o := by
  obtain ⟨halloc, rfl, rfl⟩ | ⟨e, ep, he, hep, hcases⟩ := read_leaves h hrun
  · refine (Effect.refl h).congr (callActs_none fun f fp _ => ?_)
    rw [Call.acts, if_neg fun hf => by rw [Sys.ReadsFrom, halloc] at hf; simp at hf]
  · -- the call is about `e` alone
    have hacts := callActs_only hep (c := .read addr buf) fun f fp hf => by
      rw [Call.acts, if_neg fun hr => hf (he.unique hr)]
    rw [Call.acts, if_pos he] at hacts
    have htake := takeSetup_effect h
    obtain ⟨hset, ⟨hp, rfl, rfl⟩ | ⟨hp, rfl, rfl⟩⟩ | ⟨hset, ⟨hr, rfl, rfl⟩ | ⟨hr, rfl, rfl⟩⟩ :=
      hcases
    · rw [if_pos hset, if_pos hp] at hacts
      exact htake.congr fun f => (only_nil e f).symm.trans (hacts f)
    · rw [if_pos hset, if_neg (Bool.eq_false_iff.mp hp)] at hacts
      have hnak := Effect.lower htake.wf (r := .ENDPTNAK) e.mask (by simp)
      have harm := Effect.arm hnak.wf hep (Nat.le_refl ep.packetLen)
      have hobs : (s.takeSetup.lower .ENDPTNAK e.mask).armObs e = s.armObs e := rfl
      rw [hobs] at harm
      exact (htake.trans (hnak.trans harm)).congr hacts
    · rw [if_neg hset, if_pos hr] at hacts
      exact (rearm_effect h hep (Nat.le_refl _)).congr hacts
    · rw [if_neg hset, if_neg hr] at hacts
      exact (Effect.refl h).congr fun f => (only_nil e f).symm.trans (hacts f)

/-! ### Writes -/

theorem run_busWrite_none {addr : EndpointAddress} (h : s.WF) (haddr : s.lookup addr = none)
    (buf : List Byte) :
    run (BusAdapter.write addr buf) s = ⟨.ok (.error .InvalidEndpoint), s, []⟩ := by
  rw [BusAdapter.write, run_bind, run_isAllocated h, Out.andThen_ok, haddr]
  rfl

/-- A write to an allocated endpoint other than the control endpoint. -/
theorem run_busWrite {e : EpId} {ep : Endpoint} (h : s.WF) (h0 : e.num.val ≠ 0)
    (hep : s.ep e = some ep) (buf : List Byte) :
    run (BusAdapter.write e.address buf) s =
      if s.Writable e then ⟨.ok (s.writeRet e ep buf), s.send e ep buf, s.armObs e⟩
      else ⟨.ok (s.writeRet e ep buf), s, []⟩ := by
  rw [BusAdapter.write, run_bind, run_isAllocated h, Out.andThen_ok, Sys.lookup_address, hep,
    Option.isSome_some, Bool.not_true, if_neg Bool.false_ne_true, EpId.address_index, if_neg h0,
    run_epWrite h hep, Sys.writeRet]
  by_cases hw : s.Writable e
  · have herr : (s.view e ep).errored = false := hw.1
    have hp : (s.view e ep).primed = false := hw.2
    rw [if_pos hw, herr, hp]
    rfl
  · rw [if_neg hw]
    cases herr : (s.view e ep).errored with
    | true => rfl
    | false =>
      have hp : (s.view e ep).primed = true := by
        by_contra hp
        exact hw ⟨herr, Bool.eq_false_of_not_eq_true hp⟩
      rw [hp]
      rfl

/-- A write to the control endpoint that is refused. -/
theorem run_busWrite_refused {addr : EndpointAddress} {ep : Endpoint} (h : s.WF)
    (halloc : (s.lookup addr).isSome) (h0 : addr.index = 0) (hep : s.ep .ep0In = some ep)
    (hw : ¬ s.Writable .ep0In) (buf : List Byte) :
    run (BusAdapter.write addr buf) s = ⟨.ok (s.writeRet .ep0In ep buf), s, []⟩ := by
  have hat := (h.epOk _ ep hep).inPlace
  have hin : ctrlEp0In = EpId.ep0In.address := rfl
  rw [BusAdapter.write, run_bind, run_isAllocated h, Out.andThen_ok, halloc, Bool.not_true,
    if_neg Bool.false_ne_true, if_pos h0, Driver.ctrl0Write, run_bind, run_endpoint h,
    Out.andThen_ok, hin, Sys.lookup_address, hep, run_bind, run_unwrap_some, Out.andThen_ok,
    run_bind, run_checkErrors hat, Out.andThen_ok, Sys.writeRet]
  cases herr : (s.td EpId.ep0In.slot).errored with
  | true =>
    have herrv : (s.view .ep0In ep).errored = true := herr
    rw [herrv]
    rfl
  | false =>
    have herrv : (s.view .ep0In ep).errored = false := herr
    have hp : s.primed .ep0In = true := by
      by_contra hp
      exact hw ⟨herr, by simpa using hp⟩
    have hpv : (s.view .ep0In ep).primed = true := hp
    simp only [Bool.false_eq_true, if_false, herrv, hpv, if_true]
    rw [run_bind, run_isPrimed hat, Out.andThen_ok, hp, if_pos rfl, run_pure]

/-- A write to the control endpoint that is accepted. -/
theorem run_busWrite_zero {addr : EndpointAddress} {ep epo : Endpoint} (h : s.WF)
    (halloc : (s.lookup addr).isSome) (h0 : addr.index = 0) (hep : s.ep .ep0In = some ep)
    (hepo : s.ep .ep0Out = some epo) (hw : s.Writable .ep0In) (buf : List Byte) :
    run (BusAdapter.write addr buf) s =
      if s.primed .ep0Out then
        ⟨.ok (s.writeRet .ep0In ep buf), s.send .ep0In ep buf, s.armObs .ep0In⟩
      else
        ⟨.ok (s.writeRet .ep0In ep buf), (s.send .ep0In ep buf).rearm .ep0Out epo 0,
          s.armObs .ep0In ++ (s.send .ep0In ep buf).armObs .ep0Out⟩ := by
  have herr : (s.view .ep0In ep).errored = false := hw.1
  have hp : (s.view .ep0In ep).primed = false := hw.2
  rw [BusAdapter.write, run_bind, run_isAllocated h, Out.andThen_ok, halloc, Bool.not_true,
    if_neg Bool.false_ne_true, if_pos h0, run_ctrl0Write h hep hepo, Sys.writeRet, herr, hp]
  rfl

/-- Writing to the control endpoint needs its IN half, and its OUT half unless
    the write is refused. -/
theorem run_busWrite_fails {addr : EndpointAddress} (h : s.WF) (halloc : (s.lookup addr).isSome)
    (h0 : addr.index = 0)
    (hnone : s.ep .ep0In = none ∨ s.ep .ep0Out = none ∧ s.Writable .ep0In) (buf : List Byte) :
    (run (BusAdapter.write addr buf) s).res = .fail .panic := by
  have hin : ctrlEp0In = EpId.ep0In.address := rfl
  have hout : ctrlEp0Out = EpId.ep0Out.address := rfl
  rw [BusAdapter.write, run_bind, run_isAllocated h, Out.andThen_ok, halloc, Bool.not_true,
    if_neg Bool.false_ne_true, if_pos h0, Driver.ctrl0Write, run_bind, run_endpoint h,
    Out.andThen_ok, hin, Sys.lookup_address]
  cases hep : s.ep .ep0In with
  | none => rfl
  | some ep =>
    have hat := (h.epOk _ ep hep).inPlace
    rcases hnone with hnone | ⟨hnone, hw⟩
    · rw [hnone] at hep
      simp at hep
    · have hsend := send_effect h hep buf
      have hnone' : (s.send .ep0In ep buf).ep .ep0Out = none := by
        rw [hsend.frame.ep, hnone]
      rw [run_bind, run_unwrap_some, Out.andThen_ok, run_bind, run_checkErrors hat,
        Out.andThen_ok, hw.1]
      simp only [Bool.false_eq_true, if_false]
      rw [run_bind, run_isPrimed hat, Out.andThen_ok, hw.2, if_neg Bool.false_ne_true,
        run_sendThen h hep buf, Out.andThen_ok_obs, run_bind, run_endpoint hsend.wf,
        Out.andThen_ok, hout, Sys.lookup_address, hnone']
      rfl

theorem write_ret {addr : EndpointAddress} {e : EpId} {ep : Endpoint} {buf : List Byte}
    {r : Except UsbError Nat} (h : s.WF) (haddr : s.WritesTo addr e) (hep : s.ep e = some ep)
    (hrun : run (BusAdapter.write addr buf) s = ⟨.ok r, s', o⟩) : r = s.writeRet e ep buf := by
  obtain ⟨halloc, htarget⟩ := haddr
  split at htarget
  · rename_i h0
    subst htarget
    by_cases hw : s.Writable .ep0In
    · cases hepo : s.ep .ep0Out with
      | none =>
        have := run_busWrite_fails h halloc h0 (Or.inr ⟨hepo, hw⟩) buf
        rw [hrun] at this
        simp at this
      | some epo =>
        rw [run_busWrite_zero h halloc h0 hep hepo hw] at hrun
        split at hrun <;> exact (Res.ok.inj (Out.mk.inj hrun).1).symm
    · rw [run_busWrite_refused h halloc h0 hep hw] at hrun
      exact (Res.ok.inj (Out.mk.inj hrun).1).symm
  · rename_i h0
    subst htarget
    rw [EpId.address_index] at h0
    rw [run_busWrite h h0 hep] at hrun
    split at hrun <;> exact (Res.ok.inj (Out.mk.inj hrun).1).symm

/-- A write that no endpoint takes. -/
theorem write_refused {addr : EndpointAddress} (h : s.WF) (buf : List Byte)
    (hne : ∀ f fp, s.ep f = some fp → f.num.val ≠ 0 → ¬ (addr = f.address ∧ s.Writable f))
    (hz : ¬ (addr.index = 0 ∧ (s.lookup addr).isSome ∧ s.Writable .ep0In)) :
    Effect s (s.callActs (.write addr buf)) s [] := by
  refine (Effect.refl h).congr (callActs_none fun f fp hf => ?_)
  by_cases h0 : f.num.val ≠ 0
  · rw [Call.acts, if_pos h0, if_neg (hne f fp hf h0)]
  · rw [Call.acts, if_neg h0, if_neg hz]

/-- What an accepted write to the control endpoint does: to the IN half, and to
    the OUT half if that is idle. -/
theorem callActs_writeZero {addr : EndpointAddress} {ep epo : Endpoint} (buf : List Byte)
    (hacc : addr.index = 0 ∧ (s.lookup addr).isSome ∧ s.Writable .ep0In)
    (hep : s.ep .ep0In = some ep) (hepo : s.ep .ep0Out = some epo) (f : EpId) :
    only .ep0In [.fill (buf.take ep.packetLen), .schedule (min ep.packetLen buf.length)] f ++
      only .ep0Out (if s.primed .ep0Out then [] else [.ack, .schedule 0]) f =
      s.callActs (.write addr buf) f := by
  rcases EpId.num_cases f with hf0 | rfl | rfl
  · rw [only_of_ne (by rintro rfl; exact hf0 rfl), only_of_ne (by rintro rfl; exact hf0 rfl)]
    refine callActs_none_at fun fp => ?_
    rw [Call.acts, if_pos hf0, if_neg]
    rintro ⟨rfl, -⟩
    exact hf0 (by rw [← EpId.address_index, hacc.1])
  · rw [only_of_ne (by decide), only_self, List.nil_append, Sys.callActs, hepo]
    have hnum : ¬ EpId.ep0Out.num.val ≠ 0 := by decide
    have hd : ¬ EpId.ep0Out.dir = .In := by decide
    show _ = Call.acts s .ep0Out epo _
    rw [Call.acts, if_neg hnum, if_pos hacc, if_neg hd]
  · rw [only_self, only_of_ne (by decide), List.append_nil, Sys.callActs, hep]
    show _ = Call.acts s .ep0In ep _
    rw [Call.acts, if_neg (by decide), if_pos hacc]
    exact (if_pos rfl).symm

theorem writeAccepted_effect {addr : EndpointAddress} {ep epo : Endpoint} {buf : List Byte}
    {r : Except UsbError Nat} (h : s.WF)
    (hacc : addr.index = 0 ∧ (s.lookup addr).isSome ∧ s.Writable .ep0In)
    (hep : s.ep .ep0In = some ep) (hepo : s.ep .ep0Out = some epo)
    (hrun : run (BusAdapter.write addr buf) s = ⟨.ok r, s', o⟩) :
    Effect s (s.callActs (.write addr buf)) s' o := by
  have hacts := callActs_writeZero buf hacc hep hepo
  have hsend := send_effect h hep buf
  rw [run_busWrite_zero h hacc.2.1 hacc.1 hep hepo hacc.2.2] at hrun
  split at hrun
  · rename_i hp
    obtain ⟨-, rfl, rfl⟩ := Out.mk.inj hrun
    refine hsend.congr fun f => ?_
    rw [← hacts, if_pos hp, only_nil, List.append_nil]
  · rename_i hp
    obtain ⟨-, rfl, rfl⟩ := Out.mk.inj hrun
    have hepo' : (s.send .ep0In ep buf).ep .ep0Out = some epo := by
      rw [hsend.frame.ep, hepo]
    refine (hsend.trans (rearm_effect hsend.wf hepo' (Nat.zero_le _))).congr fun f => ?_
    rw [← hacts, if_neg hp]

/-- A write to the control endpoint. -/
theorem writeZero_effect {addr : EndpointAddress} {buf : List Byte} {r : Except UsbError Nat}
    (h : s.WF) (hsome : (s.lookup addr).isSome) (h0 : addr.index = 0)
    (hrun : run (BusAdapter.write addr buf) s = ⟨.ok r, s', o⟩) :
    Effect s (s.callActs (.write addr buf)) s' o := by
  have hret : ∀ {x : Res Fault (Except UsbError Nat)},
      (run (BusAdapter.write addr buf) s).res = x → x ≠ .fail .panic := by
    rintro x rfl
    rw [hrun]
    simp
  cases hep : s.ep .ep0In with
  | none => exact absurd rfl (hret (run_busWrite_fails h hsome h0 (Or.inl hep) buf))
  | some ep =>
    by_cases hw : s.Writable .ep0In
    · cases hepo : s.ep .ep0Out with
      | none => exact absurd rfl (hret (run_busWrite_fails h hsome h0 (Or.inr ⟨hepo, hw⟩) buf))
      | some epo => exact writeAccepted_effect h ⟨h0, hsome, hw⟩ hep hepo hrun
    · rw [run_busWrite_refused h hsome h0 hep hw] at hrun
      obtain ⟨-, rfl, rfl⟩ := Out.mk.inj hrun
      refine write_refused h buf (fun f _ _ hf ha => ?_) fun ha => hw ha.2.2
      rw [ha.1, EpId.address_index] at h0
      exact hf h0

/-- A write to another endpoint. -/
theorem writeOther_effect {e : EpId} {ep : Endpoint} {buf : List Byte} {r : Except UsbError Nat}
    (h : s.WF) (h0 : e.num.val ≠ 0) (hep : s.ep e = some ep)
    (hrun : run (BusAdapter.write e.address buf) s = ⟨.ok r, s', o⟩) :
    Effect s (s.callActs (.write e.address buf)) s' o := by
  rw [run_busWrite h h0 hep] at hrun
  split at hrun
  · rename_i hw
    obtain ⟨-, rfl, rfl⟩ := Out.mk.inj hrun
    have hacts := callActs_only hep (c := .write e.address buf) fun f fp hf => by
      by_cases hf0 : f.num.val ≠ 0
      · rw [Call.acts, if_pos hf0, if_neg fun ha => hf (EpId.address_inj.mp ha.1).symm]
      · rw [Call.acts, if_neg hf0, EpId.address_index, if_neg fun ha => h0 ha.1]
    rw [Call.acts, if_pos h0, if_pos ⟨rfl, hw⟩] at hacts
    exact (send_effect h hep buf).congr hacts
  · rename_i hw
    obtain ⟨-, rfl, rfl⟩ := Out.mk.inj hrun
    refine write_refused h buf (fun f _ _ _ ha => ?_) ?_
    · rw [EpId.address_inj.mp ha.1] at hw
      exact hw ha.2
    · rw [EpId.address_index]
      exact fun ha => h0 ha.1

theorem write_effect {addr : EndpointAddress} {buf : List Byte} {r : Except UsbError Nat}
    (h : s.WF) (hrun : run (BusAdapter.write addr buf) s = ⟨.ok r, s', o⟩) :
    Effect s (s.callActs (.write addr buf)) s' o := by
  cases halloc : s.lookup addr with
  | none =>
    rw [run_busWrite_none h halloc] at hrun
    obtain ⟨-, rfl, rfl⟩ := Out.mk.inj hrun
    refine write_refused h buf (fun f fp hf _ ha => ?_) (by rw [halloc]; simp)
    rw [ha.1, Sys.lookup_address, hf] at halloc
    simp at halloc
  | some ep =>
    by_cases h0 : addr.index = 0
    · exact writeZero_effect h (by rw [halloc]; rfl) h0 hrun
    · obtain ⟨e, rfl, hep⟩ := Sys.lookup_eq_some halloc
      rw [EpId.address_index] at h0
      exact writeOther_effect h h0 hep hrun

/-- A write does nothing or sends, and after a response arms the status stage. -/
theorem write_leaves {addr : EndpointAddress} {buf : List Byte} (h : s.WF)
    (hrun : run (Call.write addr buf).prog s = ⟨.ok r, s', o⟩) :
    (s' = s ∧ o = []) ∨
      (∃ e ep, s.ep e = some ep ∧ s' = s.send e ep buf ∧ o = s.armObs e) ∨
      ∃ ep epo, s.ep .ep0In = some ep ∧ s.ep .ep0Out = some epo ∧
        s' = (s.send .ep0In ep buf).rearm .ep0Out epo 0 ∧
        o = s.armObs .ep0In ++ (s.send .ep0In ep buf).armObs .ep0Out := by
  obtain ⟨_, hrun, -⟩ := run_map_ok hrun
  cases halloc : s.lookup addr with
  | none =>
    rw [run_busWrite_none h halloc] at hrun
    obtain ⟨-, rfl, rfl⟩ := Out.mk.inj hrun
    exact Or.inl ⟨rfl, rfl⟩
  | some _ =>
    have hsome : (s.lookup addr).isSome := by rw [halloc]; rfl
    by_cases h0 : addr.index = 0
    · cases hep : s.ep .ep0In with
      | none =>
        -- a call that panics did not return
        have := run_busWrite_fails h hsome h0 (Or.inl hep) buf
        rw [hrun] at this
        simp at this
      | some ep =>
        by_cases hw : s.Writable .ep0In
        · cases hepo : s.ep .ep0Out with
          | none =>
            -- neither does one that misses the OUT half
            have := run_busWrite_fails h hsome h0 (Or.inr ⟨hepo, hw⟩) buf
            rw [hrun] at this
            simp at this
          | some epo =>
            rw [run_busWrite_zero h hsome h0 hep hepo hw] at hrun
            split at hrun <;> obtain ⟨-, rfl, rfl⟩ := Out.mk.inj hrun
            · exact Or.inr (Or.inl ⟨_, ep, hep, rfl, rfl⟩)
            · exact Or.inr (Or.inr ⟨ep, epo, rfl, rfl, rfl, rfl⟩)
        · rw [run_busWrite_refused h hsome h0 hep hw] at hrun
          obtain ⟨-, rfl, rfl⟩ := Out.mk.inj hrun
          exact Or.inl ⟨rfl, rfl⟩
    · obtain ⟨e, rfl, hep⟩ := Sys.lookup_eq_some halloc
      rw [EpId.address_index] at h0
      rw [run_busWrite h h0 hep] at hrun
      split at hrun <;> obtain ⟨-, rfl, rfl⟩ := Out.mk.inj hrun
      · exact Or.inr (Or.inl ⟨e, _, hep, rfl, rfl⟩)
      · exact Or.inl ⟨rfl, rfl⟩

/-! ### Stalls and the rest -/

theorem run_setStalled_none {addr : EndpointAddress} (h : s.WF) (haddr : s.lookup addr = none)
    (stalled : Bool) : run (BusAdapter.setStalled addr stalled) s = ⟨.ok (), s, []⟩ := by
  rw [BusAdapter.setStalled, run_bind, run_isAllocated h, Out.andThen_ok, haddr]
  rfl

theorem run_busSetStalled {e : EpId} {ep : Endpoint} (h : s.WF) (hep : s.ep e = some ep)
    (stalled : Bool) :
    run (BusAdapter.setStalled e.address stalled) s =
      if stalled = false ∧ e.dir = .Out ∧ s.primed e = false then
        ⟨.ok (), (s.setStall e stalled).arm e ep.buffer.ptr ep.packetLen, s.armObs e⟩
      else ⟨.ok (), s.setStall e stalled, []⟩ := by
  rw [BusAdapter.setStalled, run_bind, run_isAllocated h, Out.andThen_ok, Sys.lookup_address, hep,
    Option.isSome_some, if_pos rfl, run_epStall h hep]

/-- An endpoint that is not allocated has no stall state to report. -/
theorem run_isStalled_none {addr : EndpointAddress} (h : s.WF) (haddr : s.lookup addr = none) :
    run (BusAdapter.isStalled addr) s = ⟨.fail .panic, s, []⟩ := by
  rw [BusAdapter.isStalled, Driver.isEpStalled, run_bind, run_endpoint h, Out.andThen_ok, haddr]
  rfl

theorem run_busIsStalled {e : EpId} {ep : Endpoint} (h : s.WF) (hep : s.ep e = some ep) :
    run (BusAdapter.isStalled e.address) s = ⟨.ok (s.stalled e), s, []⟩ :=
  run_isEpStalled h hep

theorem run_enableZlt (h : s.WF) (addr : EndpointAddress) :
    ∃ s', run (Driver.enableZlt addr) s = ⟨.ok (), s', []⟩ := by
  rw [Driver.enableZlt, run_bind, run_endpoint h, Out.andThen_ok]
  cases s.lookup addr with
  | none => exact ⟨s, rfl⟩
  | some ep => exact ⟨_, rfl⟩

/-- Attaching does not reset the controller. -/
theorem run_attach (h : s.WF) :
    run Driver.attach s = ⟨.ok (), s.setReg .USBCMD (USBCMD.RS.set 1 (s.reg .USBCMD)), []⟩ := by
  have hbit : (USBCMD.RS.set 1 (s.reg .USBCMD)).getLsbD 1 = false := by
    rw [Field.getLsbD_set _ _ _ (by decide), if_neg (by decide), h.rst]
  rw [Driver.attach, run_modifyReg _ _ _ (by simp), setFields, List.foldl_cons,
    List.foldl_nil, Sys.writeReg_usbcmd s hbit]

/-! ### What a call leaves -/

theorem poll_leaves (hrun : run Call.poll.prog s = ⟨.ok r, s', o⟩) :
    o = [] ∧
      ((s.resetReceived = true ∧ r = .poll .Reset ∧ s' = s.lower .USBSTS (USBSTS.URI.put 1)) ∨
        (s.resetReceived = false ∧ s.usbInterrupt = true ∧ r = .poll s.pollData ∧
          s' = s.polled) ∨
        (s.resetReceived = false ∧ s.usbInterrupt = false ∧ r = .poll .None ∧ s' = s)) := by
  obtain ⟨a, hpoll, rfl⟩ := run_map_ok hrun
  rw [run_poll] at hpoll
  split at hpoll
  · rename_i hr
    obtain ⟨ha, rfl, rfl⟩ := Out.mk.inj hpoll
    exact ⟨rfl, Or.inl ⟨hr, congrArg Ret.poll (Res.ok.inj ha).symm, rfl⟩⟩
  · rename_i hr
    have hr := Bool.eq_false_of_not_eq_true hr
    split at hpoll
    · rename_i hu
      obtain ⟨ha, rfl, rfl⟩ := Out.mk.inj hpoll
      exact ⟨rfl, Or.inr (Or.inl ⟨hr, hu, congrArg Ret.poll (Res.ok.inj ha).symm, rfl⟩)⟩
    · rename_i hu
      obtain ⟨ha, rfl, rfl⟩ := Out.mk.inj hpoll
      exact ⟨rfl, Or.inr (Or.inr ⟨hr, Bool.eq_false_of_not_eq_true hu,
        congrArg Ret.poll (Res.ok.inj ha).symm, rfl⟩)⟩

theorem setStalled_leaves {addr : EndpointAddress} {stalled : Bool} (h : s.WF)
    (hrun : run (Call.setStalled addr stalled).prog s = ⟨.ok r, s', o⟩) :
    (s.lookup addr = none ∧ s' = s ∧ o = []) ∨
      ∃ e ep, addr = e.address ∧ s.ep e = some ep ∧
        ((stalled = false ∧ e.dir = .Out ∧ s.primed e = false) ∧
            s' = (s.setStall e stalled).arm e ep.buffer.ptr ep.packetLen ∧ o = s.armObs e ∨
          ¬ (stalled = false ∧ e.dir = .Out ∧ s.primed e = false) ∧
            s' = s.setStall e stalled ∧ o = []) := by
  obtain ⟨_, hrun, -⟩ := run_map_ok hrun
  cases halloc : s.lookup addr with
  | none =>
    rw [run_setStalled_none h halloc] at hrun
    obtain ⟨-, rfl, rfl⟩ := Out.mk.inj hrun
    exact Or.inl ⟨rfl, rfl, rfl⟩
  | some ep =>
    obtain ⟨e, rfl, hep⟩ := Sys.lookup_eq_some halloc
    refine Or.inr ⟨e, ep, rfl, hep, ?_⟩
    rw [run_busSetStalled h hep] at hrun
    split at hrun <;> rename_i hc <;> obtain ⟨-, rfl, rfl⟩ := Out.mk.inj hrun
    · exact Or.inl ⟨hc, rfl, rfl⟩
    · exact Or.inr ⟨hc, rfl, rfl⟩

theorem isStalled_leaves {addr : EndpointAddress} (h : s.WF)
    (hrun : run (Call.isStalled addr).prog s = ⟨.ok r, s', o⟩) :
    (∃ e, addr = e.address ∧ r = .bool (s.stalled e)) ∧ s' = s ∧ o = [] := by
  obtain ⟨a, hret, rfl⟩ := run_map_ok hrun
  cases halloc : s.lookup addr with
  | none =>
    have := (run_isStalled_none h halloc).symm.trans hret
    simp at this
  | some ep =>
    obtain ⟨e, rfl, hep⟩ := Sys.lookup_eq_some halloc
    rw [run_busIsStalled h hep] at hret
    obtain ⟨ha, rfl, rfl⟩ := Out.mk.inj hret
    exact ⟨⟨e, rfl, congrArg Ret.bool (Res.ok.inj ha).symm⟩, rfl, rfl⟩

theorem reset_leaves {debugAssertions : Bool} (h : s.WF)
    (hrun : run (Call.reset debugAssertions).prog s = ⟨.ok r, s', o⟩) :
    s' = s.reset ∧ o = [] := by
  obtain ⟨_, hrun, -⟩ := run_map_ok hrun
  rw [run_busReset h] at hrun
  split at hrun
  · simp at hrun
  · obtain ⟨-, rfl, rfl⟩ := Out.mk.inj hrun
    exact ⟨rfl, rfl⟩

theorem configure_leaves (h : s.WF) (hrun : run Call.configure.prog s = ⟨.ok r, s', o⟩) :
    s' = s.configured ∧ o = s.configuredObs := by
  obtain ⟨_, hrun, -⟩ := run_map_ok hrun
  rw [run_onConfigured h] at hrun
  obtain ⟨-, rfl, rfl⟩ := Out.mk.inj hrun
  exact ⟨rfl, rfl⟩

theorem setDeviceAddress_leaves {addr : BitVec 8}
    (hrun : run (Call.setDeviceAddress addr).prog s = ⟨.ok r, s', o⟩) :
    s' = s.setReg .DEVICEADDR
        (DEVICEADDR.USBADR.put (addr.setWidth 32) ||| DEVICEADDR.USBADRA.put 1) ∧
      o = [] := by
  obtain ⟨_, hrun, -⟩ := run_map_ok hrun
  rw [Driver.setAddress, run_writeReg _ _ _ (by simp)] at hrun
  obtain ⟨-, rfl, rfl⟩ := Out.mk.inj hrun
  exact ⟨rfl, rfl⟩

theorem enable_leaves (h : s.WF) (hrun : run Call.enable.prog s = ⟨.ok r, s', o⟩) :
    s' = s.setReg .USBCMD (USBCMD.RS.set 1 (s.reg .USBCMD)) ∧ o = [] := by
  obtain ⟨_, hrun, -⟩ := run_map_ok hrun
  rw [run_attach h] at hrun
  obtain ⟨-, rfl, rfl⟩ := Out.mk.inj hrun
  exact ⟨rfl, rfl⟩

theorem setInterrupts_leaves {interrupts : Bool}
    (hrun : run (Call.setInterrupts interrupts).prog s = ⟨.ok r, s', o⟩) :
    s' = s.setReg .USBINTR (setFields [(USBINTR.UE, if interrupts then 1 else 0),
        (USBINTR.URE, if interrupts then 1 else 0)] (s.reg .USBINTR)) ∧
      o = [] := by
  obtain ⟨_, hrun, -⟩ := run_map_ok hrun
  rw [Driver.setInterrupts] at hrun
  split at hrun <;> rename_i hi <;> rw [run_modifyReg _ _ _ (by simp)] at hrun <;>
    obtain ⟨-, rfl, rfl⟩ := Out.mk.inj hrun
  · rw [if_pos hi]
    exact ⟨rfl, rfl⟩
  · rw [if_neg hi]
    exact ⟨rfl, rfl⟩

theorem enableZlt_leaves {addr : EndpointAddress} (h : s.WF)
    (hrun : run (Call.enableZlt addr).prog s = ⟨.ok r, s', o⟩) :
    o = [] ∧
      (s.lookup addr = none ∧ s' = s ∨
        ∃ e ep, addr = e.address ∧ s.ep e = some ep ∧
          s' = { s with
            qh := Function.update s.qh e.slot
              { s.qh e.slot with
                capabilities := CAPABILITIES.ZLT.set 0 (s.qh e.slot).capabilities } }) := by
  obtain ⟨_, hrun, -⟩ := run_map_ok hrun
  rw [Driver.enableZlt, run_bind, run_endpoint h, Out.andThen_ok] at hrun
  cases halloc : s.lookup addr with
  | none =>
    rw [halloc] at hrun
    obtain ⟨-, rfl, rfl⟩ := Out.mk.inj hrun
    exact ⟨rfl, Or.inl ⟨rfl, rfl⟩⟩
  | some ep =>
    obtain ⟨e, rfl, hep⟩ := Sys.lookup_eq_some halloc
    rw [halloc] at hrun
    obtain ⟨-, rfl, rfl⟩ := Out.mk.inj hrun
    refine ⟨rfl, Or.inr ⟨e, ep, rfl, hep, ?_⟩⟩
    rw [← (h.epOk e ep hep).inPlace.qh]
    rfl

/-! ### Each call -/

/-- A call that no endpoint notices. -/
theorem callActs_quiet {c : Call} (hc : ∀ e ep, c.acts s e ep = []) (e : EpId) :
    [] = s.callActs c e := callActs_none (fun e ep _ => hc e ep) e

theorem poll_effect (h : s.WF) (hrun : run Call.poll.prog s = ⟨.ok r, s', o⟩) :
    Effect s (s.callActs .poll) s' o := by
  obtain ⟨rfl, ⟨hr, -, rfl⟩ | ⟨hr, hu, -, rfl⟩ | ⟨-, hu, -, rfl⟩⟩ := poll_leaves hrun
  · refine (Effect.lower h (USBSTS.URI.put 1) (by simp)).congr (callActs_quiet fun e ep => ?_)
    rw [Call.acts, hr, Bool.true_or, if_pos rfl]
  · refine (polled_effect h).congr_allocated fun e ep hep => ?_
    rw [Sys.callActs, hep]
    show _ = Call.acts s e ep .poll
    rw [Call.acts, hr, hu]
    rfl
  · refine (Effect.refl h).congr (callActs_quiet fun e ep => ?_)
    rw [Call.acts, hu, Bool.not_false, Bool.or_true, if_pos rfl]

theorem setStalled_effect {addr : EndpointAddress} {stalled : Bool} (h : s.WF)
    (hrun : run (Call.setStalled addr stalled).prog s = ⟨.ok r, s', o⟩) :
    Effect s (s.callActs (.setStalled addr stalled)) s' o := by
  obtain ⟨halloc, rfl, rfl⟩ | ⟨e, ep, rfl, hep, hcases⟩ := setStalled_leaves h hrun
  · refine (Effect.refl h).congr (callActs_none fun f fp hf => ?_)
    rw [Call.acts, if_neg]
    rintro ⟨rfl, -⟩
    rw [Sys.lookup_address, hf] at halloc
    simp at halloc
  · have hacts := callActs_only hep (c := .setStalled e.address stalled) fun f fp hf => by
      rw [Call.acts, if_neg fun ha => hf (EpId.address_inj.mp ha.1).symm]
    have hstall := setStall_effect h e stalled
    rw [Call.acts] at hacts
    obtain ⟨hc, rfl, rfl⟩ | ⟨hc, rfl, rfl⟩ := hcases
    · -- clearing the stall of an OUT endpoint that is not primed arms it
      rw [if_pos ⟨rfl, hc⟩] at hacts
      have hobs : (s.setStall e stalled).armObs e = s.armObs e := by
        rw [Sys.armObs, Sys.armObs, Sys.setStall, Sys.modifyCtrl, Sys.reg_setReg_of_ne]
        rcases e.ctrlReg_cases with hc | ⟨i, hc⟩ <;> rw [hc] <;> simp
      have harm := Effect.arm hstall.wf hep (Nat.le_refl ep.packetLen)
      rw [hobs] at harm
      exact (hstall.trans harm).congr hacts
    · rw [if_neg fun ha => hc ha.2] at hacts
      exact hstall.congr fun f => (only_nil e f).symm.trans (hacts f)

theorem configure_effect (h : s.WF) (hrun : run Call.configure.prog s = ⟨.ok r, s', o⟩) :
    Effect s (s.callActs .configure) s' o := by
  obtain ⟨rfl, rfl⟩ := configure_leaves h hrun
  refine (configured_effect h).congr fun e => ?_
  rw [Sys.configureActs, Sys.visitActs, Sys.callActs]
  cases s.ep e with
  | none => rfl
  | some ep =>
    show (if e.num.val = 0 then [] else _) = Call.acts s e ep .configure
    rw [Call.acts]
    by_cases h0 : e.num.val = 0
    · rw [if_pos h0, if_neg fun hc => hc.1 h0]
    · rw [if_neg h0]
      by_cases hd : e.dir = .Out
      · rw [if_pos hd, if_pos ⟨h0, hd⟩]
      · rw [if_neg hd, if_neg fun hc => hd hc.2]

theorem enable_effect (h : s.WF) (hrun : run Call.enable.prog s = ⟨.ok r, s', o⟩) :
    Effect s (s.callActs .enable) s' o := by
  have hbit : (USBCMD.RS.set 1 (s.reg .USBCMD)).getLsbD 1 = false := by
    rw [Field.getLsbD_set _ _ _ (by decide), if_neg (by decide), h.rst]
  obtain ⟨rfl, rfl⟩ := enable_leaves h hrun
  exact (Effect.setReg h (by simp) fun _ => hbit).congr (callActs_quiet fun _ _ => rfl)

theorem enableZlt_effect {addr : EndpointAddress} (h : s.WF)
    (hrun : run (Call.enableZlt addr).prog s = ⟨.ok r, s', o⟩) :
    Effect s (s.callActs (.enableZlt addr)) s' o := by
  obtain ⟨rfl, ⟨-, rfl⟩ | ⟨e, ep, -, -, rfl⟩⟩ := enableZlt_leaves h hrun
  · exact (Effect.refl h).congr (callActs_quiet fun _ _ => rfl)
  · refine (Effect.setCapabilities h e.slot ?_).congr (callActs_quiet fun _ _ => rfl)
    exact Field.get_set_of_disjoint _ _ _ _ (by decide)

end Effects

/-- The code of a call does to every endpoint what `Call.acts` says. -/
theorem Call.effect {s s' : Sys} {c : Call} {r : Ret} {o : List Obs} (h : s.WF)
    (hrun : run c.prog s = ⟨.ok r, s', o⟩) : Effect s (s.callActs c) s' o := by
  cases c with
  | poll => exact poll_effect h hrun
  | read addr buf => exact read_effect h hrun
  | write addr buf =>
    obtain ⟨_, hrun, -⟩ := run_map_ok hrun
    exact write_effect h hrun
  | setStalled addr stalled => exact setStalled_effect h hrun
  | isStalled addr =>
    obtain ⟨-, rfl, rfl⟩ := isStalled_leaves h hrun
    exact (Effect.refl h).congr (callActs_quiet fun _ _ => rfl)
  | reset debugAssertions =>
    obtain ⟨rfl, rfl⟩ := reset_leaves h hrun
    refine (reset_effect h).congr_allocated fun e ep hep => ?_
    rw [Sys.callActs, hep]
    rfl
  | configure => exact configure_effect h hrun
  | setDeviceAddress addr =>
    obtain ⟨rfl, rfl⟩ := setDeviceAddress_leaves hrun
    exact (Effect.setReg h (by simp) (by simp)).congr (callActs_quiet fun _ _ => rfl)
  | enable => exact enable_effect h hrun
  | enableZlt addr => exact enableZlt_effect h hrun
  | setInterrupts interrupts =>
    obtain ⟨rfl, rfl⟩ := setInterrupts_leaves hrun
    exact (Effect.setReg h (by simp) (by simp)).congr (callActs_quiet fun _ _ => rfl)

end ImxrtUsbd
