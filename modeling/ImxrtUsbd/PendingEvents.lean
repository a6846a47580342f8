/-
  ImxrtUsbd.PendingEvents

  Whether `poll` keeps reporting what was received and not yet read.

  `Packet` follows the last packet of an OUT endpoint along a run, `setupUnread`
  the last SETUP packet.  `Step.completed_cases` says what a step can do to the
  completion bit of an OUT endpoint.  `pending_reported_iff` is the result: the
  polls of a run report everything that is pending exactly when each of them
  finds the USB interrupt flag set, and finds no packet whose completion was
  acknowledged without a read.
-/
import ImxrtUsbd.Replay
import ImxrtUsbd.SetupLatch

namespace ImxrtUsbd

open Lib

/-! ## What is pending -/

/-- What became of the last packet received on an OUT endpoint. -/
inductive Packet where
  /-- A read returned it, or there was none. -/
  | read
  /-- It waits to be read. -/
  | waiting
  /-- Its completion was acknowledged before a read returned it. -/
  | dropped
  deriving DecidableEq

namespace Label

/-- A read returns data from the OUT endpoint. -/
def readsOut (e : EpId) (l : Label) : Bool :=
  match l with
  | .call (.read addr _) (.read (.ok _)) _ =>
    decide (if addr.index = 0 then e = .ep0Out else addr = e.address) && !l.tookSetup
  | _ => false

def isPoll : Label → Bool
  | .call .poll _ _ => true
  | _ => false

theorem isPoll_eq {l : Label} (h : l.isPoll = true) : ∃ r obs, l = .call .poll r obs := by
  unfold isPoll at h
  split at h
  · exact ⟨_, _, rfl⟩
  · simp at h

/-- The completion of the OUT endpoint is acknowledged without a read: by a
    response on the control endpoint that arms the status stage, or by a bus
    reset. -/
def drops (s : Sys) (e : EpId) : Label → Bool
  | .call (.write addr _) (.write (.ok _)) _ =>
    e == .ep0Out && addr.index == 0 && !s.primed .ep0Out
  | .call (.reset _) _ _ => true
  | _ => false

end Label

/-- Follow the last packet of the OUT endpoint over a step. -/
def Packet.next (e : EpId) (p : Packet) (s : Sys) (l : Label) : Packet :=
  if (l.received e.num).isSome then .waiting
  else if l.readsOut e then .read
  else if l.drops s e && p == .waiting then .dropped
  else p

/-- The last packet of the OUT endpoint. -/
def packet (e : EpId) (tr : Trace) : Packet := tr.foldl (fun p x => p.next e x.1 x.2) .read

theorem packet_snoc (e : EpId) (tr : Trace) (s : Sys) (l : Label) :
    packet e (tr ++ [(s, l)]) = (packet e tr).next e s l := by
  rw [packet, List.foldl_append]
  rfl

/-- A SETUP packet arrived and no read has taken it. -/
def setupUnread (tr : Trace) : Bool :=
  tr.foldl (fun b x => x.2.setupArrives || (b && !x.2.tookSetup)) false

theorem setupUnread_snoc (tr : Trace) (s : Sys) (l : Label) :
    setupUnread (tr ++ [(s, l)]) = (l.setupArrives || (setupUnread tr && !l.tookSetup)) := by
  rw [setupUnread, List.foldl_append]
  rfl

/-- The OUT endpoint is allocated and its last packet has not been read. -/
def Sys.Unread (s : Sys) (tr : Trace) (e : EpId) : Prop :=
  e.dir = .Out ∧ (s.ep e).isSome = true ∧ packet e tr ≠ .read

instance (s : Sys) (tr : Trace) (e : EpId) : Decidable (s.Unread tr e) :=
  inferInstanceAs (Decidable (_ ∧ _ ∧ _))

namespace PollResult

/-- Bit `n` of `ep_out`. -/
def outBit (n : Fin 8) : PollResult → Bool
  | .Data epOut _ _ => epOut.getLsbD n.val
  | .None | .Reset => false

/-- Bit 0 of `ep_setup`. -/
def setupBit : PollResult → Bool
  | .Data _ _ epSetup => epSetup.getLsbD 0
  | .None | .Reset => false

end PollResult

/-- A poll that does not return `Reset` reports everything that has not been read. -/
def PendingReported (tr : Trace) (s : Sys) (l : Label) : Prop :=
  ∀ r obs, l = .call .poll (.poll r) obs → r ≠ .Reset →
    (∀ e, s.Unread tr e → r.outBit e.num = true) ∧ (setupUnread tr = true → r.setupBit = true)

/-- Something has not been read. -/
def Sys.AnyUnread (s : Sys) (tr : Trace) : Prop :=
  (∃ e, s.Unread tr e) ∨ setupUnread tr = true

/-- A poll, other than for a bus reset, that finds the interrupt flag set if
    something has not been read, and finds no packet dropped. -/
def FindsPending (tr : Trace) (s : Sys) (l : Label) : Prop :=
  l.isPoll = true → s.resetReceived = false →
    (s.AnyUnread tr → s.usbInterrupt = true) ∧ ∀ e, s.Unread tr e → packet e tr ≠ .dropped

/-! ## The latch -/

section Latch

variable {s s' : Sys} {l : Label} {c : Call} {r : Ret} {obs : List Obs}

theorem Sys.ReadsFrom.index_zero {addr : EndpointAddress} (h : s.ReadsFrom addr .ep0Out) :
    addr.index = 0 := by
  by_contra h0
  have htarget := h.2
  rw [if_neg h0] at htarget
  rw [htarget] at h0
  exact h0 rfl

/-- A read that takes a SETUP packet and returns has an OUT half to read from. -/
theorem Step.exists_ep0Out (h : s.WF) (hc : c.TakesSetup s)
    (hstep : Step s (.call c r obs) s') : ∃ addr buf ep, c = .read addr buf ∧
      s.ep .ep0Out = some ep ∧ s.ReadsFrom addr .ep0Out ∧ s.TakesSetup .ep0Out buf := by
  cases c with
  | read addr buf =>
    cases hep : s.ep .ep0Out with
    | some ep => exact ⟨addr, buf, ep, rfl, rfl, hc⟩
    | none =>
      obtain ⟨a, hrun, -⟩ := run_map_ok hstep.run_eq
      rw [run_busRead_panic h hc.1.1 hc.1.index_zero hep] at hrun
      simp at hrun
  | poll | write | setStalled | isStalled | reset | configure | setDeviceAddress | enable
    | enableZlt | setInterrupts => exact hc.elim

/-- A SETUP packet was taken exactly by a read that takes one if it returns. -/
theorem Step.tookSetup_iff (h : s.WF) (hstep : Step s (.call c r obs) s') :
    Label.tookSetup (.call c r obs) = true ↔ c.TakesSetup s := by
  constructor
  · intro ht
    by_contra hc
    obtain ⟨high, v, hmem⟩ := Label.tookSetup_iff.mp ht
    exact (Call.latch_kept h hc hstep.run_eq).unseen high v hmem
  · intro hc
    obtain ⟨addr, buf, ep, rfl, hep, haddr, hset⟩ := hstep.exists_ep0Out h hc
    exact Label.tookSetup_iff.mpr (latch_taken h hep haddr hset hstep.run_eq).2.1

/-- The latch follows arrivals and reads. -/
theorem Step.setupPending_eq (h : s.WF) (hstep : Step s l s') :
    s'.setupPending = (l.setupArrives || (s.setupPending && !l.tookSetup)) := by
  cases l with
  | hw ev =>
    obtain ⟨-, rfl⟩ := hstep.enabled
    cases ev with
    | setup packet =>
      show (s.reg .ENDPTSETUPSTAT ||| 1).getLsbD 0 = true
      rw [BitVec.getLsbD_or]
      exact Bool.or_true _
    | outDone | inDone | error | nak | resetBegin | resetEnd => exact (Bool.and_true _).symm
  | call c r obs =>
    show s'.setupPending = (s.setupPending && !Label.tookSetup (.call c r obs))
    by_cases hc : c.TakesSetup s
    · have ht := (hstep.tookSetup_iff h).mpr hc
      obtain ⟨addr, buf, ep, rfl, hep, haddr, hset⟩ := hstep.exists_ep0Out h hc
      have hlatch := (latch_taken h hep haddr hset hstep.run_eq).1
      rw [ht, Sys.setupPending, hlatch, BitVec.getLsbD_and, Bool.not_true, Bool.and_false]
      exact Bool.and_false _
    · have ht : Label.tookSetup (.call c r obs) = false := by
        rw [Bool.eq_false_iff]
        exact fun ht => hc ((hstep.tookSetup_iff h).mp ht)
      have hlatch := (Call.latch_kept h hc hstep.run_eq).latch
      rw [ht, Sys.setupPending, hlatch, Sys.setupPending, Bool.not_false, Bool.and_true]

end Latch

/-! ## The completion bit of an OUT endpoint -/

/-- The controller completes a transfer of an OUT endpoint by the packet received. -/
theorem HwEvent.complete_mem_iff (ev : HwEvent) {e : EpId} (hout : e.dir = .Out) :
    .complete ∈ ev.acts e ↔ (Label.received e.num (.hw ev)).isSome = true := by
  cases ev with
  | outDone n data =>
    rw [HwEvent.acts, Label.received]
    by_cases hn : n = e.num
    · have he : e = ⟨.Out, n⟩ := by rw [hn, ← hout]
      rw [← he, only_self, if_pos hn]
      simp
    · have hne : e ≠ ⟨.Out, n⟩ := fun heq => hn (by rw [heq])
      rw [only_of_ne hne, if_neg hn]
      simp
  | inDone n k =>
    have hne : e ≠ ⟨.In, n⟩ := by
      rintro rfl
      simp at hout
    rw [HwEvent.acts, only_of_ne hne]
    simp [Label.received]
  | error f halted dataBuffer transaction =>
    exact iff_of_false (fun hm => by simpa using mem_of_mem_only hm) (by simp [Label.received])
  | setup packet =>
    refine iff_of_false ?_ (by simp [Label.received])
    simp only [HwEvent.acts]
    split_ifs <;> simp
  | nak | resetBegin | resetEnd => simp [HwEvent.acts, Label.received]

section Completed

variable {s s' : Sys} {l : Label} {e : EpId} {ep : Endpoint} {r : Ret} {obs : List Obs}

/-- A read of an OUT endpoint returns data exactly when it acknowledges it. -/
theorem Step.readsOut_iff {addr : EndpointAddress} {buf : List Byte} (h : s.WF)
    (hep : s.ep e = some ep) (hstep : Step s (.call (.read addr buf) r obs) s') :
    Label.readsOut e (.call (.read addr buf) r obs) = true ↔
      s.ReadsFrom addr e ∧ ¬ s.TakesSetup e buf ∧ s.Readable e ep := by
  have htook := hstep.tookSetup_iff h
  constructor
  · intro hr
    unfold Label.readsOut at hr
    split at hr
    · rename_i addr' buf' x obs' heq
      obtain ⟨hcall, rfl, rfl⟩ := Label.call.inj heq
      obtain ⟨rfl, rfl⟩ := Call.read.inj hcall
      rw [Bool.and_eq_true, decide_eq_true_eq, Bool.not_eq_true', ← Bool.not_eq_true, htook] at hr
      obtain ⟨htarget, hset⟩ := hr
      -- a read of an address without an endpoint is refused
      have haddr : s.ReadsFrom addr e := by
        refine ⟨?_, htarget⟩
        by_contra hnone
        obtain ⟨a, hrun, ha⟩ := run_map_ok hstep.run_eq
        rw [run_busRead_none h (by simpa using hnone)] at hrun
        rw [← Res.ok.inj (Out.mk.inj hrun).1] at ha
        simp at ha
      have hns : ¬ s.TakesSetup e buf := by
        rintro ⟨rfl, hp⟩
        exact hset ⟨haddr, rfl, hp⟩
      refine ⟨haddr, hns, ?_⟩
      by_contra hrd
      have hret := hstep.read_ret h haddr hep
      rw [Sys.readRet_of_not_readable hns hrd] at hret
      simp at hret
    · simp at hr
  · rintro ⟨haddr, hns, hrd⟩
    -- it takes no packet of the latch, so it returns data
    have hset : ¬ (Call.read addr buf).TakesSetup s := by
      rintro ⟨hzero, -, hp⟩
      refine hns ⟨?_, hp⟩
      have htarget := haddr.2
      rwa [if_pos hzero.index_zero] at htarget
    have hret := hstep.read_ret h haddr hep
    rw [Sys.readRet_of_readable hns hrd] at hret
    subst hret
    rw [Label.readsOut, Bool.and_eq_true, decide_eq_true_eq, Bool.not_eq_true', ← Bool.not_eq_true,
      htook]
    exact ⟨haddr.2, hset⟩

/-- A response on the control endpoint is accepted when its IN half takes it. -/
theorem Step.wroteZero_iff {addr : EndpointAddress} {buf : List Byte} (h : s.WF)
    (h0 : addr.index = 0) (hstep : Step s (.call (.write addr buf) r obs) s') :
    (∃ n, r = .write (.ok n)) ↔ (s.lookup addr).isSome = true ∧ s.Writable .ep0In := by
  obtain ⟨a, hrun, rfl⟩ := run_map_ok hstep.run_eq
  cases halloc : s.lookup addr with
  | none =>
    rw [run_busWrite_none h halloc] at hrun
    rw [← Res.ok.inj (Out.mk.inj hrun).1]
    simp
  | some fp =>
    have hsome : (s.lookup addr).isSome = true := by rw [halloc]; rfl
    cases hepi : s.ep .ep0In with
    | none =>
      have hfail := run_busWrite_fails h hsome h0 (Or.inl hepi) buf
      rw [hrun] at hfail
      simp at hfail
    | some epi =>
      rw [write_ret h (show s.WritesTo addr .ep0In from ⟨hsome, by rw [if_pos h0]⟩) hepi hrun,
        Sys.writeRet]
      -- the guards of `writeRet`, one after the other
      constructor
      · rintro ⟨n, hn⟩
        split at hn
        · simp at hn
        · rename_i herr
          split at hn
          · simp at hn
          · rename_i hp
            exact ⟨rfl, Bool.eq_false_of_not_eq_true herr, Bool.eq_false_of_not_eq_true hp⟩
      · rintro ⟨-, herr, hp⟩
        have herr' : (s.view .ep0In epi).errored = false := herr
        have hp' : (s.view .ep0In epi).primed = false := hp
        rw [herr', hp']
        exact ⟨_, rfl⟩

/-- An accepted response acknowledges the OUT half of the control endpoint if
    that is not primed. -/
theorem Step.drops_iff {addr : EndpointAddress} {buf : List Byte} (h : s.WF)
    (hout : e.dir = .Out) (ep : Endpoint)
    (hstep : Step s (.call (.write addr buf) r obs) s') :
    Label.drops s e (.call (.write addr buf) r obs) = true ↔
      .ack ∈ Call.acts s e ep (.write addr buf) := by
  -- the label tells of a write to endpoint 0 that found the OUT half idle
  have hdrops : Label.drops s e (.call (.write addr buf) r obs) = true ↔
      (∃ n, r = .write (.ok n)) ∧ e = .ep0Out ∧ addr.index = 0 ∧ s.primed .ep0Out = false := by
    unfold Label.drops
    split
    · rename_i heq
      obtain ⟨hcall, rfl, rfl⟩ := Label.call.inj heq
      obtain ⟨rfl, rfl⟩ := Call.write.inj hcall
      simp [and_assoc]
    · rename_i heq
      simp at heq
    · rename_i hne _
      refine iff_of_false (by simp) ?_
      rintro ⟨⟨n, rfl⟩, -⟩
      exact hne addr buf n obs rfl
  rw [hdrops, Call.acts]
  rcases e.num_cases with h0 | rfl | rfl
  · rw [if_pos h0]
    refine iff_of_false ?_ (by split <;> simp)
    rintro ⟨-, rfl, -⟩
    exact h0 rfl
  · rw [if_neg (by decide : ¬ EpId.ep0Out.num.val ≠ 0)]
    constructor
    · rintro ⟨hok, -, h0, hp⟩
      obtain ⟨hsome, hw⟩ := (hstep.wroteZero_iff h h0).mp hok
      rw [if_pos ⟨h0, hsome, hw⟩, if_neg (by decide), hp]
      exact List.mem_cons_self ..
    · intro hmem
      split at hmem
      · rename_i hw
        rw [if_neg (by decide)] at hmem
        refine ⟨(hstep.wroteZero_iff h hw.1).mpr hw.2, rfl, hw.1, ?_⟩
        by_contra hp
        rw [if_pos (by simpa using hp)] at hmem
        simp at hmem
      · simp at hmem
  · simp [EpId.ep0In] at hout

/-- The calls that acknowledge an OUT endpoint are those that read its packet or drop it. -/
theorem Step.ack_mem_iff {c : Call} (h : s.WF) (hep : s.ep e = some ep) (hout : e.dir = .Out)
    (hstep : Step s (.call c r obs) s') :
    .ack ∈ c.acts s e ep ↔
      Label.readsOut e (.call c r obs) = true ∨ Label.drops s e (.call c r obs) = true := by
  have hin : ¬ e.dir = .In := by
    rw [hout]
    rintro ⟨⟩
  cases c with
  | read addr buf =>
    have hdrops : Label.drops s e (.call (.read addr buf) r obs) = false := rfl
    rw [hdrops, hstep.readsOut_iff h hep, Call.acts]
    -- data is read, a packet is taken, or nothing happens
    by_cases hrd : s.Readable e ep
    · split_ifs <;> simp_all
    · split_ifs <;> simp [hrd]
  | write addr buf =>
    have hreads : Label.readsOut e (.call (.write addr buf) r obs) = false := rfl
    rw [hreads, hstep.drops_iff h hout ep]
    simp
  | reset debugAssertions => exact iff_of_true (List.mem_cons_self ..) (Or.inr rfl)
  | poll =>
    refine iff_of_false ?_ (by simp [Label.readsOut, Label.drops])
    rw [Call.acts, if_neg hin]
    split_ifs <;> simp
  | setStalled | configure =>
    refine iff_of_false ?_ (by simp [Label.readsOut, Label.drops])
    rw [Call.acts]
    split_ifs <;> simp
  | isStalled | setDeviceAddress | enable | enableZlt | setInterrupts =>
    simp [Call.acts, Label.readsOut, Label.drops]

/-- What a step can be to the completion bit of an allocated OUT endpoint: the
    reception of a packet, an acknowledgement with or without a read, or nothing. -/
theorem Step.completed_cases (h : s.WF) (hep : s.ep e = some ep) (hout : e.dir = .Out)
    (hstep : Step s l s') :
    ((l.received e.num).isSome = true ∧ s'.completed e = true) ∨
      ((l.received e.num).isSome = false ∧ (l.readsOut e = true ∨ l.drops s e = true) ∧
        s'.completed e = false) ∨
      ((l.received e.num).isSome = false ∧ ¬ (l.readsOut e = true ∨ l.drops s e = true) ∧
        s'.completed e = s.completed e) := by
  -- the view says what became of the bit
  have hview : s'.completed e = ((s.view e ep).acts (s.acts l e)).completed := by
    rw [← hstep.view_eq h hep]
    rfl
  cases l with
  | hw ev =>
    have hiff := ev.complete_mem_iff hout
    by_cases hrec : (Label.received e.num (.hw ev)).isSome = true
    · exact Or.inl ⟨hrec, by
        rw [hview, Sys.acts, EpView.completing_acts (ev.ack_not_mem e) (hiff.mpr hrec)]⟩
    · refine Or.inr (Or.inr ⟨Bool.eq_false_of_not_eq_true hrec, ?_, ?_⟩)
      · simp [Label.readsOut, Label.drops]
      · rw [hview, Sys.acts,
          EpView.completed_acts (ev.ack_not_mem e) fun hm => hrec (hiff.mp hm)]
        rfl
  | call c r obs =>
    rw [Sys.acts_call hep] at hview
    have hiff := hstep.ack_mem_iff h hep hout
    refine Or.inr ?_
    by_cases hack : .ack ∈ c.acts s e ep
    · exact Or.inl ⟨rfl, hiff.mp hack, by rw [hview, EpView.acked_acts hack c.complete_not_mem]⟩
    · refine Or.inr ⟨rfl, fun hr => hack (hiff.mpr hr), ?_⟩
      rw [hview, EpView.completed_acts hack c.complete_not_mem]
      rfl

end Completed

/-! ## Reports -/

/-- The registers know what is pending. -/
structure PendingKnown (tr : Trace) (s : Sys) : Prop where
  wf : s.WF
  waiting : ∀ e ep, s.ep e = some ep → e.dir = .Out → packet e tr = .waiting →
    s.completed e = true
  dropped : ∀ e ep, s.ep e = some ep → e.dir = .Out → packet e tr = .dropped →
    s.completed e = false
  setup : setupUnread tr = s.setupPending

namespace PendingKnown

variable {s s' : Sys} {l : Label} {tr : Trace}

theorem of_booted (h : Booted s) : PendingKnown [] s where
  wf := h.idle.wf
  waiting := fun _ _ _ _ hp => by simp [packet] at hp
  dropped := fun _ _ _ _ hp => by simp [packet] at hp
  setup := by
    rw [Sys.setupPending, h.idle.setupstat]
    exact BitVec.getLsbD_zero.symm

theorem step (h : PendingKnown tr s) (hstep : Step s l s') :
    PendingKnown (tr ++ [(s, l)]) s' where
  wf := hstep.wf h.wf
  waiting := by
    intro e ep hep hout hp
    rw [hstep.ep_eq h.wf] at hep
    rw [packet_snoc, Packet.next] at hp
    rcases hstep.completed_cases h.wf hep hout with ⟨-, hc⟩ | ⟨hrec, hack, -⟩ |
      ⟨hrec, hack, hc⟩
    · exact hc
    · -- an acknowledgement leaves no packet waiting
      rw [hrec, if_neg Bool.false_ne_true] at hp
      split_ifs at hp with hr hd
      rcases hack with hr' | hd'
      · exact absurd hr' hr
      · rw [hd', hp] at hd
        simp at hd
    · rw [not_or, Bool.not_eq_true, Bool.not_eq_true] at hack
      rw [hrec, hack.1, hack.2] at hp
      rw [hc]
      exact h.waiting e ep hep hout hp
  dropped := by
    intro e ep hep hout hp
    rw [hstep.ep_eq h.wf] at hep
    rw [packet_snoc, Packet.next] at hp
    rcases hstep.completed_cases h.wf hep hout with ⟨hrec, -⟩ | ⟨-, -, hc⟩ | ⟨hrec, hack, hc⟩
    · rw [if_pos hrec] at hp
      simp at hp
    · exact hc
    · rw [not_or, Bool.not_eq_true, Bool.not_eq_true] at hack
      rw [hrec, hack.1, hack.2] at hp
      rw [hc]
      exact h.dropped e ep hep hout hp
  setup := by rw [setupUnread_snoc, h.setup, hstep.setupPending_eq h.wf]

/-- What is unread in the registers. -/
theorem outBit (h : PendingKnown tr s) {e : EpId} (hu : s.Unread tr e) :
    s.pollData.outBit e.num = true ↔ packet e tr ≠ .dropped := by
  obtain ⟨hout, hsome, hread⟩ := hu
  obtain ⟨ep, hep⟩ := Option.isSome_iff_exists.mp hsome
  have he : (⟨.Out, e.num⟩ : EpId) = e := by rw [← hout]
  rw [Sys.pollData, PollResult.outBit, getLsbD_epOut, he]
  cases hp : packet e tr with
  | read => exact absurd hp hread
  | waiting => simp [h.waiting e ep hep hout hp]
  | dropped => simp [h.dropped e ep hep hout hp]

theorem setupBit (h : PendingKnown tr s) : s.pollData.setupBit = setupUnread tr := by
  rw [h.setup, Sys.pollData, PollResult.setupBit, BitVec.getLsbD_setWidth, Sys.setupPending]
  rfl

/-- A poll reports everything pending exactly when it finds it. -/
theorem reported_iff (h : PendingKnown tr s) (hstep : Step s l s') :
    PendingReported tr s l ↔ FindsPending tr s l := by
  constructor
  · intro hrep hpoll hreset
    obtain ⟨r, obs, rfl⟩ := Label.isPoll_eq hpoll
    rcases hstep.poll_cases with ⟨hr, -⟩ | ⟨-, hu, rfl⟩ | ⟨-, -, rfl⟩
    · rw [hreset] at hr
      simp at hr
    · obtain ⟨hout, -⟩ := hrep _ _ rfl (by simp [Sys.pollData])
      exact ⟨fun _ => hu, fun e he => (h.outBit he).mp (hout e he)⟩
    · -- a poll that finds no interrupt reports nothing at all
      obtain ⟨hout, hsetup⟩ := hrep _ _ rfl (by simp)
      refine ⟨fun hany => ?_, fun e he => ?_⟩
      · rcases hany with ⟨e, he⟩ | hs
        · exact absurd (hout e he) (by simp [PollResult.outBit])
        · exact absurd (hsetup hs) (by simp [PollResult.setupBit])
      · exact absurd (hout e he) (by simp [PollResult.outBit])
  · intro hfind r obs hl hr
    subst hl
    rcases hstep.poll_cases with ⟨-, hret⟩ | ⟨hreset, -, hret⟩ | ⟨hreset, hu, -⟩
    · exact absurd (Ret.poll.inj hret) hr
    · obtain rfl := Ret.poll.inj hret
      exact ⟨fun e he => (h.outBit he).mpr ((hfind rfl hreset).2 e he),
        fun hs => by rw [h.setupBit, hs]⟩
    · have hnone : ¬ s.AnyUnread tr := by
        intro hany
        rw [(hfind rfl hreset).1 hany] at hu
        simp at hu
      exact ⟨fun e he => absurd (Or.inl ⟨e, he⟩) hnone, fun hs => absurd (Or.inr hs) hnone⟩

end PendingKnown

/-- In a run from boot, every poll that does not return `Reset` reports
    everything that was received and not read, no matter how often it was
    reported before, if and only if every such poll finds the interrupt flag
    set when something is pending, and no packet's completion was acknowledged
    without a read. -/
theorem pending_reported_iff {s₀ s : Sys} {tr : Trace} (h₀ : Booted s₀)
    (hrun : Run Step s₀ tr s) : Always PendingReported tr ↔ Always FindsPending tr :=
  hrun.always_iff (I := PendingKnown) (always_true tr) (.of_booted h₀)
    (fun _ _ _ _ hI _ _ hs => hI.step hs) fun _ _ _ _ hI _ hs => hI.reported_iff hs

instance (s : Sys) (tr : Trace) : Decidable (s.AnyUnread tr) :=
  decidable_of_iff ((∃ e ∈ EpId.all, s.Unread tr e) ∨ setupUnread tr = true)
    (or_congr_left ⟨fun ⟨e, _, he⟩ => ⟨e, he⟩, fun ⟨e, he⟩ => ⟨e, e.mem_all, he⟩⟩)

instance (tr : Trace) (s : Sys) (l : Label) : Decidable (FindsPending tr s l) :=
  decidable_of_iff (l.isPoll = true → s.resetReceived = false →
      (s.AnyUnread tr → s.usbInterrupt = true) ∧
        ∀ e ∈ EpId.all, s.Unread tr e → packet e tr ≠ .dropped)
    ⟨fun h hp hr => ⟨(h hp hr).1, fun e => (h hp hr).2 e e.mem_all⟩,
      fun h hp hr => ⟨(h hp hr).1, fun e _ => (h hp hr).2 e⟩⟩

/-- A packet that is reported, stays unread, and is reported again when the next
    packet sets the interrupt flag. -/
theorem pending_reported_device : ∃ tr s, Run Step device tr s ∧
    (packet bulkOut tr = .waiting ∧ tr.length = 5 ∧ Always PendingReported tr) := by
  obtain ⟨tr, s, hrun, hp, hlen, hc⟩ := exists_run (s := device)
    (p := fun tr _ => packet bulkOut tr = .waiting ∧ tr.length = 5 ∧ Always FindsPending tr)
    [.call .configure, .hw (.outDone 1 [1, 2, 3]), .call .poll,
      .hw (.setup 0x0000000000010900), .call .poll] (by decide +kernel)
  exact ⟨tr, s, hrun, hp, hlen, (pending_reported_iff device_booted hrun).mpr hc⟩

/-- The packet was reported once and not read; then the bus is quiet, and the
    next poll returns `None`. -/
theorem pending_not_reported : ∃ tr s, Run Step device tr s ∧
    packet bulkOut tr = .waiting ∧ NoReset tr ∧ ¬ Always PendingReported tr := by
  obtain ⟨tr, t, l, s, hrun, hstep, hp, hreset, hu, hpoll, hr, hint⟩ := exists_step (s := device)
    (p := fun tr t l _ => packet bulkOut (tr ++ [(t, l)]) = .waiting ∧ NoReset (tr ++ [(t, l)]) ∧
      t.Unread tr bulkOut ∧ l.isPoll = true ∧ t.resetReceived = false ∧ t.usbInterrupt = false)
    [.call .configure, .hw (.outDone 1 [1, 2, 3]), .call .poll] (.call .poll) (by decide +kernel)
  refine ⟨_, s, hrun.snoc hstep, hp, hreset, fun hall => ?_⟩
  obtain ⟨r, obs, rfl⟩ := Label.isPoll_eq hpoll
  rcases hstep.poll_cases with ⟨h, -⟩ | ⟨-, h, -⟩ | ⟨-, -, rfl⟩
  · rw [hr] at h
    simp at h
  · rw [hint] at h
    simp at h
  · have hbit := ((always_snoc.mp hall).2 _ _ rfl (by simp)).1 bulkOut hu
    simp [PollResult.outBit] at hbit

end ImxrtUsbd
