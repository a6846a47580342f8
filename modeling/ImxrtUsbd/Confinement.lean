/-
  ImxrtUsbd.Confinement

  Where the controller may write.  The descriptor of a primed endpoint is a
  complete one-packet transfer inside the endpoint's own buffer, and the
  overlay of its queue head points to it (`dma_confined`).

  The controller is given more freedom here than `HwEvent` gives it: in the
  middle of a transfer it may store bytes through the descriptor and write
  `TOTAL_BYTES` and the status back.
-/
import ImxrtUsbd.Moves
import ImxrtUsbd.Replay

namespace ImxrtUsbd

open Lib

/-! ## The descriptor of an armed endpoint -/

namespace Sys

/-- The descriptor ends its list and asks for an interrupt, and the queue head
    leads to it. -/
structure Linked (s : Sys) (e : EpId) : Prop where
  terminate : (s.td e.slot).next = 1
  ioc : (s.td e.slot).token.getLsbD 15 = true
  overlay : (s.qh e.slot).overlay.next =
    BitVec.ofNat 32 (s.driver.epAllocator.tdList + 32 * e.slot)

/-- What the controller finds at a primed endpoint. -/
structure Confined (s : Sys) (e : EpId) (ep : Endpoint) : Prop where
  linked : s.Linked e
  /-- The terminate bit of `NEXT`. -/
  terminate : (s.td e.slot).next.getLsbD 0 = true
  left_le : (s.td e.slot).totalBytes ≤ (s.td e.slot).lastTransferSize.toNat
  size_le : (s.td e.slot).lastTransferSize.toNat ≤ s.maxPacketLen e
  packet : s.maxPacketLen e = min ep.buffer.len 1024
  /-- The range that the first pointer and `TOTAL_BYTES` describe. -/
  inside : (s.td e.slot).totalBytes = 0 ∨
    ep.buffer.ptr ≤ ((s.td e.slot).bufferPointers 0).toNat ∧
      ((s.td e.slot).bufferPointers 0).toNat + (s.td e.slot).totalBytes ≤
        ep.buffer.ptr + ep.buffer.len
  /-- Every byte of the transfer, through whichever page pointer. -/
  dma : ∀ i, i < (s.td e.slot).lastTransferSize.toNat →
    ep.buffer.ptr ≤ (s.td e.slot).dmaAddr i ∧
      (s.td e.slot).dmaAddr i < ep.buffer.ptr + ep.buffer.len
  apart : ∀ f fp, f ≠ e → s.ep f = some fp →
    ep.buffer.ptr + ep.buffer.len ≤ fp.buffer.ptr ∨ fp.buffer.ptr + fp.buffer.len ≤ ep.buffer.ptr

/-- The endpoint was armed just now: no error bit is left over, and all of the
    transfer is still to be done. -/
structure ArmedWhole (s : Sys) (e : EpId) : Prop where
  errored : (s.td e.slot).errored = false
  left_eq : (s.td e.slot).totalBytes = (s.td e.slot).lastTransferSize.toNat

/-- Every primed endpoint is linked. -/
def AllLinked (s : Sys) : Prop := ∀ e, s.primed e = true → s.Linked e

/-- The linked descriptor of an allocated endpoint is confined. -/
theorem WF.confined {s : Sys} (h : s.WF) {e : EpId} {ep : Endpoint} (hep : s.ep e = some ep)
    (hl : s.Linked e) : s.Confined e ep := by
  have hok := h.epOk e ep hep
  have hd := hok.td
  have hlen := packetLen_le ep
  have hptr : ep.buffer.ptr < 0xE0000000 := by
    have := hok.inPlace.ptr_lt
    omega
  have hkb : ep.packetLen ≤ 1024 := Nat.min_le_right _ _
  refine ⟨hl, ?_, hd.left_le, ?_, hok.mpl, ?_, ?_, ?_⟩
  · rw [hl.terminate]
    decide
  · rw [hok.mpl]
    exact hd.size_le
  · -- an empty transfer has no pointers
    by_cases h0 : (s.td e.slot).totalBytes = 0
    · exact Or.inl h0
    · have hne : (s.td e.slot).lastTransferSize.toNat ≠ 0 := by
        have := hd.left_le
        omega
      have hfirst : ((s.td e.slot).bufferPointers 0).toNat = ep.buffer.ptr := by
        rw [hd.pointers hne 0]
        show (BitVec.ofNat 32 ep.buffer.ptr).toNat = _
        rw [BitVec.toNat_ofNat]
        omega
      have := hd.left_le
      have := hd.size_le
      rw [hfirst]
      omega
  · intro i hi
    have := hd.size_le
    rw [dmaAddr_eq hptr (hd.pointers (by omega)) (by omega)]
    omega
  · intro f fp hne hfp
    exact h.apart e f ep fp hne.symm hep hfp

end Sys

/-! ## Steps that keep the links -/

namespace Td

theorem ioc_armed (t : Td) (ptr size : Nat) : (t.armed ptr size).token.getLsbD 15 = true := by
  -- `set_active` comes after `set_interrupt_on_complete`, in another field
  rw [armed, Field.getLsbD_set _ _ _ (by decide), if_neg (by decide),
    Field.getLsbD_set _ _ _ (by decide), if_pos (by decide)]
  decide

theorem ioc_retire (t : Td) (k : Nat) (status : Word) :
    (t.retire k status).token.getLsbD 15 = t.token.getLsbD 15 := by
  rw [retire, Field.getLsbD_set _ _ _ (by decide), if_neg (by decide),
    Field.getLsbD_set _ _ _ (by decide), if_neg (by decide)]

end Td

namespace Sys

variable {s s' : Sys}

/-- A link is made of these parts of the state. -/
theorem Linked.congr {e : EpId} (h : s.Linked e) (halloc : s'.driver.epAllocator =
    s.driver.epAllocator) (hnext : (s'.td e.slot).next = (s.td e.slot).next)
    (hioc : (s'.td e.slot).token.getLsbD 15 = (s.td e.slot).token.getLsbD 15)
    (hover : (s'.qh e.slot).overlay.next = (s.qh e.slot).overlay.next) : s'.Linked e where
  terminate := hnext.trans h.terminate
  ioc := hioc.trans h.ioc
  overlay := by
    rw [hover, halloc]
    exact h.overlay

theorem linked_arm (s : Sys) (e : EpId) (ptr size : Nat) : (s.arm e ptr size).Linked e := by
  have htd : (s.arm e ptr size).td e.slot = (s.td e.slot).armed ptr size :=
    Function.update_self _ _ _
  have hqh : (s.arm e ptr size).qh e.slot =
      (s.qh e.slot).armed (s.driver.epAllocator.tdList + 32 * e.slot) := Function.update_self _ _ _
  refine ⟨?_, ?_, ?_⟩
  · rw [htd]
    rfl
  · rw [htd]
    exact Td.ioc_armed _ _ _
  · rw [hqh]
    rfl

theorem AllLinked.arm (h : s.AllLinked) (f : EpId) (ptr size : Nat) :
    (s.arm f ptr size).AllLinked := by
  intro e he
  by_cases hef : e = f
  · subst hef
    exact s.linked_arm e ptr size
  · -- the other endpoints keep descriptor, queue head and prime
    have hp : s.primed e = true := by
      have hbit : (s.reg .ENDPTSTAT ||| f.mask).getLsbD e.bit = true := by
        simpa [primed, Sys.arm] using he
      rw [BitVec.getLsbD_or, EpId.getLsbD_mask] at hbit
      simpa [primed, EpId.bit_inj, hef] using hbit
    have htd : (s.arm f ptr size).td e.slot = s.td e.slot := by
      show Function.update _ _ _ _ = _
      rw [EpId.update_slot, if_neg hef]
    have hqh : (s.arm f ptr size).qh e.slot = s.qh e.slot := by
      show Function.update _ _ _ _ = _
      rw [EpId.update_slot, if_neg hef]
    exact (h e hp).congr rfl (by rw [htd]) (by rw [htd]) (by rw [hqh])

/-- Nothing primed, and no link touched. -/
theorem AllLinked.of_kept (h : s.AllLinked) (halloc : s'.driver.epAllocator =
    s.driver.epAllocator) (hp : ∀ e, s'.primed e = true → s.primed e = true)
    (hnext : ∀ i, (s'.td i).next = (s.td i).next)
    (hioc : ∀ i, (s'.td i).token.getLsbD 15 = (s.td i).token.getLsbD 15)
    (hover : ∀ i, (s'.qh i).overlay.next = (s.qh i).overlay.next) : s'.AllLinked :=
  fun e he => (h e (hp e he)).congr halloc (hnext _) (hioc _) (hover _)

theorem AllLinked.setReg (h : s.AllLinked) {r : Reg} (v : Word) (hr : r ≠ .ENDPTSTAT) :
    (s.setReg r v).AllLinked := by
  refine h.of_kept rfl (fun e he => ?_) (fun _ => rfl) (fun _ => rfl) fun _ => rfl
  rwa [primed_of_reg (reg_setReg_of_ne s v hr.symm)] at he

theorem AllLinked.flush (h : s.AllLinked) (m : Word) : (s.lower .ENDPTSTAT m).AllLinked := by
  refine h.of_kept rfl (fun e he => ?_) (fun _ => rfl) (fun _ => rfl) fun _ => rfl
  rw [primed, lower, reg_setReg_self, BitVec.getLsbD_and, Bool.and_eq_true] at he
  exact he.1

theorem AllLinked.updateQh (h : s.AllLinked) (i : Nat) (q : Qh)
    (hq : q.overlay = (s.qh i).overlay) :
    ({ s with qh := Function.update s.qh i q } : Sys).AllLinked := by
  refine h.of_kept rfl (fun e he => he) (fun _ => rfl) (fun _ => rfl) fun j => ?_
  by_cases hj : j = i
  · subst hj
    simp [hq]
  · simp [Function.update_of_ne hj]

theorem AllLinked.retire (h : s.AllLinked) (i k : Nat) (status : Word) :
    ({ s with td := Function.update s.td i ((s.td i).retire k status) } : Sys).AllLinked := by
  refine h.of_kept rfl (fun e he => he) (fun j => ?_) (fun j => ?_) fun _ => rfl
  · by_cases hj : j = i
    · subst hj
      simp [Td.retire]
    · simp [Function.update_of_ne hj]
  · by_cases hj : j = i
    · subst hj
      show (Function.update s.td j _ j).token.getLsbD 15 = _
      rw [Function.update_self, Td.ioc_retire]
    · simp [Function.update_of_ne hj]

/-- A change of endpoint memory or of the driver's copy of the completions. -/
theorem AllLinked.setMem (h : s.AllLinked) (m : Mem) : ({ s with mem := m } : Sys).AllLinked :=
  h.of_kept rfl (fun _ he => he) (fun _ => rfl) (fun _ => rfl) fun _ => rfl

theorem AllLinked.setEpOut (h : s.AllLinked) (v : BitVec 16) :
    ({ s with driver := { s.driver with epOut := v } } : Sys).AllLinked :=
  h.of_kept rfl (fun _ he => he) (fun _ => rfl) (fun _ => rfl) fun _ => rfl

end Sys

theorem Move.allLinked {W : Reg → Prop} {s s' : Sys} (h : s.AllLinked) (hm : Move W s s') :
    s'.AllLinked := by
  cases hm with
  | setReg r v _ hr => exact h.setReg v hr
  | flush m => exact h.flush m
  | arm size => exact h.arm _ _ size
  | fill data => exact h.setMem _
  | signal v => exact h.setEpOut v
  | capabilities i v => exact h.updateQh i _ rfl

theorem HwEvent.allLinked {s : Sys} (h : s.AllLinked) (ev : HwEvent) : (ev.apply s).AllLinked := by
  have hretire : ∀ (s : Sys) e k status, s.AllLinked →
      (HwEvent.retire s e k status).AllLinked :=
    fun s e k status hs => (hs.retire e.slot k status).flush e.mask
  cases ev with
  | outDone n data =>
    have hmem := h.setMem (dmaStore (s.td (EpId.slot ⟨.Out, n⟩)) s.mem 0 data)
    exact ((hretire _ ⟨.Out, n⟩ _ _ hmem).setReg _ (by simp)).setReg _ (by simp)
  | inDone n k => exact ((hretire _ ⟨.In, n⟩ _ _ h).setReg _ (by simp)).setReg _ (by simp)
  | error e halted dataBuffer transaction => exact (hretire _ e _ _ h).setReg _ (by simp)
  | setup packet =>
    have hq := h.updateQh 0 { s.qh 0 with setup := packet } rfl
    exact ((((hq.flush _).setReg _ (by simp)).setReg _ (by simp)).setReg _ (by simp))
  | nak e => exact h.setReg _ (by simp)
  | resetBegin => exact ((h.setReg _ (by simp)).setReg _ (by simp)).setReg _ (by simp)
  | resetEnd => exact h.setReg _ (by simp)

theorem Step.allLinked {s s' : Sys} {l : Label} (h : s.WF) (hl : s.AllLinked)
    (hstep : Step s l s') : s'.AllLinked := by
  cases hstep with
  | call hrun => exact (Call.moves h hrun).invariant hl fun _ _ => Move.allLinked
  | hw hev => exact HwEvent.allLinked hl _

/-! ## Fresh transfers -/

/-- An active descriptor with all of its transfer still to be done. -/
structure Td.Fresh (t : Td) : Prop where
  active : t.token.getLsbD 7 = true
  whole : t.totalBytes = t.lastTransferSize.toNat

theorem Td.fresh_armed (t : Td) (ptr : Nat) {size : Nat} (h : size ≤ 1024) :
    (t.armed ptr size).Fresh where
  active := by
    rw [armed, Field.getLsbD_set _ _ _ (by decide), if_pos (by decide)]
    decide
  whole := by
    rw [totalBytes_armed t ptr (by omega)]
    show size = (BitVec.ofNat 32 size).toNat
    rw [BitVec.toNat_ofNat]
    omega

/-- The controller has not touched the transfer of any primed endpoint yet. -/
def Sys.AllFresh (s : Sys) : Prop := ∀ e, s.primed e = true → (s.td e.slot).Fresh

section Fresh

variable {s s' : Sys}

theorem Sys.AllFresh.of_kept (h : s.AllFresh) (hp : ∀ e, s'.primed e = true → s.primed e = true)
    (htd : ∀ e, s'.primed e = true → s'.td e.slot = s.td e.slot) : s'.AllFresh := by
  intro e he
  rw [htd e he]
  exact h e (hp e he)

theorem Sys.AllFresh.setReg (h : s.AllFresh) {r : Reg} (v : Word) (hr : r ≠ .ENDPTSTAT) :
    (s.setReg r v).AllFresh :=
  h.of_kept (fun e he => by rwa [primed_of_reg (reg_setReg_of_ne s v hr.symm)] at he)
    fun _ _ => rfl

theorem Sys.AllFresh.flush (h : s.AllFresh) (m : Word) : (s.lower .ENDPTSTAT m).AllFresh := by
  refine h.of_kept (fun e he => ?_) fun _ _ => rfl
  rw [primed, lower, reg_setReg_self, BitVec.getLsbD_and, Bool.and_eq_true] at he
  exact he.1

/-- The transfer taken back is not primed any more. -/
theorem HwEvent.primed_retire {e f : EpId} {k : Nat} {status : Word}
    (h : (HwEvent.retire s e k status).primed f = true) : f ≠ e ∧ s.primed f = true := by
  have hbit : (s.reg .ENDPTSTAT &&& ~~~ e.mask).getLsbD f.bit = true := by
    simpa [Sys.primed, HwEvent.retire, Sys.lower] using h
  have hlt : f.bit < 32 := f.bit_lt
  rw [BitVec.getLsbD_and, BitVec.getLsbD_not, EpId.getLsbD_mask] at hbit
  simp only [hlt, decide_true, Bool.true_and, Bool.and_eq_true, Bool.not_eq_true',
    decide_eq_false_iff_not, EpId.bit_inj] at hbit
  exact ⟨hbit.2, hbit.1⟩

theorem Sys.AllFresh.retire (h : s.AllFresh) (e : EpId) (k : Nat) (status : Word) :
    (HwEvent.retire s e k status).AllFresh := by
  refine h.of_kept (fun f hf => (HwEvent.primed_retire hf).2) fun f hf => ?_
  show Function.update s.td e.slot _ f.slot = _
  rw [EpId.update_slot, if_neg (HwEvent.primed_retire hf).1]

theorem Move.allFresh {W : Reg → Prop} (h : s.AllFresh) (hm : Move W s s') : s'.AllFresh := by
  cases hm with
  | setReg r v _ hr => exact h.setReg v hr
  | flush m => exact h.flush m
  | @arm f fp size _ hsize =>
    intro e he
    have htd : (s.arm f fp.buffer.ptr size).td e.slot =
        if e = f then (s.td f.slot).armed fp.buffer.ptr size else s.td e.slot :=
      EpId.update_slot _ _ _ _
    by_cases hef : e = f
    · rw [htd, if_pos hef]
      exact Td.fresh_armed _ _ (hsize.trans (Nat.min_le_right _ _))
    · have hp : s.primed e = true := by
        have hbit : (s.reg .ENDPTSTAT ||| f.mask).getLsbD e.bit = true := by
          simpa [Sys.primed, Sys.arm] using he
        rw [BitVec.getLsbD_or, EpId.getLsbD_mask] at hbit
        simpa [Sys.primed, EpId.bit_inj, hef] using hbit
      rw [htd, if_neg hef]
      exact h e hp
  | fill | signal | capabilities => exact h.of_kept (fun _ he => he) fun _ _ => rfl

theorem HwEvent.allFresh (h : s.AllFresh) (ev : HwEvent) : (ev.apply s).AllFresh := by
  cases ev with
  | outDone n data =>
    have hmem : ({ s with mem := dmaStore (s.td (EpId.slot ⟨.Out, n⟩)) s.mem 0 data } :
        Sys).AllFresh := h.of_kept (fun _ he => he) fun _ _ => rfl
    exact ((hmem.retire ⟨.Out, n⟩ _ _).setReg _ (by simp)).setReg _ (by simp)
  | inDone n k => exact ((h.retire ⟨.In, n⟩ _ _).setReg _ (by simp)).setReg _ (by simp)
  | error e halted dataBuffer transaction => exact (h.retire e _ _).setReg _ (by simp)
  | setup packet =>
    have hq : ({ s with qh := Function.update s.qh 0 { s.qh 0 with setup := packet } } :
        Sys).AllFresh := h.of_kept (fun _ he => he) fun _ _ => rfl
    exact (((hq.flush _).setReg _ (by simp)).setReg _ (by simp)).setReg _ (by simp)
  | nak e => exact h.setReg _ (by simp)
  | resetBegin => exact ((h.setReg _ (by simp)).setReg _ (by simp)).setReg _ (by simp)
  | resetEnd => exact h.setReg _ (by simp)

theorem Step.allFresh {l : Label} (h : s.WF) (hf : s.AllFresh) (hstep : Step s l s') :
    s'.AllFresh := by
  cases hstep with
  | call hrun => exact (Call.moves h hrun).invariant hf fun _ _ => Move.allFresh
  | hw hev => exact HwEvent.allFresh hf _

theorem Reachable.allFresh (h : Reachable s) : s.AllFresh := by
  obtain ⟨s₀, tr, h₀, hrun⟩ := h
  have hfresh : s₀.AllFresh := by
    intro e he
    rw [(h₀.quiet e).primed] at he
    simp at he
  exact (hrun.invariant (I := fun s => s.WF ∧ s.AllFresh) (always_true tr)
    ⟨h₀.idle.wf, hfresh⟩ fun _ _ _ _ hI _ hs => ⟨hs.wf hI.1, hs.allFresh hI.1 hI.2⟩).2

end Fresh

/-! ## Arming -/

/-- If these actions arm the endpoint, that is the last of them. -/
def EpAct.ArmsLast (as : List EpAct) : Prop :=
  ∀ size, .schedule size ∈ as → ∃ pre, as = pre ++ [.schedule size]

theorem EpAct.armsLast_nil : ArmsLast [] := by simp [ArmsLast]

theorem EpAct.armsLast_schedule (pre : List EpAct) (hpre : ∀ n, EpAct.schedule n ∉ pre)
    (size : Nat) : ArmsLast (pre ++ [.schedule size]) := by
  intro n hmem
  rcases List.mem_append.mp hmem with hmem | hmem
  · exact absurd hmem (hpre n)
  · obtain rfl : n = size := by simpa using hmem
    exact ⟨pre, rfl⟩

theorem EpAct.armsLast_of_none {as : List EpAct} (h : ∀ n, EpAct.schedule n ∉ as) :
    ArmsLast as :=
  fun n hmem => absurd hmem (h n)

/-- Whatever a call does to an endpoint, arming it comes last. -/
theorem Call.armsLast (s : Sys) (e : EpId) (ep : Endpoint) (c : Call) :
    EpAct.ArmsLast (c.acts s e ep) := by
  -- the four ways to arm
  have hsched : ∀ size, EpAct.ArmsLast [.schedule size] :=
    EpAct.armsLast_schedule [] (by simp)
  have hack : ∀ size, EpAct.ArmsLast [.ack, .schedule size] :=
    EpAct.armsLast_schedule [.ack] (by simp)
  have hfill : ∀ data size, EpAct.ArmsLast [.fill data, .schedule size] :=
    fun data => EpAct.armsLast_schedule [.fill data] (by simp)
  cases c with
  | poll =>
    rw [Call.acts]
    split
    · exact EpAct.armsLast_nil
    · split <;> exact EpAct.armsLast_of_none (by simp)
  | read addr buf =>
    rw [Call.acts]
    split
    · split
      · split
        · exact EpAct.armsLast_nil
        · exact hsched _
      · split
        · exact hack _
        · exact EpAct.armsLast_nil
    · exact EpAct.armsLast_nil
  | write addr buf =>
    rw [Call.acts]
    split
    · split
      · exact hfill _ _
      · exact EpAct.armsLast_nil
    · split
      · split
        · exact hfill _ _
        · split
          · exact EpAct.armsLast_nil
          · exact hack _
      · exact EpAct.armsLast_nil
  | setStalled addr stalled =>
    rw [Call.acts]
    split
    · exact hsched _
    · exact EpAct.armsLast_nil
  | reset => exact EpAct.armsLast_of_none (by simp [Call.acts])
  | configure =>
    rw [Call.acts]
    split
    · exact hsched _
    · exact EpAct.armsLast_nil
  | isStalled | setDeviceAddress | enable | enableZlt | setInterrupts => exact EpAct.armsLast_nil

/-- Only arming primes. -/
theorem EpView.primed_act {v : EpView} {a : EpAct} (ha : ∀ size, a ≠ .schedule size)
    (h0 : v.primed = false) : (v.act a).primed = false := by
  cases a with
  | schedule size => exact absurd rfl (ha size)
  | unprime | retire => rfl
  | ack | fill | signal | complete => exact h0

theorem EpView.exists_schedule {v : EpView} {as : List EpAct} (h0 : v.primed = false)
    (h : (v.acts as).primed = true) : ∃ size, .schedule size ∈ as := by
  induction as generalizing v with
  | nil =>
    rw [acts_nil, h0] at h
    simp at h
  | cons a as ih =>
    by_cases ha : ∃ size, a = .schedule size
    · obtain ⟨size, rfl⟩ := ha
      exact ⟨size, List.mem_cons_self ..⟩
    · -- still unprimed after `a`, so a later action arms it
      obtain ⟨size, hmem⟩ := ih (primed_act (fun size hs => ha ⟨size, hs⟩) h0) h
      exact ⟨size, List.mem_cons_of_mem _ hmem⟩

theorem HwEvent.schedule_not_mem (ev : HwEvent) (e : EpId) (size : Nat) :
    .schedule size ∉ ev.acts e := by
  cases ev with
  | outDone | inDone | error =>
    intro h
    simpa using mem_of_mem_only h
  | setup =>
    show _ ∉ (if _ then _ else _)
    split <;> simp
  | nak | resetBegin | resetEnd => exact List.not_mem_nil

/-- A step that arms an endpoint, or after which it is primed and was not
    before, leaves a fresh transfer. -/
theorem Step.armedWhole {s s' : Sys} {l : Label} {e : EpId} {ep : Endpoint} (h : s.WF)
    (hep : s.ep e = some ep) (hstep : Step s l s')
    (ha : l.Arms e ∨ s.primed e = false ∧ s'.primed e = true) : s'.ArmedWhole e := by
  have hview := hstep.view_eq h hep
  obtain ⟨size, hmem⟩ : ∃ size, .schedule size ∈ s.acts l e := by
    rcases ha with ha | ⟨h0, h1⟩
    · exact (hstep.arms_iff h hep).mp ha
    · have hv : ((s.view e ep).acts (s.acts l e)).primed = true := by
        rw [← hview]
        exact h1
      exact EpView.exists_schedule h0 hv
  cases l with
  | hw ev => exact absurd hmem (ev.schedule_not_mem e size)
  | call c r obs =>
    rw [Sys.acts_call hep] at hmem hview
    obtain ⟨pre, hpre⟩ := c.armsLast s e ep size hmem
    rw [hpre, EpView.acts_append] at hview
    exact ⟨congrArg EpView.errored hview,
      (congrArg EpView.left hview).trans (congrArg EpView.size hview).symm⟩

/-! ## Runs -/

/-- A step of the system, or the controller at work in the middle of a transfer. -/
inductive DmaLabel where
  | sys (l : Label)
  /-- Bytes `i` and up of the transfer are stored, `TOTAL_BYTES` is lowered by
      `k`, and the status byte is written. -/
  | progress (e : EpId) (i : Nat) (data : List Byte) (k : Nat) (status : Word)

/-- The controller writes the descriptor of a transfer that goes on. -/
def Sys.progress (s : Sys) (e : EpId) (i : Nat) (data : List Byte) (k : Nat) (status : Word) :
    Sys :=
  { s with
    mem := dmaStore (s.td e.slot) s.mem i data
    td := Function.update s.td e.slot ((s.td e.slot).retire k status) }

inductive DmaStep (s : Sys) : DmaLabel → Sys → Prop where
  | sys {l : Label} {s' : Sys} : Step s l s' → DmaStep s (.sys l) s'
  | progress {e : EpId} {i : Nat} {data : List Byte} {k : Nat} {status : Word} :
      s.primed e = true → i + data.length ≤ (s.td e.slot).lastTransferSize.toNat →
        DmaStep s (.progress e i data k status) (s.progress e i data k status)

/-- The endpoint is armed in this step. -/
def DmaLabel.Arms (l : DmaLabel) (e : EpId) : Prop :=
  match l with
  | .sys l => l.Arms e
  | .progress _ _ _ _ _ => False

section Runs

variable {s s' : Sys} {l : DmaLabel}

theorem wf_progress (h : s.WF) (e : EpId) (i : Nat) (data : List Byte) (k : Nat) (status : Word) :
    (s.progress e i data k status).WF := by
  have hframe : s.Frame (s.progress e i data k status) :=
    ⟨rfl, rfl, rfl, rfl, rfl, id, fun _ => rfl⟩
  refine h.of_frame hframe (fun f fp hfp => ?_) h.primed
  show (Function.update s.td e.slot _ f.slot).Describes _ _
  rw [EpId.update_slot]
  split
  · rename_i hfe
    subst hfe
    exact (h.describes f fp hfp).retire k status
  · exact h.describes f fp hfp

theorem DmaStep.wf (h : s.WF) (hstep : DmaStep s l s') : s'.WF := by
  cases hstep with
  | sys hstep => exact hstep.wf h
  | progress => exact wf_progress h _ _ _ _ _

theorem DmaStep.allLinked (h : s.WF) (hl : s.AllLinked) (hstep : DmaStep s l s') :
    s'.AllLinked := by
  cases hstep with
  | sys hstep => exact hstep.allLinked h hl
  | @progress e i data k status =>
    exact (hl.setMem (dmaStore (s.td e.slot) s.mem i data)).retire e.slot k status

theorem Booted.allLinked (h : Booted s) : s.AllLinked := by
  intro e he
  rw [(h.quiet e).primed] at he
  simp at he

/-- Runs of the system are runs with nothing in the middle of a transfer. -/
theorem exists_dmaRun {tr : Trace} (h : Run Step s tr s') : ∃ tr', Run DmaStep s tr' s' := by
  induction h with
  | nil => exact ⟨[], .nil⟩
  | snoc _ hstep ih =>
    obtain ⟨tr', hr⟩ := ih
    exact ⟨_, hr.snoc (.sys hstep)⟩

end Runs

/-- In every state of every run, a primed endpoint's transfer is complete and
    stays inside the endpoint's own memory; and whenever an endpoint is armed,
    the transfer is a fresh one. -/
theorem dma_confined {s₀ s : Sys} {tr : Hist Sys DmaLabel} (h₀ : Booted s₀)
    (hrun : Run DmaStep s₀ tr s) :
    (∀ e, s.primed e = true → ∃ ep, s.ep e = some ep ∧ s.Confined e ep) ∧
      ∀ l s' e, DmaStep s l s' → (l.Arms e ∨ s.primed e = false ∧ s'.primed e = true) →
        s'.ArmedWhole e := by
  obtain ⟨hwf, hlinked⟩ : s.WF ∧ s.AllLinked :=
    hrun.invariant (I := fun s => s.WF ∧ s.AllLinked) (always_true tr)
      ⟨h₀.idle.wf, h₀.allLinked⟩ fun _ _ _ _ hI _ hs => ⟨hs.wf hI.1, hs.allLinked hI.1 hI.2⟩
  refine ⟨fun e he => ?_, fun l s' e hstep ha => ?_⟩
  · obtain ⟨ep, hep⟩ := Option.isSome_iff_exists.mp (hwf.primed e he)
    exact ⟨ep, hep, hwf.confined hep (hlinked e he)⟩
  · cases hstep with
    | progress =>
      rcases ha with ha | ⟨h0, h1⟩
      · exact ha.elim
      · have hsame : s.primed e = true := h1
        rw [h0] at hsame
        simp at hsame
    | @sys l s' hstep =>
      have hsome : (s.ep e).isSome = true := by
        rcases ha with ha | ⟨-, h1⟩
        · -- a prime shown is an allocated endpoint's
          obtain ⟨o, ho, hp⟩ := ha
          cases o with
          | setup => simp [Obs.primes] at hp
          | prime bits stat =>
            obtain ⟨f, fp, -, -, -, rfl, hfp, -⟩ := (hstep.effect hwf).prime bits stat ho
            have hbit : f.mask.getLsbD e.bit = true := hp
            rw [EpId.getLsbD_mask, decide_eq_true_eq, EpId.bit_inj] at hbit
            rw [hbit, hfp]
            rfl
        · have := (hstep.wf hwf).primed e h1
          rwa [hstep.ep_eq hwf] at this
      obtain ⟨ep, hep⟩ := Option.isSome_iff_exists.mp hsome
      exact hstep.armedWhole hwf hep ha

/-- A configured device, half way through the reception of a packet. -/
theorem dma_confined_device : ∃ (tr : Hist Sys DmaLabel) (s : Sys) (ep : Endpoint),
    Run DmaStep device tr s ∧ s.ep bulkOut = some ep ∧ s.primed bulkOut = true ∧
      (s.td bulkOut.slot).totalBytes = 40 ∧ s.Confined bulkOut ep := by
  obtain ⟨tr, s, hrun, hp, hleft⟩ := exists_run (s := device)
    (p := fun _ s => s.primed bulkOut = true ∧ (s.td bulkOut.slot).totalBytes = 64)
    [.call .configure] (by decide +kernel)
  obtain ⟨tr', hrun'⟩ := exists_dmaRun hrun
  have hsize : 64 ≤ (s.td bulkOut.slot).lastTransferSize.toNat := by
    rw [← hleft]
    obtain ⟨ep, -, hc⟩ := (dma_confined device_booted hrun').1 bulkOut hp
    exact hc.left_le
  have hfit : 0 + (List.replicate 24 (7 : Byte)).length ≤
      (s.td bulkOut.slot).lastTransferSize.toNat := by
    rw [List.length_replicate]
    omega
  have hstep : DmaStep s _ (s.progress bulkOut 0 (List.replicate 24 7) 24 Status.ACTIVE) :=
    .progress hp hfit
  have hnext := hrun'.snoc hstep
  obtain ⟨ep, hep, hc⟩ := (dma_confined device_booted hnext).1 bulkOut hp
  have htd : (s.progress bulkOut 0 (List.replicate 24 7) 24 Status.ACTIVE).td bulkOut.slot =
      (s.td bulkOut.slot).retire 24 Status.ACTIVE := by simp [Sys.progress]
  refine ⟨_, _, ep, hnext, hep, hp, ?_, hc⟩
  rw [htd, Td.totalBytes_retire, hleft]

end ImxrtUsbd
