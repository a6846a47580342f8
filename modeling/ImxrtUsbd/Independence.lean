/-
  ImxrtUsbd.Independence

  Operations on different endpoints.  Seen place by place (a bit of a register,
  a descriptor, a queue head, a byte of memory), every operation on an endpoint
  works on the places of that endpoint (`footprint`), and looks at nothing else
  but the driver's fields.  Footprints of different endpoints are disjoint, so
  the operations commute (`endpoints_independent`).
-/
import ImxrtUsbd.Replay
import ImxrtUsbd.Toggles
import ImxrtUsbd.Lib.Local

namespace ImxrtUsbd

open Lib

/-! ## Places -/

/-- A place of the system. -/
inductive Loc where
  | reg (r : Reg) (bit : Nat)
  | td (i : Nat)
  | qh (i : Nat)
  | mem (a : Nat)
  | stack
  | driver

namespace Sys

/-- The same at a place. -/
def SameAt (l : Loc) (s s' : Sys) : Prop :=
  match l with
  | .reg r i => (s.reg r).getLsbD i = (s'.reg r).getLsbD i
  | .td i => s.td i = s'.td i
  | .qh i => s.qh i = s'.qh i
  | .mem a => s.mem a = s'.mem a
  | .stack => s.stack = s'.stack
  | .driver => s.driver = s'.driver

/-- The system, place by place. -/
def places : Places Loc Sys where
  same := SameAt
  equiv := by
    intro l
    cases l <;> exact ⟨fun _ => rfl, fun h => h.symm, fun h h' => h.trans h'⟩
  ext := by
    intro s s' h
    obtain ⟨reg, td, qh, mem, stack, driver⟩ := s
    obtain ⟨reg', td', qh', mem', stack', driver'⟩ := s'
    have hreg : reg = reg' := funext fun r => BitVec.eq_of_getLsbD_eq fun i _ => h (.reg r i)
    have htd : td = td' := funext fun i => h (.td i)
    have hqh : qh = qh' := funext fun i => h (.qh i)
    have hmem : mem = mem' := funext fun a => h (.mem a)
    have hstack : stack = stack' := h .stack
    have hdriver : driver = driver' := h .driver
    rw [hreg, htd, hqh, hmem, hstack, hdriver]

end Sys

/-- The registers with a bit for every endpoint half that operations change. -/
def Reg.isShared : Reg → Bool
  | .ENDPTSTAT | .ENDPTCOMPLETE | .ENDPTNAK => true
  | _ => false

/-- The places of an endpoint. -/
def footprint (e : EpId) (ep : Endpoint) : Set Loc :=
  { l | match l with
    | .reg r i => r.isShared = true ∧ i = e.bit ∨ r = e.ctrlReg ∧ i / 16 = e.inBit
    | .td i => i = e.slot
    | .qh i => i = e.slot
    | .mem a => ep.buffer.ptr ≤ a ∧ a < ep.buffer.ptr + ep.buffer.len
    | .stack => False
    | .driver => False }

/-- What every operation looks at. -/
def common : Set Loc := {.driver}

section Footprints

variable {s : Sys} {e f : EpId} {ep fp : Endpoint}

theorem footprint_common : Disjoint (footprint e ep) common := by
  rw [Set.disjoint_left]
  rintro l hl rfl
  exact hl

theorem EpId.isShared_ctrlReg (e : EpId) : e.ctrlReg.isShared = false := by
  rcases e.ctrlReg_cases with h | ⟨i, h⟩ <;> rw [h] <;> rfl

/-- Different endpoints have different places. -/
theorem footprint_disjoint (h : s.WF) (hef : e ≠ f) (hep : s.ep e = some ep)
    (hfp : s.ep f = some fp) : Disjoint (footprint e ep) (footprint f fp) := by
  rw [Set.disjoint_left]
  intro l he hf
  cases l with
  | reg r i =>
    rcases he with ⟨hr, hi⟩ | ⟨hr, hi⟩ <;> rcases hf with ⟨hr', hi'⟩ | ⟨hr', hi'⟩
    · exact hef (EpId.bit_inj.mp (hi.symm.trans hi'))
    · rw [hr', f.isShared_ctrlReg] at hr
      simp at hr
    · rw [hr, e.isShared_ctrlReg] at hr'
      simp at hr'
    · -- the halves of one control register
      have hnum := EpId.ctrlReg_inj.mp (hr.symm.trans hr')
      have hbit : e.bit = f.bit := by
        unfold EpId.bit
        rw [hnum, ← hi, ← hi']
      exact hef (EpId.bit_inj.mp hbit)
  | td i => exact hef (EpId.slot_inj.mp (he.symm.trans hf))
  | qh i => exact hef (EpId.slot_inj.mp (he.symm.trans hf))
  | mem a =>
    have ha : ep.buffer.ptr ≤ a ∧ a < ep.buffer.ptr + ep.buffer.len := he
    have hb : fp.buffer.ptr ≤ a ∧ a < fp.buffer.ptr + fp.buffer.len := hf
    have := h.apart e f ep fp hef hep hfp
    omega
  | stack => exact he
  | driver => exact he

end Footprints

/-! ## The toggle resets read as 0 -/

/-- Whatever the driver does, they stay so. -/
theorem keeps_ctrlClean {α : Type} (p : UsbM α) :
    Keeps usb (fun s _ s' => s.CtrlClean → s'.CtrlClean) p :=
  .of_act ⟨fun _ h => h, fun h h' hc => h' (h hc)⟩ (fun _ a _ => ctrlClean_act a) p

theorem Step.ctrlClean {s s' : Sys} {l : Label} (hstep : Step s l s') (hc : s.CtrlClean) :
    s'.CtrlClean := by
  cases hstep with
  | @call c r s' obs hrun =>
    have hkept := keeps_ctrlClean c.prog 1 s hc
    have hpost : (exec usb 1 c.prog s).post = s' := congrArg Out.post hrun
    rwa [hpost] at hkept
  | @hw ev hev =>
    intro e
    rw [ev.reg_ctrl s e.isCtrl_ctrlReg]
    exact hc e

theorem Reachable.ctrlClean {s : Sys} (h : Reachable s) : s.CtrlClean := by
  obtain ⟨s₀, tr, hb, hr⟩ := h
  induction hr with
  | nil =>
    intro e
    rw [hb.ctrlZero e]
    exact BitVec.getLsbD_zero
  | snoc _ hstep ih => exact hstep.ctrlClean ih

/-! ## Local changes -/

/-- Local to an endpoint. -/
abbrev LocalTo (e : EpId) (ep : Endpoint) (f : Sys → Sys) : Prop :=
  Local Sys.places Sys.CtrlClean common (footprint e ep) f

section Changes

variable {e : EpId} {ep : Endpoint}

/-- Rewrite bits of a register that are the endpoint's, each by itself. -/
theorem local_setReg {r : Reg} {g : Word → Word}
    (hkeeps : ∀ s : Sys, s.CtrlClean → (s.setReg r (g (s.reg r))).CtrlClean)
    (hframe : ∀ s : Sys, s.CtrlClean → ∀ i, Loc.reg r i ∉ footprint e ep →
      (g (s.reg r)).getLsbD i = (s.reg r).getLsbD i)
    (hbits : ∀ v w i, v.getLsbD i = w.getLsbD i → (g v).getLsbD i = (g w).getLsbD i) :
    LocalTo e ep fun s => s.setReg r (g (s.reg r)) where
  keeps := hkeeps
  frame := by
    intro s hs l hl
    cases l with
    | reg x i =>
      show ((s.setReg r _).reg x).getLsbD i = (s.reg x).getLsbD i
      by_cases hx : x = r
      · subst hx
        rw [Sys.reg_setReg_self]
        -- the register, bit by bit
        exact hframe s hs i hl
      · rw [Sys.reg_setReg_of_ne _ _ hx]
    | td | qh | mem | stack | driver => rfl
  depends := by
    intro s s' _ _ h l hl
    have hl' := h l (Or.inl hl)
    cases l with
    | reg x i =>
      show ((s.setReg r _).reg x).getLsbD i = ((s'.setReg r _).reg x).getLsbD i
      by_cases hx : x = r
      · subst hx
        rw [Sys.reg_setReg_self, Sys.reg_setReg_self]
        exact hbits _ _ i hl'
      · rw [Sys.reg_setReg_of_ne _ _ hx, Sys.reg_setReg_of_ne _ _ hx]
        exact hl'
    | td | qh | mem => exact hl'
    | stack | driver => exact hl.elim

/-- The control registers are elsewhere. -/
theorem Sys.CtrlClean.setShared {s : Sys} (hc : s.CtrlClean) {r : Reg} (hr : r.isShared = true)
    (v : Word) : (s.setReg r v).CtrlClean := by
  intro f
  rw [Sys.reg_setReg_of_ne]
  · exact hc f
  · rintro rfl
    rw [f.isShared_ctrlReg] at hr
    simp at hr

/-- Acknowledge a completion or a NAK. -/
theorem local_lower {r : Reg} (hr : r.isShared = true) :
    LocalTo e ep fun s => s.lower r e.mask := by
  refine local_setReg (g := fun v => v &&& ~~~ e.mask) (fun s hs => hs.setShared hr _) ?_ ?_
  · intro s _ i hi
    have hne : i ≠ e.bit := fun h => hi (Or.inl ⟨hr, h⟩)
    rw [BitVec.getLsbD_and, BitVec.getLsbD_not, EpId.getLsbD_mask, decide_eq_false hne]
    by_cases h32 : i < 32
    · simp [h32]
    · rw [BitVec.getLsbD_of_ge _ _ (Nat.le_of_not_lt h32), Bool.false_and]
  · intro v w i h
    rw [BitVec.getLsbD_and, BitVec.getLsbD_and, h]

/-- Prime. -/
theorem local_raiseStat :
    LocalTo e ep fun s => s.setReg .ENDPTSTAT (s.reg .ENDPTSTAT ||| e.mask) := by
  refine local_setReg (g := fun v => v ||| e.mask) (fun s hs => hs.setShared rfl _) ?_ ?_
  · intro s _ i hi
    have hne : i ≠ e.bit := fun h => hi (Or.inl ⟨rfl, h⟩)
    rw [BitVec.getLsbD_or, EpId.getLsbD_mask, decide_eq_false hne, Bool.or_false]
  · intro v w i h
    rw [BitVec.getLsbD_or, BitVec.getLsbD_or, h]

/-- Rewrite the descriptor. -/
theorem local_td (g : Td → Td) :
    LocalTo e ep fun s => { s with td := Function.update s.td e.slot (g (s.td e.slot)) } where
  keeps := fun _ hs => hs
  frame := by
    intro s _ l hl
    cases l with
    | td i => exact Function.update_of_ne hl _ _
    | reg | qh | mem | stack | driver => rfl
  depends := by
    intro s s' _ _ h l hl
    have hl' := h l (Or.inl hl)
    cases l with
    | td i =>
      obtain rfl : i = e.slot := hl
      show Function.update s.td _ _ _ = Function.update s'.td _ _ _
      rw [Function.update_self, Function.update_self]
      exact congrArg g hl'
    | reg | qh | mem => exact hl'
    | stack | driver => exact hl.elim

/-- Rewrite the queue head, from what the driver knows. -/
theorem local_qh (g : Driver → Qh → Qh) :
    LocalTo e ep fun s =>
      { s with qh := Function.update s.qh e.slot (g s.driver (s.qh e.slot)) } where
  keeps := fun _ hs => hs
  frame := by
    intro s _ l hl
    cases l with
    | qh i => exact Function.update_of_ne hl _ _
    | reg | td | mem | stack | driver => rfl
  depends := by
    intro s s' _ _ h l hl
    have hl' := h l (Or.inl hl)
    have hdriver : s.driver = s'.driver := h .driver (Or.inr rfl)
    cases l with
    | qh i =>
      obtain rfl : i = e.slot := hl
      have hqh : s.qh e.slot = s'.qh e.slot := hl'
      show Function.update s.qh _ _ _ = Function.update s'.qh _ _ _
      rw [Function.update_self, Function.update_self, hdriver, hqh]
    | reg | td | mem => exact hl'
    | stack | driver => exact hl.elim

/-- Store to the front of the buffer. -/
theorem local_store {data : List Byte} (h : data.length ≤ ep.buffer.len) :
    LocalTo e ep fun s => { s with mem := s.mem.store ep.buffer.ptr data } where
  keeps := fun _ hs => hs
  frame := by
    intro s _ l hl
    cases l with
    | mem a =>
      refine Mem.store_of_outside s.mem ?_
      have ha : ¬ (ep.buffer.ptr ≤ a ∧ a < ep.buffer.ptr + ep.buffer.len) := hl
      omega
    | reg | td | qh | stack | driver => rfl
  depends := by
    intro s s' _ _ h l hl
    have hl' := h l (Or.inl hl)
    cases l with
    | mem a =>
      have ha : s.mem a = s'.mem a := hl'
      show s.mem.store _ _ a = s'.mem.store _ _ a
      rw [Mem.store_apply, Mem.store_apply, ha]
    | reg | td | qh => exact hl'
    | stack | driver => exact hl.elim

theorem local_arm (size : Nat) : LocalTo e ep fun s => s.arm e ep.buffer.ptr size :=
  local_raiseStat.comp
    ((local_qh fun d q => q.armed (d.epAllocator.tdList + 32 * e.slot)).comp
      (local_td fun t => t.armed ep.buffer.ptr size) footprint_common) footprint_common

/-- The bits of a control register that read as 0. -/
theorem Sys.CtrlClean.getLsbD {s : Sys} (hc : s.CtrlClean) (e : EpId) {i : Nat}
    (hi : toggleResetBits.getLsbD i = true) : (s.reg e.ctrlReg).getLsbD i = false := by
  have h32 : i < 32 := BitVec.lt_of_getLsbD hi
  have htwo : ∀ j < 32, toggleResetBits.getLsbD j = true → j = 6 ∨ j = 22 := by decide
  have hout := hc ⟨.Out, e.num⟩
  have hin := hc ⟨.In, e.num⟩
  rw [EpId.ctrlReg_inj.mpr (show (⟨.Out, e.num⟩ : EpId).num = e.num from rfl)] at hout
  rw [EpId.ctrlReg_inj.mpr (show (⟨.In, e.num⟩ : EpId).num = e.num from rfl)] at hin
  rcases htwo i h32 hi with rfl | rfl
  · exact hout
  · exact hin

/-- Set a field of the endpoint's half: the other half is as it was. -/
theorem local_modifyCtrl {fld : Field} (hfld : ∀ i, fld.Has i → i / 16 = e.inBit) (x : Word) :
    LocalTo e ep fun s => s.modifyCtrl e [(fld, x)] := by
  refine local_setReg (g := fun v => setFields [(fld, x)] v &&& ~~~ Sys.toggleResetBits)
    (fun s hs => hs.setCtrl e _) ?_ ?_
  · intro s hs i hi
    have hhas : ¬ fld.Has i := fun h => hi (Or.inr ⟨rfl, hfld i h⟩)
    by_cases h32 : i < 32
    · rw [BitVec.getLsbD_and, BitVec.getLsbD_not, setFields, List.foldl_cons, List.foldl_nil,
        Field.getLsbD_set _ _ _ h32, if_neg hhas]
      -- the toggle resets were 0 before
      cases ht : Sys.toggleResetBits.getLsbD i with
      | false => simp [h32]
      | true => rw [hs.getLsbD e ht, Bool.false_and]
    · rw [BitVec.getLsbD_of_ge _ _ (Nat.le_of_not_lt h32),
        BitVec.getLsbD_of_ge _ _ (Nat.le_of_not_lt h32)]
  · intro v w i h
    by_cases h32 : i < 32
    · rw [BitVec.getLsbD_and, BitVec.getLsbD_and, setFields, setFields, List.foldl_cons,
        List.foldl_nil, List.foldl_cons, List.foldl_nil, Field.getLsbD_set _ _ _ h32,
        Field.getLsbD_set _ _ _ h32, h]
    · rw [BitVec.getLsbD_of_ge _ _ (Nat.le_of_not_lt h32),
        BitVec.getLsbD_of_ge _ _ (Nat.le_of_not_lt h32)]

theorem local_setStall (stall : Bool) : LocalTo e ep fun s => s.setStall e stall := by
  -- the stall bit is in the half of the direction
  obtain ⟨d, n⟩ := e
  cases d with
  | Out =>
    refine local_modifyCtrl (fun i hi => ?_) _
    obtain ⟨-, hlt⟩ := hi
    have hi : i < 1 := hlt
    show i / 16 = 0
    omega
  | In =>
    refine local_modifyCtrl (fun i hi => ?_) _
    obtain ⟨hge, hlt⟩ := hi
    have hi : 16 ≤ i ∧ i < 17 := ⟨hge, hlt⟩
    show i / 16 = 1
    omega

end Changes

/-! ## What the operations look at -/

/-- Seen from an endpoint, with the driver's fields. -/
abbrev SeenFrom {α : Type} (e : EpId) (ep : Endpoint) (r : Sys → α) : Prop :=
  Sees Sys.places Sys.CtrlClean (footprint e ep ∪ common) r

section Looks

variable {e : EpId} {ep : Endpoint}

theorem sees_view : SeenFrom e ep fun s => s.view e ep := by
  intro s s' _ _ h
  have hdriver : s.driver = s'.driver := h .driver (Or.inr rfl)
  have htd : s.td e.slot = s'.td e.slot := h (.td e.slot) (Or.inl rfl)
  have hstat : s.primed e = s'.primed e := h (.reg .ENDPTSTAT e.bit) (Or.inl (Or.inl ⟨rfl, rfl⟩))
  have hcomp : s.completed e = s'.completed e :=
    h (.reg .ENDPTCOMPLETE e.bit) (Or.inl (Or.inl ⟨rfl, rfl⟩))
  have hmem : s.mem.load ep.buffer.ptr ep.buffer.len =
      s'.mem.load ep.buffer.ptr ep.buffer.len := by
    refine List.map_congr_left fun i hi => ?_
    have hlt := List.mem_range.mp hi
    refine h (.mem _) (Or.inl ⟨?_, ?_⟩) <;> omega
  simp only [Sys.view, hdriver, htd, hstat, hcomp, hmem]

/-- Whatever is read off the view is seen as well. -/
theorem Sees.of_view {α : Type} (g : EpView → α) : SeenFrom e ep fun s => g (s.view e ep) :=
  fun s s' hs hs' h => congrArg g (sees_view s s' hs hs' h)

end Looks

/-! ## Operations on an endpoint -/

/-- What `usb-device` asks for of one endpoint. -/
inductive EpOp where
  | read (buf : List Byte)
  | write (buf : List Byte)
  | stall (stalled : Bool)

/-- Its code. -/
def EpOp.prog (o : EpOp) (addr : EndpointAddress) : UsbM Ret :=
  match o with
  | .read buf => return .read (← Driver.epRead buf addr)
  | .write buf => return .write (← Driver.epWrite buf addr)
  | .stall stalled => do
    Driver.epStall stalled addr
    return .unit

namespace EpOp

/-- What it returns. -/
def ret (o : EpOp) (ep : Endpoint) (v : EpView) : Ret :=
  match o with
  | .read buf => .read (
      if v.errored then .error .InvalidState
      else if v.primed || !v.signalled then .error .WouldBlock
      else .ok (v.fetch ep.packetLen buf))
  | .write buf => .write (
      if v.errored then .error .InvalidState
      else if v.primed then .error .WouldBlock
      else .ok (min ep.packetLen buf.length))
  | .stall _ => .unit

/-- What it leaves. -/
def post (o : EpOp) (e : EpId) (ep : Endpoint) (s : Sys) : Sys :=
  match o with
  | .read _ =>
    if (s.view e ep).errored ∨ (s.view e ep).primed ∨ ¬ (s.view e ep).signalled then s
    else s.rearm e ep ep.packetLen
  | .write buf =>
    if (s.view e ep).errored ∨ (s.view e ep).primed then s else s.send e ep buf
  | .stall stalled =>
    if stalled = false ∧ e.dir = .Out ∧ ¬ (s.view e ep).primed then
      (s.setStall e stalled).arm e ep.buffer.ptr ep.packetLen
    else s.setStall e stalled

end EpOp

section Operations

variable {s : Sys} {e f : EpId} {ep fp : Endpoint}

theorem run_op (h : s.WF) (hep : s.ep e = some ep) (o : EpOp) :
    ∃ obs, run (o.prog e.address) s = ⟨.ok (o.ret ep (s.view e ep)), o.post e ep s, obs⟩ := by
  cases o with
  | read buf =>
    rw [EpOp.prog, run_bind, run_epRead h hep]
    cases herr : (s.view e ep).errored <;> cases hp : (s.view e ep).primed <;>
      cases hsig : (s.view e ep).signalled <;>
      simp [EpOp.ret, EpOp.post, Out.andThen_ok_obs, herr, hp, hsig]
  | write buf =>
    rw [EpOp.prog, run_bind, run_epWrite h hep]
    cases herr : (s.view e ep).errored <;> cases hp : (s.view e ep).primed <;>
      simp [EpOp.ret, EpOp.post, Out.andThen_ok_obs, herr, hp]
  | stall stalled =>
    have hp : (s.view e ep).primed = s.primed e := rfl
    rw [EpOp.prog, run_bind, run_epStall h hep]
    by_cases hc : stalled = false ∧ e.dir = .Out ∧ s.primed e = false
    · simp [EpOp.ret, EpOp.post, Out.andThen_ok_obs, hp, hc]
    · rw [if_neg hc]
      have hc' : ¬ (stalled = false ∧ e.dir = .Out ∧ ¬ s.primed e = true) := by
        simpa using hc
      simp only [EpOp.ret, EpOp.post, hp, if_neg hc']
      exact ⟨[], rfl⟩

/-- The operations keep the invariant, and the endpoints. -/
theorem op_kept (h : s.WF) (hep : s.ep e = some ep) (o : EpOp) :
    (o.post e ep s).WF ∧ s.Frame (o.post e ep s) := by
  cases o with
  | read buf =>
    have heff := rearm_effect h hep (Nat.le_refl ep.packetLen)
    unfold EpOp.post
    dsimp only
    split
    · exact ⟨h, .refl s⟩
    · exact ⟨heff.wf, heff.frame⟩
  | write buf =>
    have heff := send_effect h hep buf
    unfold EpOp.post
    dsimp only
    split
    · exact ⟨h, .refl s⟩
    · exact ⟨heff.wf, heff.frame⟩
  | stall stalled =>
    have hstall := setStall_effect h e stalled
    have hep' : (s.setStall e stalled).ep e = some ep := hep
    have harm := Effect.arm hstall.wf hep' (Nat.le_refl ep.packetLen)
    unfold EpOp.post
    dsimp only
    split
    · exact ⟨harm.wf, hstall.frame.trans harm.frame⟩
    · exact ⟨hstall.wf, hstall.frame⟩

theorem local_op (o : EpOp) : LocalTo e ep (o.post e ep) := by
  have hFD : Disjoint (footprint e ep) common := footprint_common
  cases o with
  | read buf =>
    refine .ite (Sees.of_view fun v => v.errored ∨ v.primed ∨ ¬ v.signalled) .id ?_
    exact (local_arm _).comp ((local_lower rfl).comp (local_lower rfl) hFD) hFD
  | write buf =>
    have hlen : (buf.take ep.packetLen).length ≤ ep.buffer.len := by
      rw [List.length_take]
      have := packetLen_le ep
      omega
    refine .ite (Sees.of_view fun v => v.errored ∨ v.primed) .id ?_
    exact (local_arm _).comp ((local_store hlen).comp (local_lower rfl) hFD) hFD
  | stall stalled =>
    refine .ite (Sees.of_view fun v => stalled = false ∧ e.dir = .Out ∧ ¬ v.primed) ?_
      (local_setStall stalled)
    exact (local_arm _).comp (local_setStall stalled) hFD

end Operations

/-! ## Independence -/

namespace Sys

/-- What an endpoint has of its own is as it was. -/
structure Untouched (s s' : Sys) (f : EpId) (fp : Endpoint) : Prop where
  td : s'.td f.slot = s.td f.slot
  qh : s'.qh f.slot = s.qh f.slot
  ep : s'.ep f = s.ep f
  buffer : s'.mem.load fp.buffer.ptr fp.buffer.len = s.mem.load fp.buffer.ptr fp.buffer.len
  /-- The endpoint's half of its control register. -/
  ctrl : ∀ i, i / 16 = f.inBit → (s'.reg f.ctrlReg).getLsbD i = (s.reg f.ctrlReg).getLsbD i
  stat : s'.primed f = s.primed f
  complete : s'.completed f = s.completed f
  nak : (s'.reg .ENDPTNAK).getLsbD f.bit = (s.reg .ENDPTNAK).getLsbD f.bit

end Sys

section Independence

variable {s s' : Sys} {e f : EpId} {ep fp : Endpoint}

theorem untouched_of_agree (h : Sys.places.Agree (footprint f fp) s' s) (hep : s'.ep f = s.ep f) :
    s.Untouched s' f fp where
  td := h (.td f.slot) rfl
  qh := h (.qh f.slot) rfl
  ep := hep
  buffer := by
    refine List.map_congr_left fun i hi => ?_
    have hlt := List.mem_range.mp hi
    refine h (.mem _) ⟨?_, ?_⟩ <;> omega
  ctrl := fun i hi => h (.reg f.ctrlReg i) (Or.inr ⟨rfl, hi⟩)
  stat := h (.reg .ENDPTSTAT f.bit) (Or.inl ⟨rfl, rfl⟩)
  complete := h (.reg .ENDPTCOMPLETE f.bit) (Or.inl ⟨rfl, rfl⟩)
  nak := h (.reg .ENDPTNAK f.bit) (Or.inl ⟨rfl, rfl⟩)

/-- An operation on one endpoint after one on another. -/
theorem run_two_ops (h : s.WF) (hc : s.CtrlClean) (hef : e ≠ f) (hep : s.ep e = some ep)
    (hfp : s.ep f = some fp) (x y : EpOp) :
    ∃ o o', run (x.prog e.address) s = ⟨.ok (x.ret ep (s.view e ep)), x.post e ep s, o⟩ ∧
      run (y.prog f.address) (x.post e ep s) =
        ⟨.ok (y.ret fp (s.view f fp)), y.post f fp (x.post e ep s), o'⟩ := by
  obtain ⟨hwf, hframe⟩ := op_kept h hep x
  have hfp' : (x.post e ep s).ep f = some fp := (hframe.ep f).trans hfp
  -- `f` looks the same after the operation on `e`
  have hdisj : Disjoint (footprint e ep) (footprint f fp ∪ common) :=
    Disjoint.union_right (footprint_disjoint h hef hep hfp) footprint_common
  have hview : (x.post e ep s).view f fp = s.view f fp :=
    sees_view.unmoved (local_op x) hdisj hc
  obtain ⟨o, ho⟩ := run_op h hep x
  obtain ⟨o', ho'⟩ := run_op hwf hfp' y
  rw [hview] at ho'
  exact ⟨o, o', ho, ho'⟩

/-- Operations on different endpoints leave each other's endpoint alone, and
    their order makes no difference. -/
theorem endpoints_independent (h : Reachable s) (hef : e ≠ f) (hep : s.ep e = some ep)
    (hfp : s.ep f = some fp) (x y : EpOp) :
    (∃ r t o, run (x.prog e.address) s = ⟨.ok r, t, o⟩ ∧ s.Untouched t f fp) ∧
      ∃ r q t o o',
        run (do
          let r ← x.prog e.address
          let q ← y.prog f.address
          return (r, q)) s = ⟨.ok (r, q), t, o⟩ ∧
        run (do
          let q ← y.prog f.address
          let r ← x.prog e.address
          return (r, q)) s = ⟨.ok (r, q), t, o'⟩ := by
  have hwf := h.wf
  have hc := h.ctrlClean
  have hdisj := footprint_disjoint hwf hef hep hfp
  obtain ⟨o₁, o₂, hx, hy⟩ := run_two_ops hwf hc hef hep hfp x y
  obtain ⟨o₃, o₄, hy', hx'⟩ := run_two_ops hwf hc hef.symm hfp hep y x
  have hcomm : y.post f fp (x.post e ep s) = x.post e ep (y.post f fp s) :=
    (local_op y).comm (local_op x) hdisj.symm footprint_common footprint_common hc
  refine ⟨⟨_, _, o₁, hx, ?_⟩, x.ret ep (s.view e ep), y.ret fp (s.view f fp),
    y.post f fp (x.post e ep s), o₁ ++ o₂, o₃ ++ o₄, ?_, ?_⟩
  · exact untouched_of_agree ((local_op x).agree hdisj hc) ((op_kept hwf hep x).2.ep f)
  · rw [run_bind, hx, Out.andThen_ok_obs, run_bind, hy, Out.andThen_ok_obs, run_pure,
      List.append_nil]
  · rw [run_bind, hy', Out.andThen_ok_obs, run_bind, hx', Out.andThen_ok_obs, run_pure,
      List.append_nil, hcomm]

end Independence

/-- The two halves of number 1: a packet is there to be read from one, and the
    other is free for a write. -/
theorem endpoints_independent_device : ∃ tr s, Run Step device tr s ∧
    ((s.primed bulkOut = false ∧ s.driver.epOut = 2#16 ∧ s.mem.load 0x20200740 2 = [7, 8]) ∧
      s.primed bulkIn = false) ∧
    (∃ r t o, run ((EpOp.read [0, 0, 0]).prog bulkOut.address) s = ⟨.ok r, t, o⟩ ∧
      s.Untouched t bulkIn (deviceEndpoint bulkIn 3 .Bulk)) ∧
    ∃ r q t o o',
      run (do
        let r ← (EpOp.read [0, 0, 0]).prog bulkOut.address
        let q ← (EpOp.write [4, 5]).prog bulkIn.address
        return (r, q)) s = ⟨.ok (r, q), t, o⟩ ∧
      run (do
        let q ← (EpOp.write [4, 5]).prog bulkIn.address
        let r ← (EpOp.read [0, 0, 0]).prog bulkOut.address
        return (r, q)) s = ⟨.ok (r, q), t, o'⟩ := by
  obtain ⟨tr, s, hrun, hs⟩ := exists_run (s := device)
    (p := fun _ s =>
      (s.primed bulkOut = false ∧ s.driver.epOut = 2#16 ∧ s.mem.load 0x20200740 2 = [7, 8]) ∧
        s.primed bulkIn = false)
    [.call .configure, .hw (.outDone 1 [7, 8]), .call .poll] (by decide +kernel)
  have hout : s.ep bulkOut = some (deviceEndpoint bulkOut 2 .Bulk) := by
    rw [ep_device hrun, device_bulkOut]
  have hin : s.ep bulkIn = some (deviceEndpoint bulkIn 3 .Bulk) := by
    rw [ep_device hrun, device_bulkIn]
  have hind := endpoints_independent (device_booted.reachable.run hrun) (by decide) hout hin
    (.read [0, 0, 0]) (.write [4, 5])
  exact ⟨tr, s, hrun, hs, hind⟩

end ImxrtUsbd
