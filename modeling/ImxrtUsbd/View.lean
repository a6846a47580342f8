/-
  ImxrtUsbd.View

  One endpoint at a time.

  - `EpView` is what the results about transfers (`delivered_once_iff`,
    `write_carried`, `out_data_kept_iff`) need to know of an endpoint: whether a
    transfer is armed or complete, what the driver last signalled, how much was
    armed and how much is left, and the endpoint's memory.  `EpAct` is what can
    happen to it.
  - `Sys.WF` is the invariant of the whole system: every allocated endpoint
    sits at its place with its own memory, and its descriptor describes that
    memory.
  - `Effect s acts s' obs` says that the step from `s` to `s'` does `acts e` to
    every endpoint `e`, keeps the invariant, and shows `obs`.  Effects compose,
    so that the effect of driver code is read off its primitive steps.
-/
import ImxrtUsbd.EndpointSpec

namespace ImxrtUsbd

open Lib

/-! ## Endpoint views -/

/-- What there is to see of one endpoint. -/
structure EpView where
  /-- `ENDPTSTAT`: the controller owns the transfer. -/
  primed : Bool
  /-- `ENDPTCOMPLETE` -/
  completed : Bool
  /-- `ep_out` -/
  signalled : Bool
  /-- The descriptor carries an error bit. -/
  errored : Bool
  /-- The size the last transfer was armed with. -/
  size : Nat
  /-- What the descriptor says is left of it. -/
  left : Nat
  /-- The endpoint's buffer. -/
  bytes : List Byte

/-- What can happen to an endpoint. -/
inductive EpAct where
  /-- The completion bit is cleared. -/
  | ack
  /-- A transfer is armed. -/
  | schedule (size : Nat)
  /-- The front of the buffer is overwritten. -/
  | fill (data : List Byte)
  /-- The driver's copy of the completion bit is refreshed. -/
  | signal (b : Bool)
  /-- The transfer is taken back without completing. -/
  | unprime
  /-- The controller writes the descriptor back. -/
  | retire (k : Nat) (error : Bool)
  /-- The completion bit is set. -/
  | complete
  deriving DecidableEq

namespace EpView

def act (v : EpView) : EpAct → EpView
  | .ack => { v with completed := false }
  | .schedule size => { v with primed := true, errored := false, size, left := size }
  | .fill data => { v with bytes := data ++ v.bytes.drop data.length }
  | .signal b => { v with signalled := b }
  | .unprime => { v with primed := false }
  -- the controller lowers what is left, and settles the error bits either way
  | .retire k error => { v with primed := false, left := v.left - k, errored := error }
  | .complete => { v with completed := true }

def acts (v : EpView) (as : List EpAct) : EpView := as.foldl act v

@[simp] theorem acts_nil (v : EpView) : v.acts [] = v := rfl

@[simp] theorem acts_cons (v : EpView) (a : EpAct) (as : List EpAct) :
    v.acts (a :: as) = (v.act a).acts as := rfl

theorem acts_append (v : EpView) (as bs : List EpAct) :
    v.acts (as ++ bs) = (v.acts as).acts bs := List.foldl_append

theorem completed_acts {v : EpView} {as : List EpAct} (hack : .ack ∉ as)
    (hcom : .complete ∉ as) : (v.acts as).completed = v.completed := by
  induction as generalizing v with
  | nil => rfl
  | cons a as ih =>
    rw [List.mem_cons, not_or] at hack hcom
    rw [acts_cons, ih hack.2 hcom.2]
    cases a with
    | ack => exact absurd rfl hack.1
    | complete => exact absurd rfl hcom.1
    | schedule | fill | signal | unprime | retire => rfl

theorem acked_acts {v : EpView} {as : List EpAct} (hack : .ack ∈ as)
    (hcom : .complete ∉ as) : (v.acts as).completed = false := by
  induction as generalizing v with
  | nil => simp at hack
  | cons a as ih =>
    rw [List.mem_cons, not_or] at hcom
    rw [acts_cons]
    by_cases hmem : .ack ∈ as
    · exact ih hmem hcom.2
    · -- the last acknowledgement is this one
      rw [completed_acts hmem hcom.2, ← (List.mem_cons.mp hack).resolve_right hmem]
      rfl

theorem completing_acts {v : EpView} {as : List EpAct} (hack : .ack ∉ as)
    (hcom : .complete ∈ as) : (v.acts as).completed = true := by
  induction as generalizing v with
  | nil => simp at hcom
  | cons a as ih =>
    rw [List.mem_cons, not_or] at hack
    rw [acts_cons]
    by_cases hmem : .complete ∈ as
    · exact ih hack.2 hmem
    · rw [completed_acts hack.2 hmem, ← (List.mem_cons.mp hcom).resolve_right hmem]
      rfl

end EpView

/-- These actions on one endpoint, none on the others. -/
def only (f : EpId) (as : List EpAct) : EpId → List EpAct := fun e => if e = f then as else []

@[simp] theorem only_self (f : EpId) (as : List EpAct) : only f as f = as := if_pos rfl

theorem only_of_ne {e f : EpId} (h : e ≠ f) (as : List EpAct) : only f as e = [] := if_neg h

theorem only_nil (e f : EpId) : only e [] f = [] := by
  unfold only
  split <;> rfl

theorem mem_of_mem_only {e f : EpId} {a : EpAct} {as : List EpAct} (h : a ∈ only f as e) :
    a ∈ as := by
  unfold only at h
  split at h
  · exact h
  · simp at h

namespace Sys

/-- The endpoint allocated at `e`. -/
def ep (s : Sys) (e : EpId) : Option Endpoint := s.driver.epAllocator.epList e.slot

def view (s : Sys) (e : EpId) (ep : Endpoint) : EpView where
  primed := s.primed e
  completed := s.completed e
  signalled := s.driver.epOut.getLsbD e.num
  errored := (s.td e.slot).errored
  size := (s.td e.slot).lastTransferSize.toNat
  left := (s.td e.slot).totalBytes
  bytes := s.mem.load ep.buffer.ptr ep.buffer.len

end Sys

/-! ## The invariant -/

/-- The descriptor describes a transfer of at most `mpl` bytes at `ptr`. -/
structure Td.Describes (t : Td) (ptr mpl : Nat) : Prop where
  left_le : t.totalBytes ≤ t.lastTransferSize.toNat
  size_le : t.lastTransferSize.toNat ≤ mpl
  pointers : t.lastTransferSize.toNat ≠ 0 → ∀ i, t.bufferPointers i = pageWord ptr i.val

/-- The largest packet of an endpoint with this buffer. -/
def Endpoint.packetLen (ep : Endpoint) : Nat := min ep.buffer.len 1024

namespace Sys

/-- An allocated endpoint. -/
structure EpOk (s : Sys) (e : EpId) (ep : Endpoint) : Prop where
  inPlace : ep.At e
  slot_lt : e.slot < s.driver.epAllocator.len
  mpl : s.maxPacketLen e = ep.packetLen
  td : (s.td e.slot).Describes ep.buffer.ptr ep.packetLen

/-- The invariant of the system. -/
structure WF (s : Sys) : Prop where
  stack : s.StackOk
  /-- Primes and flushes are over when the register is read. -/
  prime : s.reg .ENDPTPRIME = 0
  flush : s.reg .ENDPTFLUSH = 0
  /-- No controller reset is going on. -/
  rst : (s.reg .USBCMD).getLsbD 1 = false
  /-- The mask says which cells of the endpoint list are initialised. -/
  mask : ∀ e, s.driver.epAllocator.allocMask.getLsbD e.slot = (s.ep e).isSome
  epOk : ∀ e ep, s.ep e = some ep → s.EpOk e ep
  /-- Buffers do not overlap, and free memory is below all of them. -/
  apart : ∀ e f ep fp, e ≠ f → s.ep e = some ep → s.ep f = some fp →
    ep.buffer.ptr + ep.buffer.len ≤ fp.buffer.ptr ∨ fp.buffer.ptr + fp.buffer.len ≤ ep.buffer.ptr
  heap : ∀ e ep, s.ep e = some ep → s.driver.bufferAllocator.ptr ≤ ep.buffer.ptr
  heap_lt : s.driver.bufferAllocator.ptr < 0xE0000000
  /-- Only allocated endpoints are ever primed. -/
  primed : ∀ e, s.primed e = true → (s.ep e).isSome = true

/-- What a step leaves as it was, of what the invariant speaks about. -/
structure Frame (s s' : Sys) : Prop where
  alloc : s'.driver.epAllocator = s.driver.epAllocator
  heap : s'.driver.bufferAllocator = s.driver.bufferAllocator
  stack : s'.stack = s.stack
  prime : s'.reg .ENDPTPRIME = s.reg .ENDPTPRIME
  flush : s'.reg .ENDPTFLUSH = s.reg .ENDPTFLUSH
  rst : (s.reg .USBCMD).getLsbD 1 = false → (s'.reg .USBCMD).getLsbD 1 = false
  mpl : ∀ e, s'.maxPacketLen e = s.maxPacketLen e

theorem Frame.ep {s s' : Sys} (h : Frame s s') (e : EpId) : s'.ep e = s.ep e := by
  rw [Sys.ep, h.alloc, Sys.ep]

theorem Frame.refl (s : Sys) : Frame s s :=
  ⟨rfl, rfl, rfl, rfl, rfl, id, fun _ => rfl⟩

theorem Frame.trans {s s' s'' : Sys} (h : Frame s s') (h' : Frame s' s'') : Frame s s'' where
  alloc := h'.alloc.trans h.alloc
  heap := h'.heap.trans h.heap
  stack := h'.stack.trans h.stack
  prime := h'.prime.trans h.prime
  flush := h'.flush.trans h.flush
  rst := fun hr => h'.rst (h.rst hr)
  mpl := fun e => (h'.mpl e).trans (h.mpl e)

/-- What is left to show of the invariant after a framed step. -/
theorem WF.of_frame {s s' : Sys} (h : s.WF) (hf : Frame s s')
    (htd : ∀ e ep, s.ep e = some ep → (s'.td e.slot).Describes ep.buffer.ptr ep.packetLen)
    (hp : ∀ e, s'.primed e = true → (s.ep e).isSome = true) : s'.WF where
  stack := by
    have := h.stack
    rwa [StackOk, hf.stack]
  prime := hf.prime.trans h.prime
  flush := hf.flush.trans h.flush
  rst := hf.rst h.rst
  mask := by
    intro e
    rw [hf.alloc, hf.ep]
    exact h.mask e
  epOk := by
    intro e ep hep
    rw [hf.ep] at hep
    have hok := h.epOk e ep hep
    refine ⟨hok.inPlace, ?_, (hf.mpl e).trans hok.mpl, htd e ep hep⟩
    rw [hf.alloc]
    exact hok.slot_lt
  apart := by
    -- buffers and endpoints are framed
    intro e f ep fp hne hep hfp
    rw [hf.ep] at hep hfp
    exact h.apart e f ep fp hne hep hfp
  heap := by
    intro e ep hep
    rw [hf.ep] at hep
    rw [hf.heap]
    exact h.heap e ep hep
  heap_lt := by
    rw [hf.heap]
    exact h.heap_lt
  primed := by
    intro e hpe
    rw [hf.ep]
    exact hp e hpe

end Sys

/-! ## Effects -/

/-- From `s` to `s'`, every allocated endpoint `e` undergoes `acts e`, and the
    primes shown are those of the transfers armed. -/
structure Effect (s : Sys) (acts : EpId → List EpAct) (s' : Sys) (obs : List Obs) : Prop where
  wf : s'.WF
  frame : s.Frame s'
  view : ∀ e ep, s.ep e = some ep → s'.view e ep = (s.view e ep).acts (acts e)
  /-- A prime shown is an endpoint's, and shows whether it was primed before. -/
  prime : ∀ bits stat, Obs.prime bits stat ∈ obs → ∃ e ep pre size post,
    bits = e.mask ∧ s.ep e = some ep ∧ acts e = pre ++ .schedule size :: post ∧
      stat.getLsbD e.bit = ((s.view e ep).acts pre).primed
  /-- Every transfer armed shows its prime. -/
  armed : ∀ e ep size, s.ep e = some ep → .schedule size ∈ acts e →
    ∃ stat, Obs.prime e.mask stat ∈ obs

namespace Effect

variable {s s' s'' : Sys} {acts acts' : EpId → List EpAct} {o o' : List Obs}

theorem refl (h : s.WF) : Effect s (fun _ => []) s [] where
  wf := h
  frame := .refl s
  view := fun _ _ _ => rfl
  prime := by simp
  armed := by simp

theorem trans (h : Effect s acts s' o) (h' : Effect s' acts' s'' o') :
    Effect s (fun e => acts e ++ acts' e) s'' (o ++ o') where
  wf := h'.wf
  frame := h.frame.trans h'.frame
  view := by
    intro e ep hep
    rw [EpView.acts_append, ← h.view e ep hep]
    exact h'.view e ep (by rw [h.frame.ep, hep])
  prime := by
    intro bits stat hmem
    rcases List.mem_append.mp hmem with hmem | hmem
    · obtain ⟨e, ep, pre, size, post, hb, hep, hacts, hst⟩ := h.prime bits stat hmem
      exact ⟨e, ep, pre, size, post ++ acts' e, hb, hep, by rw [hacts]; simp, hst⟩
    · -- the second part's endpoint has gone through all of `acts e` already
      obtain ⟨e, ep, pre, size, post, hb, hep, hacts, hst⟩ := h'.prime bits stat hmem
      rw [h.frame.ep] at hep
      refine ⟨e, ep, acts e ++ pre, size, post, hb, hep, by rw [hacts]; simp, ?_⟩
      rw [EpView.acts_append, ← h.view e ep hep]
      exact hst
  armed := by
    intro e ep size hep hmem
    rcases List.mem_append.mp hmem with hmem | hmem
    · obtain ⟨stat, hs⟩ := h.armed e ep size hep hmem
      exact ⟨stat, List.mem_append_left _ hs⟩
    · obtain ⟨stat, hs⟩ := h'.armed e ep size (by rw [h.frame.ep, hep]) hmem
      exact ⟨stat, List.mem_append_right _ hs⟩

theorem congr (h : Effect s acts s' o) (ha : ∀ e, acts e = acts' e) : Effect s acts' s' o := by
  rwa [← funext ha]

/-- Only what is said of allocated endpoints matters. -/
theorem congr_allocated (h : Effect s acts s' o)
    (ha : ∀ e ep, s.ep e = some ep → acts e = acts' e) : Effect s acts' s' o where
  wf := h.wf
  frame := h.frame
  view := by
    intro e ep hep
    rw [← ha e ep hep]
    exact h.view e ep hep
  prime := by
    intro bits stat hmem
    obtain ⟨e, ep, pre, size, post, hb, hep, hacts, hst⟩ := h.prime bits stat hmem
    exact ⟨e, ep, pre, size, post, hb, hep, (ha e ep hep).symm.trans hacts, hst⟩
  armed := by
    intro e ep size hep hmem
    rw [← ha e ep hep] at hmem
    exact h.armed e ep size hep hmem

/-- A step that arms nothing. -/
theorem quiet (hwf : s'.WF) (hf : s.Frame s')
    (hv : ∀ e ep, s.ep e = some ep → s'.view e ep = (s.view e ep).acts (acts e))
    (hs : ∀ e size, EpAct.schedule size ∉ acts e) : Effect s acts s' [] where
  wf := hwf
  frame := hf
  view := hv
  prime := by simp
  armed := fun e _ size _ hmem => absurd hmem (hs e size)

/-- Observations other than primes do not matter. -/
theorem shows (h : Effect s acts s' []) (ho : ∀ bits stat, Obs.prime bits stat ∉ o) :
    Effect s acts s' o where
  wf := h.wf
  frame := h.frame
  view := h.view
  prime := fun bits stat hmem => absurd hmem (ho bits stat)
  armed := by
    intro e ep size hep hmem
    obtain ⟨stat, hs⟩ := h.armed e ep size hep hmem
    simp at hs

end Effect

end ImxrtUsbd
