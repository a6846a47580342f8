/-
  ImxrtUsbd.OutReads

  What a read of an OUT endpoint returns.  A descriptor that the controller
  completes was armed whole, so `last_transfer_size - TOTAL_BYTES` is the length
  of the packet it stored; this stays so until the endpoint is armed again
  (`EpView.Landed`), and a read takes it out of the endpoint's buffer.

  Which bytes a call loads is noted by a ghost (`Sys.loads`).
-/
import ImxrtUsbd.Confinement
import ImxrtUsbd.OutEndpoint
import ImxrtUsbd.Footprint

namespace ImxrtUsbd

open Lib
open EndpointAllocator (endpoint)

/-! ## A packet in the buffer -/

/-- The last transfer put `data` into the buffer. -/
structure EpView.Landed (v : EpView) (n : Nat) (data : List Byte) : Prop where
  primed : v.primed = false
  errored : v.errored = false
  received : v.size - v.left = data.length
  fits : data.length ≤ n
  bytes : v.bytes.take data.length = data

/-- The action neither moves data nor starts a transfer. -/
def EpAct.Passive : EpAct → Prop
  | .ack | .signal _ | .unprime | .complete => True
  | .schedule _ | .fill _ | .retire _ _ => False

namespace EpView.Landed

variable {v : EpView} {n : Nat} {data : List Byte}

theorem of_received (hleft : v.left = v.size) (hsize : v.size ≤ n) (hlen : data.length ≤ v.left) :
    (v.acts [.fill data, .retire data.length false, .complete]).Landed n data :=
  have h := EpView.Holds.of_received hleft hsize hlen
  ⟨h.primed, h.errored, h.received, h.fits, h.bytes⟩

theorem acts (h : v.Landed n data) {as : List EpAct} (has : ∀ a ∈ as, a.Passive) :
    (v.acts as).Landed n data := by
  induction as generalizing v with
  | nil => exact h
  | cons a as ih =>
    obtain ⟨ha, has⟩ := List.forall_mem_cons.mp has
    refine ih ?_ has
    cases a with
    | ack | signal | complete => exact ⟨h.primed, h.errored, h.received, h.fits, h.bytes⟩
    | unprime => exact ⟨rfl, h.errored, h.received, h.fits, h.bytes⟩
    | schedule | fill | retire => exact ha.elim

end EpView.Landed

/-- A call that does not arm the endpoint moves no data. -/
theorem Call.passive {s : Sys} {e : EpId} {ep : Endpoint} {c : Call}
    (h : ∀ size, .schedule size ∉ c.acts s e ep) : ∀ a ∈ c.acts s e ep, a.Passive := by
  intro a ha
  cases c with
  | poll =>
    rw [Call.acts] at ha
    split at ha
    · simp at ha
    · split at ha <;> simp at ha
      · rcases ha with rfl | rfl <;> trivial
      · subst ha
        trivial
  | reset =>
    rcases List.mem_pair.mp ha with rfl | rfl <;> trivial
  | read | write | setStalled | configure =>
    exfalso
    revert h ha
    rw [Call.acts]
    split_ifs <;> simp
  | isStalled | setDeviceAddress | enable | enableZlt | setInterrupts =>
    exact absurd ha List.not_mem_nil

/-- The controller moves data only for an endpoint that is primed. -/
theorem HwEvent.passive {s : Sys} {e : EpId} {ev : HwEvent} (hev : ev.Enabled s)
    (hp : s.primed e = false) : ∀ a ∈ ev.acts e, a.Passive := by
  have hne : ∀ f, s.primed f = true → e ≠ f := by
    rintro f hf rfl
    rw [hp] at hf
    simp at hf
  intro a ha
  cases ev with
  | outDone n data =>
    rw [HwEvent.acts, only_of_ne (hne _ hev.1)] at ha
    simp at ha
  | inDone n k =>
    rw [HwEvent.acts, only_of_ne (hne _ hev.1)] at ha
    simp at ha
  | error f =>
    rw [HwEvent.acts, only_of_ne (hne _ hev.1)] at ha
    simp at ha
  | setup packet =>
    simp only [HwEvent.acts] at ha
    split at ha
    · obtain rfl := List.mem_singleton.mp ha
      trivial
    · simp at ha
  | nak | resetBegin | resetEnd => exact absurd ha List.not_mem_nil

section Steps

variable {s s' : Sys} {e : EpId} {ep : Endpoint} {l : Label} {data : List Byte}

/-- Until the endpoint is armed again, its packet stays where it is. -/
theorem Step.landed (h : s.WF) (hep : s.ep e = some ep) (hstep : Step s l s')
    (hl : ¬ l.Arms e) (hc : (s.view e ep).Landed ep.packetLen data) :
    (s'.view e ep).Landed ep.packetLen data := by
  rw [hstep.view_eq h hep]
  refine hc.acts ?_
  have hsched : ∀ size, .schedule size ∉ s.acts l e :=
    fun size hmem => hl ((hstep.arms_iff h hep).mpr ⟨size, hmem⟩)
  cases l with
  | hw ev => exact HwEvent.passive hstep.enabled.1 hc.primed
  | call c r obs =>
    rw [Sys.acts_call hep] at hsched ⊢
    exact Call.passive hsched

theorem run_landed {tr : Trace} (hrun : Run Step s tr s') (h : s.WF) (hep : s.ep e = some ep)
    (hquiet : Always (fun _ _ l => ¬ l.Arms e) tr)
    (hc : (s.view e ep).Landed ep.packetLen data) :
    s'.WF ∧ s'.ep e = some ep ∧ (s'.view e ep).Landed ep.packetLen data := by
  refine hrun.invariant (I := fun s => s.WF ∧ s.ep e = some ep ∧
    (s.view e ep).Landed ep.packetLen data) hquiet ⟨h, hep, hc⟩ ?_
  rintro - s₁ l s₂ ⟨h₁, hep₁, hc₁⟩ hl hstep
  exact ⟨hstep.wf h₁, (hstep.ep_eq h₁ e).trans hep₁, hstep.landed h₁ hep₁ hl hc₁⟩

end Steps

/-! ## Which bytes are loaded -/

/-- Endpoint memory is loaded inside the buffer only. -/
def Access.LoadsIn (b : Buffer) : (β : Type) → Access β → Prop
  | _, .loadByte a => b.ptr ≤ a ∧ a < b.ptr + b.len
  | _, .readReg _ | _, .writeReg _ _ | _, .loadTd _ _ | _, .storeTd _ _ _
  | _, .loadCapabilities _ | _, .storeCapabilities _ _ | _, .loadSetup _ _ | _, .storeByte _ _
  | _, .dccimvac _ | _, .addrOfSelf | _, .getDriver | _, .setDriver _ => True

abbrev LoadsIn {α : Type} (b : Buffer) (p : UsbM α) : Prop := p.Only (Access.LoadsIn b)

section LoadsIn

variable {b : Buffer}

instance : Access.Looks (Access.LoadsIn b) := ⟨fun _ => trivial, fun _ => trivial, trivial⟩

theorem loadsIn_transfers (ep : Endpoint) : Transfers (Access.LoadsIn b) ep where
  list := ⟨fun _ => trivial, fun _ _ => trivial⟩
  overlay := ⟨fun _ => trivial, fun _ _ => trivial⟩
  maintains := ⟨fun _ => trivial, trivial⟩
  prime := fun _ => trivial
  complete := fun _ => trivial
  nak := fun _ => trivial

/-- The bytes of a block. -/
theorem loadsIn_loadBytes (n : Nat) : ∀ src, b.ptr ≤ src → src + n ≤ b.ptr + b.len →
    LoadsIn b (loadBytes src n) := by
  induction n with
  | zero => exact fun _ _ _ => .pure _
  | succ n ih =>
    intro src hlo hhi
    exact .bind (.access ⟨hlo, by omega⟩) fun _ =>
      .bind (ih (src + 1) (by omega) (by omega)) fun _ => .pure _

/-- `volatile_read` is asked for as much as the endpoint's buffer has, at most. -/
theorem loadsIn_read (ep : Endpoint) (buffer : List Byte) : LoadsIn ep.buffer (ep.read buffer) := by
  refine only_read buffer (fun _ => trivial) fun front => .bind ?_ fun _ => .pure _
  exact loadsIn_loadBytes _ _ le_rfl (Nat.add_le_add_left (Nat.min_le_right _ _) _)

end LoadsIn

/-- A ghost that notes the bytes loaded. -/
def watchLoads : {β : Type} → Access β → Sys → List Nat → List Nat
  | _, .loadByte a, _, as => as ++ [a]
  | _, .readReg _, _, as | _, .writeReg _ _, _, as | _, .loadTd _ _, _, as
  | _, .storeTd _ _ _, _, as | _, .loadCapabilities _, _, as | _, .storeCapabilities _ _, _, as
  | _, .loadSetup _ _, _, as | _, .storeByte _ _, _, as | _, .dccimvac _, _, as
  | _, .addrOfSelf, _, as | _, .getDriver, _, as | _, .setDriver _, _, as => as

/-- The addresses of the bytes that a program loads. -/
def Sys.loads {α : Type} (s : Sys) (p : UsbM α) : List Nat :=
  (exec (usb.withGhost watchLoads) 1 p (s, [])).post.2

section Loads

variable {α : Type} {s : Sys} {as : List Nat} {b : Buffer}

/-- What is loaded on the way is inside the buffer. -/
def MoreIn (b : Buffer) (x : Sys × List Nat) (_ : List Obs) (y : Sys × List Nat) : Prop :=
  ∃ more, y.2 = x.2 ++ more ∧ ∀ a ∈ more, b.ptr ≤ a ∧ a < b.ptr + b.len

theorem moreIn_composes (b : Buffer) : Composes (MoreIn b) where
  refl := fun x => ⟨[], (List.append_nil _).symm, by simp⟩
  trans := by
    rintro x y z - - ⟨more, hy, hin⟩ ⟨more', hz, hin'⟩
    refine ⟨more ++ more', by rw [hz, hy, List.append_assoc], fun a ha => ?_⟩
    exact (List.mem_append.mp ha).elim (hin a) (hin' a)

theorem moreIn_keeps {p : UsbM α} (h : LoadsIn b p) :
    Keeps (usb.withGhost watchLoads) (MoreIn b) p := by
  refine .of_only (moreIn_composes b) (fun β a x ha => ?_) h
  cases a with
  | loadByte a =>
    refine ⟨[a], rfl, fun a' ha' => ?_⟩
    obtain rfl := List.mem_singleton.mp ha'
    exact ha
  | readReg | writeReg | loadTd | storeTd | loadCapabilities | storeCapabilities | loadSetup
    | storeByte | dccimvac | addrOfSelf | getDriver | setDriver =>
    exact ⟨[], (List.append_nil _).symm, by simp⟩

/-- A program that loads no bytes does not bother the ghost. -/
theorem exec_noLoads {p : UsbM α} (h : LoadsIn ⟨0, 0⟩ p) (s : Sys) (as : List Nat) :
    exec (usb.withGhost watchLoads) 1 p (s, as) =
      ⟨(run p s).res, ((run p s).post, as), (run p s).obs⟩ := by
  have herase : _ = run p s := erase_withGhost usb watchLoads 1 p (s, as)
  obtain ⟨more, hmore, hin⟩ := moreIn_keeps h 1 (s, as)
  have hnil : more = [] := List.eq_nil_iff_forall_not_mem.mpr fun a ha => by
    obtain ⟨-, hlt⟩ : 0 ≤ a ∧ a < 0 + 0 := hin a ha
    omega
  rw [hnil, List.append_nil] at hmore
  rw [← herase]
  generalize exec (usb.withGhost watchLoads) 1 p (s, as) = r at hmore ⊢
  obtain ⟨res, ⟨post, as'⟩, obs⟩ := r
  obtain rfl : as' = as := hmore
  rfl

theorem exec_endpoint (h : s.WF) (addr : EndpointAddress) (as : List Nat) :
    exec (usb.withGhost watchLoads) 1 (endpoint addr) (s, as) =
      ⟨.ok (s.lookup addr), (s, as), []⟩ := by
  rw [exec_noLoads (only_endpoint addr), run_endpoint h]

/-- What follows the lookup of an endpoint. -/
theorem loads_of_lookup {addr : EndpointAddress} {ep : Endpoint} {f : Endpoint → UsbM α}
    (h : s.WF) (hl : s.lookup addr = some ep) (hf : LoadsIn ep.buffer (f ep)) :
    MoreIn ep.buffer (s, as)
      (exec (usb.withGhost watchLoads) 1 (endpoint addr >>= fun found => unwrap found >>= f)
        (s, as)).obs
      (exec (usb.withGhost watchLoads) 1 (endpoint addr >>= fun found => unwrap found >>= f)
        (s, as)).post := by
  rw [exec_bind, exec_endpoint h, Out.andThen_ok, hl]
  exact moreIn_keeps hf 1 (s, as)

theorem loads_busRead {addr : EndpointAddress} {e : EpId} {ep : Endpoint} (h : s.WF)
    (haddr : s.ReadsFrom addr e) (hep : s.ep e = some ep) (buf : List Byte) :
    ∀ a ∈ s.loads (BusAdapter.read addr buf),
      ep.buffer.ptr ≤ a ∧ a < ep.buffer.ptr + ep.buffer.len := by
  obtain ⟨hsome, htarget⟩ := haddr
  have hall : exec (usb.withGhost watchLoads) 1 (Driver.isAllocated addr) (s, []) =
      ⟨.ok true, (s, []), []⟩ := by
    rw [exec_noLoads (only_isAllocated addr), run_isAllocated h, hsome]
  have hmore : MoreIn ep.buffer (s, [])
      (exec (usb.withGhost watchLoads) 1 (BusAdapter.read addr buf) (s, [])).obs
      (exec (usb.withGhost watchLoads) 1 (BusAdapter.read addr buf) (s, [])).post := by
    rw [BusAdapter.read, exec_bind, hall, Out.andThen_ok, Bool.not_true,
      if_neg Bool.false_ne_true]
    split at htarget
    · subst htarget
      rename_i h0
      rw [if_pos h0]
      have hl : s.lookup ctrlEp0Out = some ep := (Sys.lookup_address s .ep0Out).trans hep
      refine loads_of_lookup h hl ?_
      refine .bind (only_hasSetup ep) fun pending => ?_
      show LoadsIn _ (if _ then _ else _)
      split
      · have hs : TakesSetups (Access.LoadsIn ep.buffer) :=
          ⟨fun _ => trivial, fun _ => trivial, fun _ _ => trivial⟩
        exact .bind (only_readSetup hs) fun _ => only_armForData (loadsIn_transfers ep) _
      · exact only_ctrl0Data (loadsIn_transfers ep) (loadsIn_read ep buf)
    · subst htarget
      rename_i h0
      rw [if_neg h0]
      refine loads_of_lookup h ((Sys.lookup_address s e).trans hep) ?_
      exact only_epReadFrom (loadsIn_transfers ep) (loadsIn_read ep buf)
  obtain ⟨more, heq, hin⟩ := hmore
  rw [Sys.loads, heq]
  exact hin

end Loads

/-- An OUT endpoint in a reachable state, after any history: what is left of its
    transfer is never more than it was armed for; a read of it loads bytes of
    its own buffer only; and while it is primed, the controller can complete the
    transfer with any packet it was armed for.  A data read that returns before
    the endpoint is armed again then returns that packet, as far as the slice
    takes it, and leaves the rest of the slice alone. -/
theorem out_read_exact {s : Sys} {e : EpId} {ep : Endpoint} (hs : Reachable s)
    (hep : s.ep e = some ep) (hout : e.dir = .Out) :
    (s.td e.slot).totalBytes ≤ (s.td e.slot).lastTransferSize.toNat ∧
    (∀ addr buf, s.ReadsFrom addr e → ∀ a ∈ s.loads (BusAdapter.read addr buf),
      ep.buffer.ptr ≤ a ∧ a < ep.buffer.ptr + ep.buffer.len) ∧
    ∀ data, s.primed e = true → data.length ≤ (s.td e.slot).lastTransferSize.toNat →
      (HwEvent.outDone e.num data).Enabled s ∧
      ∀ tr s₁ addr buf r obs s₂, Run Step ((HwEvent.outDone e.num data).apply s) tr s₁ →
        Always (fun _ _ l => ¬ l.Arms e) tr → s₁.ReadsFrom addr e → ¬ s₁.TakesSetup e buf →
        Step s₁ (.call (.read addr buf) (.read (.ok r)) obs) s₂ →
        r = (min data.length buf.length,
          data.take (min data.length buf.length) ++ buf.drop (min data.length buf.length)) := by
  have hwf := hs.wf
  have hd := (hwf.epOk e ep hep).td
  refine ⟨hd.left_le, fun addr buf haddr => loads_busRead hwf haddr hep buf,
    fun data hprimed hlen => ?_⟩
  have he : (⟨.Out, e.num⟩ : EpId) = e := by rw [← hout]
  have hwhole := (hs.allFresh e hprimed).whole
  have hev : (HwEvent.outDone e.num data).Enabled s := by
    rw [HwEvent.Enabled, he, hwhole]
    exact ⟨hprimed, hlen⟩
  refine ⟨hev, fun tr s₁ addr buf r obs s₂ hrun hquiet haddr hset hread => ?_⟩
  have hstep : Step s (.hw (.outDone e.num data)) ((HwEvent.outDone e.num data).apply s) := .hw hev
  -- the controller's packet, at the front of the buffer
  have hlanded : (((HwEvent.outDone e.num data).apply s).view e ep).Landed ep.packetLen data := by
    rw [hstep.view_eq hwf hep]
    show ((s.view e ep).acts ((HwEvent.outDone e.num data).acts e)).Landed _ _
    rw [HwEvent.acts, he, only_self]
    exact .of_received hwhole hd.size_le (by rw [← hwhole] at hlen; exact hlen)
  obtain ⟨hwf₁, hep₁, hc₁⟩ := run_landed hrun (hstep.wf hwf) ((hstep.ep_eq hwf e).trans hep)
    hquiet hlanded
  have hret := hread.read_ret hwf₁ haddr hep₁
  rw [Sys.readRet, if_neg hset, hc₁.errored, if_neg Bool.false_ne_true] at hret
  split at hret
  · simp at hret
  · rw [EpView.fetch_eq hc₁.received hc₁.fits hc₁.bytes] at hret
    rw [Except.ok.inj (Ret.read.inj hret), Nat.min_comm]

theorem Label.of_received {l : Label} {n : Fin 8} {data : List Byte}
    (h : l.received n = some data) : l = .hw (.outDone n data) := by
  unfold Label.received at h
  split at h
  · split at h
    · rename_i hn
      rw [hn, Option.some.inj h]
    · simp at h
  · simp at h

theorem Label.of_returned {l : Label} {e : EpId} {buf : List Byte} {r : Nat × List Byte}
    (h : l.returned e = some (buf, r)) :
    ∃ obs, l = .call (.read e.address buf) (.read (.ok r)) obs := by
  unfold Label.returned at h
  split at h
  · split at h
    · rename_i obs haddr
      obtain ⟨hbuf, hr⟩ := Prod.mk.inj (Option.some.inj h)
      exact ⟨obs, by rw [haddr, hbuf, hr]⟩
    · simp at h
  · simp at h

/-- The data stage of a control write: five bytes arrive, a slice of four is read. -/
theorem out_read_exact_device :
    ∃ s, Reachable s ∧ (HwEvent.outDone 0 [1, 2, 3, 4, 5]).Enabled s ∧
      ∃ r obs s₂, Step ((HwEvent.outDone 0 [1, 2, 3, 4, 5]).apply s)
          (.call (.read EpId.ep0Out.address [0, 0, 0, 0]) (.read (.ok r)) obs) s₂ ∧
        r = (4, [1, 2, 3, 4]) := by
  set_option synthInstance.maxSize 400 in
  obtain ⟨tr, s, l, s₁, l', s₂, hrun, hstep, hread, hprimed, hlen, hl, hl', haddr, hset⟩ :=
    exists_two_steps (s := device)
      (p := fun s l s₁ l' _ => s.primed .ep0Out = true ∧
        5 ≤ (s.td EpId.ep0Out.slot).lastTransferSize.toNat ∧
        l.received 0 = some [1, 2, 3, 4, 5] ∧
        (l'.returned .ep0Out).map Prod.fst = some [0, 0, 0, 0] ∧
        s₁.ReadsFrom EpId.ep0Out.address .ep0Out ∧ ¬ s₁.TakesSetup .ep0Out [0, 0, 0, 0])
      [.hw (.setup 0x0005000000002140), .call (.read EpId.ep0Out.address (List.replicate 8 0))]
      (.hw (.outDone 0 [1, 2, 3, 4, 5])) (.call (.read EpId.ep0Out.address [0, 0, 0, 0]))
      (by decide +kernel)
  have hs := device_booted.reachable.run hrun
  have hep : s.ep .ep0Out = some (deviceEndpoint .ep0Out 0 .Control) :=
    (ep_device hrun _).trans device_ep0Out
  obtain rfl := Label.of_received hl
  obtain ⟨⟨buf, r⟩, hret, hbuf⟩ := Option.map_eq_some_iff.mp hl'
  obtain rfl : buf = [0, 0, 0, 0] := hbuf
  obtain ⟨obs, rfl⟩ := Label.of_returned hret
  cases hstep with
  | hw hev =>
    obtain ⟨-, hexact⟩ := (out_read_exact hs hep rfl).2.2 [1, 2, 3, 4, 5] hprimed hlen
    exact ⟨s, hs, hev, r, obs, s₂, hread, hexact _ _ _ _ _ _ _ .nil .nil haddr hset hread⟩

end ImxrtUsbd
