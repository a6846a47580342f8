/-
  ImxrtUsbd.ControlWatch

  The control endpoint while the controller is at work between any two accesses
  of every call.

  `ControlWatch` follows what arms the two halves of the control endpoint while a
  SETUP packet is flagged, and what takes them back.  `Watched` is the invariant
  that ties it to the system.  Events keep it (`Watched.event`), and so do
  accesses that leave the control endpoint alone (`calm_triple`); for the
  accesses that do not there is one lemma each.
-/
import ImxrtUsbd.BusyCalls
import ImxrtUsbd.SetupOnce

namespace ImxrtUsbd

open Lib

/-! ## What is followed -/

/-- The event ends the transfer of the endpoint, or cancels it. -/
def HwEvent.ends (e : EpId) : HwEvent → Bool
  | .outDone n _ => e == ⟨.Out, n⟩
  | .inDone n _ => e == ⟨.In, n⟩
  | .error f _ _ _ => e == f
  | .setup _ => e.num == 0
  | .nak _ | .resetBegin | .resetEnd => false

/-- The control endpoint, as far as SETUP packets and responses go. -/
structure ControlWatch where
  /-- A SETUP packet is flagged. -/
  pending : Bool
  /-- The IN half was armed while one was, and the transfer was not taken back. -/
  response : Bool
  /-- The same for the OUT half and its status stage. -/
  status : Bool
  /-- The OUT half was taken back since it was armed last. -/
  lost : Bool
  /-- This call loaded the setup buffer. -/
  took : Bool
  deriving DecidableEq

namespace ControlWatch

def start : ControlWatch := ⟨false, false, false, false, false⟩

/-- Transfers of the IN half and of the OUT half are taken back. -/
def takeBack (d : ControlWatch) (inHalf outHalf : Bool) : ControlWatch :=
  { d with
    response := d.response && !inHalf
    status := d.status && !outHalf
    lost := d.lost || outHalf }

/-- One moment.  `isWrite` says whether the call is a write, which arms the OUT
    half for a status stage. -/
def see (isWrite : Bool) (d : ControlWatch) : Moment HwEvent Seen → ControlWatch
  | .event ev =>
    { d.takeBack (ev.ends .ep0In) (ev.ends .ep0Out) with
      pending := d.pending || setupArrives (.event ev) }
  | .access (.wrote .ENDPTSETUPSTAT v) => { d with pending := d.pending && !v.getLsbD 0 }
  | .access (.wrote .ENDPTFLUSH v) =>
    d.takeBack (v.getLsbD EpId.ep0In.bit) (v.getLsbD EpId.ep0Out.bit)
  | .access (.wrote .ENDPTPRIME v) =>
    { d with
      response := d.response || v.getLsbD EpId.ep0In.bit && d.pending
      status := if v.getLsbD EpId.ep0Out.bit then isWrite && d.pending else d.status
      lost := d.lost && !v.getLsbD EpId.ep0Out.bit }
  | .access (.wrote _ _) => d
  | .access (.loadedSetup _ _) => { d with took := true }

end ControlWatch

def Call.isWrite : Call → Bool
  | .write _ _ => true
  | _ => false

/-- One step. -/
def ControlWatch.step (d : ControlWatch) : BusyLabel → ControlWatch
  | .step (.hw ev) => d.see false (.event ev)
  | .step (.call _ _ _) => d
  | .busy c _ ms => ms.foldl (see c.isWrite) { d with took := false }

/-- A run, from the start. -/
def controlWatch (tr : BusyTrace) : ControlWatch :=
  tr.foldl (fun d x => d.step x.2) .start

theorem controlWatch_snoc (tr : BusyTrace) (s : Sys) (l : BusyLabel) :
    controlWatch (tr ++ [(s, l)]) = (controlWatch tr).step l := by
  rw [controlWatch, List.foldl_append]
  rfl

theorem ControlWatch.took_see (w : Bool) (d : ControlWatch) (ms : Moments) :
    (ms.foldl (ControlWatch.see w) d).took = (d.took || ms.any loadsSetup) := by
  induction ms generalizing d with
  | nil => exact (Bool.or_false _).symm
  | cons m ms ih =>
    have hm : (d.see w m).took = (d.took || loadsSetup m) := by
      cases m with
      | event ev => exact (Bool.or_false _).symm
      | access o =>
        cases o with
        | wrote r v => cases r <;> exact (Bool.or_false _).symm
        | loadedSetup high v => exact (Bool.or_true _).symm
    rw [List.foldl_cons, ih, hm, List.any_cons, Bool.or_assoc]

/-- Driver code among the events of the controller, with `ControlWatch` as the ghost. -/
abbrev control (isWrite : Bool) : World Access Sys Seen HwEvent ControlWatch :=
  watching (ControlWatch.see isWrite)

/-! ## Events -/

namespace HwEvent

variable {s : Sys}

theorem primed_apply (ev : HwEvent) (e : EpId) :
    (ev.apply s).primed e = (s.primed e && !ev.ends e) := by
  have hretire : ∀ (t : Sys) f k status, t.reg .ENDPTSTAT = s.reg .ENDPTSTAT →
      (HwEvent.retire t f k status).primed e = (s.primed e && !(e == f)) := by
    intro t f k status ht
    have hbit : (t.reg .ENDPTSTAT).getLsbD e.bit = true →
        (f.mask.getLsbD e.bit = true ↔ e = f) := by
      intro _
      rw [EpId.getLsbD_mask, decide_eq_true_iff, EpId.bit_inj]
    exact (Sys.getLsbD_lower t .ENDPTSTAT f.mask (e = f) hbit).trans (by rw [ht]; rfl)
  cases ev with
  | outDone n data => exact hretire _ _ _ _ rfl
  | inDone n k => exact hretire _ _ _ _ rfl
  | error f halted dataBuffer transaction => exact hretire _ _ _ _ rfl
  | setup packet =>
    have hbit : (s.reg .ENDPTSTAT).getLsbD e.bit = true →
        ((EpId.ep0Out.mask ||| EpId.ep0In.mask).getLsbD e.bit = true ↔ e.num = 0) := by
      intro _
      rw [BitVec.getLsbD_or, EpId.getLsbD_mask, EpId.getLsbD_mask, Bool.or_eq_true,
        decide_eq_true_iff, decide_eq_true_iff, EpId.bit_inj, EpId.bit_inj]
      obtain ⟨d, n⟩ := e
      cases d <;> simp [EpId.ep0Out, EpId.ep0In]
    exact Sys.getLsbD_lower s .ENDPTSTAT _ (e.num = 0) hbit
  | nak | resetBegin | resetEnd => exact (Bool.and_true _).symm

theorem setupPending_apply (ev : HwEvent) :
    (ev.apply s).setupPending =
      (s.setupPending || setupArrives (.event ev : Moment HwEvent Seen)) := by
  cases ev with
  | setup packet =>
    show (s.reg .ENDPTSETUPSTAT ||| 1).getLsbD 0 = _
    rw [BitVec.getLsbD_or]
    rfl
  | outDone | inDone | error | nak | resetBegin | resetEnd => exact (Bool.or_false _).symm

/-- Only a transfer that is armed is written back. -/
theorem td_apply {ev : HwEvent} {e : EpId} (h : (ev.apply s).primed e = true) :
    (ev.apply s).td e.slot = s.td e.slot := by
  rw [primed_apply, Bool.and_eq_true, Bool.not_eq_true'] at h
  have hne : ∀ f : EpId, (e == f) = false → ∀ t,
      Function.update s.td f.slot t e.slot = s.td e.slot := by
    intro f hf t
    rw [EpId.update_slot, if_neg (by simpa using hf)]
  cases ev with
  | outDone n data => exact hne _ h.2 _
  | inDone n k => exact hne _ h.2 _
  | error f halted dataBuffer transaction => exact hne _ h.2 _
  | setup | nak | resetBegin | resetEnd => rfl

theorem maxPacketLen_apply (ev : HwEvent) (e : EpId) :
    (ev.apply s).maxPacketLen e = s.maxPacketLen e := by
  cases ev with
  | setup packet =>
    show (CAPABILITIES.MAXIMUM_PACKET_LENGTH.get
      (Function.update s.qh 0 { s.qh 0 with setup := packet } e.slot).capabilities).toNat = _
    by_cases h0 : e.slot = 0
    · rw [h0, Function.update_self, Sys.maxPacketLen, h0]
    · rw [Function.update_of_ne h0, Sys.maxPacketLen]
  | outDone | inDone | error | nak | resetBegin | resetEnd => rfl

theorem driver_apply (ev : HwEvent) : (ev.apply s).driver = s.driver := by
  cases ev <;> rfl

/-- A packet that arrives leaves neither half armed. -/
theorem ends_of_setupArrives {ev : HwEvent} {e : EpId} (he : e.num = 0)
    (h : setupArrives (.event ev : Moment HwEvent Seen) = true) : ev.ends e = true := by
  cases ev with
  | setup => exact beq_iff_eq.mpr he
  | _ => simp [setupArrives] at h

/-- No event asks for a controller reset. -/
theorem reset_apply (ev : HwEvent) (h : (s.reg .USBCMD).getLsbD 1 = false) :
    ((ev.apply s).reg .USBCMD).getLsbD 1 = false := by
  cases ev with
  | setup packet =>
    show (s.reg .USBCMD &&& ~~~ USBCMD.SUTW.put 1).getLsbD 1 = false
    rw [BitVec.getLsbD_and, h, Bool.false_and]
  | outDone | inDone | error | nak | resetBegin | resetEnd => exact h

end HwEvent

/-! ## The invariant -/

/-- The ghost and the system.  `A` are the endpoints and `n` is the packet length
    of the OUT half; `k` says that the call under way found a SETUP packet. -/
structure Watched (A : EndpointAllocator) (n : Nat) (k : Bool) (d : ControlWatch) (s : Sys) :
    Prop where
  alloc : s.driver.epAllocator = A
  noReset : (s.reg .USBCMD).getLsbD 1 = false
  packetLen : s.maxPacketLen .ep0Out = n
  pending : s.setupPending = d.pending
  took : d.took = true → k = true
  response : d.response = true → s.primed .ep0In = true
  status : d.status = true →
    s.primed .ep0Out = true ∧ (s.td EpId.ep0Out.slot).totalBytes = 0
  lost : d.lost = true → s.primed .ep0Out = false
  /-- Whatever is armed over a SETUP packet is a response that was armed over it, -/
  responds : k = true ∨ d.pending = true → s.primed .ep0In = true → d.response = true
  /-- and the OUT half waits for a full packet, or for a status stage. -/
  whole : k = true ∨ d.pending = true → s.primed .ep0Out = true → d.status = false →
    (s.td EpId.ep0Out.slot).totalBytes = n

/-- The OUT half is not armed. -/
def OutIdle (_ : ControlWatch) (s : Sys) : Prop := s.primed .ep0Out = false

/-- It is armed, unless it was taken back since. -/
def OutWaits (d : ControlWatch) (s : Sys) : Prop := d.lost = false → s.primed .ep0Out = true

/-- It is not armed, and its descriptor is for a transfer of `size` bytes. -/
def OutPrepared (size : Nat) (d : ControlWatch) (s : Sys) : Prop :=
  OutIdle d s ∧ (s.td EpId.ep0Out.slot).totalBytes = size

/-- What the control endpoint is made of stays the same; the size in the
    descriptor of the OUT half may change if `τ`. -/
structure Sys.SameEp0 (τ : Prop) (s s' : Sys) : Prop where
  alloc : s'.driver.epAllocator = s.driver.epAllocator
  command : s'.reg .USBCMD = s.reg .USBCMD
  latch : s'.reg .ENDPTSETUPSTAT = s.reg .ENDPTSETUPSTAT
  packetLen : s'.maxPacketLen .ep0Out = s.maxPacketLen .ep0Out
  primedIn : s'.primed .ep0In = s.primed .ep0In
  primedOut : s'.primed .ep0Out = s.primed .ep0Out
  total : ¬ τ → (s'.td EpId.ep0Out.slot).totalBytes = (s.td EpId.ep0Out.slot).totalBytes

/-- The assertion is about the control endpoint, and events do not undo it. -/
structure Steady (τ : Prop) (P : ControlWatch → Sys → Prop) : Prop where
  stable : ∀ w, (control w).Stable P
  same : ∀ d s s', s.SameEp0 τ s' → P d s → P d s'

section Steady

variable {τ : Prop} {A : EndpointAllocator} {n size : Nat} {k : Bool} {d : ControlWatch}
  {s s' : Sys}

theorem Sys.SameEp0.weaken (h : s.SameEp0 False s') : s.SameEp0 τ s' :=
  ⟨h.alloc, h.command, h.latch, h.packetLen, h.primedIn, h.primedOut, fun _ => h.total id⟩

theorem Watched.event (h : Watched A n k d s) (w : Bool) (ev : HwEvent) :
    Watched A n k (d.see w (.event ev)) (ev.apply s) where
  alloc := by
    rw [ev.driver_apply]
    exact h.alloc
  noReset := ev.reset_apply h.noReset
  packetLen := (ev.maxPacketLen_apply _).trans h.packetLen
  pending := by
    rw [ev.setupPending_apply, h.pending]
    rfl
  took := h.took
  response := by
    intro hd
    have hd : (d.response && !ev.ends .ep0In) = true := hd
    rw [Bool.and_eq_true] at hd
    rw [ev.primed_apply, h.response hd.1, hd.2]
    rfl
  status := by
    intro hd
    have hd : (d.status && !ev.ends .ep0Out) = true := hd
    rw [Bool.and_eq_true] at hd
    obtain ⟨hp, htotal⟩ := h.status hd.1
    have hp' : (ev.apply s).primed .ep0Out = true := by
      rw [ev.primed_apply, hp, hd.2]
      rfl
    exact ⟨hp', by rw [HwEvent.td_apply hp', htotal]⟩
  lost := by
    intro hd
    have hd : (d.lost || ev.ends .ep0Out) = true := hd
    rw [ev.primed_apply]
    rcases Bool.or_eq_true _ _ ▸ hd with hd | hd
    · rw [h.lost hd, Bool.false_and]
    · rw [hd, Bool.not_true, Bool.and_false]
  responds := by
    intro hk hp
    rw [ev.primed_apply, Bool.and_eq_true] at hp
    show (d.response && !ev.ends .ep0In) = true
    rw [hp.2, Bool.and_true]
    -- a packet that arrives cancels the response, so this event is no arrival
    refine h.responds (hk.imp_right fun hpend => ?_) hp.1
    have hpend : (d.pending || setupArrives (.event ev : Moment HwEvent Seen)) = true := hpend
    rw [Bool.or_eq_true] at hpend
    refine hpend.resolve_right fun ha => ?_
    rw [HwEvent.ends_of_setupArrives rfl ha] at hp
    simp at hp
  whole := by
    intro hk hp hst
    rw [HwEvent.td_apply hp]
    rw [ev.primed_apply, Bool.and_eq_true] at hp
    have hst : (d.status && !ev.ends .ep0Out) = false := hst
    rw [hp.2, Bool.and_true] at hst
    -- and the transfer of the status stage
    refine h.whole (hk.imp_right fun hpend => ?_) hp.1 hst
    have hpend : (d.pending || setupArrives (.event ev : Moment HwEvent Seen)) = true := hpend
    rw [Bool.or_eq_true] at hpend
    refine hpend.resolve_right fun ha => ?_
    rw [HwEvent.ends_of_setupArrives rfl ha] at hp
    simp at hp

theorem steady_watched (A : EndpointAllocator) (n : Nat) (k : Bool) :
    Steady False (Watched A n k) where
  stable := by
    intro w ev d s s' h hev
    obtain ⟨-, rfl⟩ := HwEvent.occur_eq_some hev
    exact h.event w ev
  same := by
    intro d s s' hs h
    have hpend : s'.setupPending = s.setupPending := by
      rw [Sys.setupPending, hs.latch, Sys.setupPending]
    refine ⟨hs.alloc.trans h.alloc, ?_, hs.packetLen.trans h.packetLen, hpend.trans h.pending,
      h.took, ?_, ?_, ?_, ?_, ?_⟩
    · rw [hs.command]
      exact h.noReset
    · rw [hs.primedIn]
      exact h.response
    · rw [hs.primedOut, hs.total id]
      exact h.status
    · rw [hs.primedOut]
      exact h.lost
    · rw [hs.primedIn]
      exact h.responds
    · rw [hs.primedOut, hs.total id]
      exact h.whole

theorem Steady.and {P P' : ControlWatch → Sys → Prop} (h : Steady τ P) (h' : Steady τ P') :
    Steady τ fun d s => P d s ∧ P' d s :=
  ⟨fun w => (h.stable w).and (h'.stable w),
    fun d s s' hs hP => ⟨h.same d s s' hs hP.1, h'.same d s s' hs hP.2⟩⟩

theorem steady_outIdle : Steady True OutIdle where
  stable := by
    intro w ev d s s' h hev
    obtain ⟨-, rfl⟩ := HwEvent.occur_eq_some hev
    have h : s.primed .ep0Out = false := h
    rw [OutIdle, ev.primed_apply, h, Bool.false_and]
  same := fun _ _ _ hs h => hs.primedOut.trans h

/-- A descriptor that is not armed is the driver's. -/
theorem HwEvent.td_idle {ev : HwEvent} (hev : ev.Enabled s) {e : EpId}
    (h : s.primed e = false) : (ev.apply s).td e.slot = s.td e.slot := by
  have hne : ∀ f : EpId, s.primed f = true → ∀ t,
      Function.update s.td f.slot t e.slot = s.td e.slot := by
    intro f hf t
    rw [EpId.update_slot, if_neg]
    rintro rfl
    rw [h] at hf
    simp at hf
  cases ev with
  | outDone n data => exact hne _ hev.1 _
  | inDone n k => exact hne _ hev.1 _
  | error f halted dataBuffer transaction => exact hne _ hev.1 _
  | setup | nak | resetBegin | resetEnd => rfl

/-- While the OUT half is not armed, its descriptor does not matter. -/
theorem steady_idle (A : EndpointAllocator) (n : Nat) (k : Bool) :
    Steady True fun d s => Watched A n k d s ∧ OutIdle d s where
  stable := fun w => ((steady_watched A n k).stable w).and (steady_outIdle.stable w)
  same := by
    rintro d s s' hs ⟨h, hidle⟩
    have hidle : s.primed .ep0Out = false := hidle
    have hidle' : s'.primed .ep0Out = false := hs.primedOut.trans hidle
    have hpend : s'.setupPending = s.setupPending := by
      rw [Sys.setupPending, hs.latch, Sys.setupPending]
    refine ⟨⟨hs.alloc.trans h.alloc, ?_, hs.packetLen.trans h.packetLen, hpend.trans h.pending,
      h.took, ?_, fun hd => ?_, fun _ => hidle', ?_, fun _ hp => ?_⟩, hidle'⟩
    · rw [hs.command]
      exact h.noReset
    · rw [hs.primedIn]
      exact h.response
    · have hp := (h.status hd).1
      rw [hidle] at hp
      simp at hp
    · rw [hs.primedIn]
      exact h.responds
    · rw [hidle'] at hp
      simp at hp

theorem steady_prepared (A : EndpointAllocator) (n : Nat) (k : Bool) (size : Nat) :
    Steady False fun d s => Watched A n k d s ∧ OutPrepared size d s where
  stable := by
    intro w ev d s s' h hev
    refine ⟨(steady_watched A n k).stable w ev d s s' h.1 hev,
      steady_outIdle.stable w ev d s s' h.2.1 hev, ?_⟩
    obtain ⟨henabled, rfl⟩ := HwEvent.occur_eq_some hev
    rw [HwEvent.td_idle henabled h.2.1]
    exact h.2.2
  same := fun d s s' hs h => ⟨(steady_watched A n k).same d s s' hs h.1,
    steady_outIdle.same d s s' hs.weaken h.2.1, (hs.total id).trans h.2.2⟩

theorem steady_outWaits : Steady False OutWaits where
  stable := by
    intro w ev d s s' h hev hlost
    obtain ⟨-, rfl⟩ := HwEvent.occur_eq_some hev
    have hlost : (d.lost || ev.ends .ep0Out) = false := hlost
    rw [Bool.or_eq_false_iff] at hlost
    rw [ev.primed_apply, h hlost.1, hlost.2]
    rfl
  same := fun _ _ _ hs h hlost => hs.primedOut.trans (h hlost)

end Steady

/-! ## Accesses elsewhere -/

/-- The access leaves the control endpoint alone; the size in the descriptor of
    the OUT half may be stored if `τ`. -/
def Access.Calm (τ : Prop) : (β : Type) → Access β → Prop
  | _, .writeReg r v => r ≠ .USBCMD ∧ r ≠ .ENDPTSETUPSTAT ∧ r ≠ .ENDPTFLUSH ∧
      (r = .ENDPTPRIME → v.getLsbD EpId.ep0In.bit = false ∧ v.getLsbD EpId.ep0Out.bit = false)
  | _, .storeTd t w _ => t = .list EpId.ep0Out.slot → w = .TOKEN → τ
  | _, .storeCapabilities _ _ | _, .loadSetup _ _ | _, .setDriver _ => False
  | _, .readReg _ | _, .loadTd _ _ | _, .loadCapabilities _ | _, .loadByte _ | _, .storeByte _ _
  | _, .dccimvac _ | _, .addrOfSelf | _, .getDriver => True

section Calm

variable {τ : Prop} {α β : Type} {s : Sys} {P : ControlWatch → Sys → Prop}

instance : Access.Looks (Access.Calm τ) := ⟨fun _ => trivial, fun _ => trivial, trivial⟩

/-- Registers that may be written as one likes. -/
theorem calm_writeReg {r : Reg} (h : r ≠ .USBCMD ∧ r ≠ .ENDPTSETUPSTAT ∧ r ≠ .ENDPTFLUSH ∧
    r ≠ .ENDPTPRIME) (v : Word) : Access.Calm τ Unit (.writeReg r v) :=
  ⟨h.1, h.2.1, h.2.2.1, fun hr => absurd hr h.2.2.2⟩

theorem calm_ctrl (r : Reg) (hr : r.isCtrl = true) (v : Word) :
    Access.Calm τ Unit (.writeReg r v) := by
  refine calm_writeReg ⟨?_, ?_, ?_, ?_⟩ v <;> rintro rfl <;> simp [Reg.isCtrl] at hr

theorem Sys.sameEp0_setReg (s : Sys) {r : Reg} (v : Word) (hcmd : r ≠ .USBCMD)
    (hlatch : r ≠ .ENDPTSETUPSTAT) (hstat : r ≠ .ENDPTSTAT) : s.SameEp0 τ (s.setReg r v) where
  alloc := rfl
  command := s.reg_setReg_of_ne v hcmd.symm
  latch := s.reg_setReg_of_ne v hlatch.symm
  packetLen := rfl
  primedIn := Sys.primed_of_reg (s.reg_setReg_of_ne v hstat.symm) _
  primedOut := Sys.primed_of_reg (s.reg_setReg_of_ne v hstat.symm) _
  total := fun _ => rfl

/-- A prime of other endpoints. -/
theorem Sys.sameEp0_prime (s : Sys) {v : Word} (hin : v.getLsbD EpId.ep0In.bit = false)
    (hout : v.getLsbD EpId.ep0Out.bit = false) : s.SameEp0 τ (s.writeReg .ENDPTPRIME v) := by
  have hp : ∀ e : EpId, v.getLsbD e.bit = false →
      (s.writeReg .ENDPTPRIME v).primed e = s.primed e := by
    intro e he
    show (s.reg .ENDPTSTAT ||| v).getLsbD e.bit = _
    rw [BitVec.getLsbD_or, he, Bool.or_false, Sys.primed]
  exact ⟨rfl, rfl, rfl, rfl, hp _ hin, hp _ hout, fun _ => rfl⟩

theorem calm_same {e : Access β} (h : e.Calm τ) (s : Sys) :
    s.SameEp0 τ (usbAct e s).2.1 := by
  have hrefl : s.SameEp0 τ s := ⟨rfl, rfl, rfl, rfl, rfl, rfl, fun _ => rfl⟩
  cases e with
  | writeReg r v =>
    obtain ⟨hcmd, hlatch, hflush, hprime⟩ := h
    cases r with
    | USBCMD => exact absurd rfl hcmd
    | ENDPTSETUPSTAT => exact absurd rfl hlatch
    | ENDPTFLUSH => exact absurd rfl hflush
    | ENDPTPRIME => exact s.sameEp0_prime (hprime rfl).1 (hprime rfl).2
    | ENDPTSTAT => exact hrefl
    | _ => exact s.sameEp0_setReg _ (by simp) (by simp) (by simp)
  | storeTd t w v =>
    cases t with
    | list i =>
      refine ⟨rfl, rfl, rfl, rfl, rfl, rfl, fun hτ => ?_⟩
      -- a token is stored only where `τ` allows it
      show (Function.update s.td i ((s.td i).put w v) EpId.ep0Out.slot).totalBytes = _
      by_cases hi : i = EpId.ep0Out.slot
      · subst hi
        rw [Function.update_self]
        cases w with
        | TOKEN => exact absurd (h rfl rfl) hτ
        | _ => rfl
      · rw [Function.update_of_ne (Ne.symm hi)]
    | overlay i =>
      refine ⟨rfl, rfl, rfl, ?_, rfl, rfl, fun _ => rfl⟩
      -- the overlay is in the queue head, beside the packet length
      show (CAPABILITIES.MAXIMUM_PACKET_LENGTH.get (Function.update s.qh i _
        EpId.ep0Out.slot).capabilities).toNat = _
      by_cases hi : i = EpId.ep0Out.slot
      · rw [hi, Function.update_self, Sys.maxPacketLen]
      · rw [Function.update_of_ne (Ne.symm hi), Sys.maxPacketLen]
  | storeCapabilities | loadSetup | setDriver => exact h.elim
  | readReg | loadTd | loadCapabilities | loadByte | storeByte | dccimvac | addrOfSelf
    | getDriver => exact ⟨rfl, rfl, rfl, rfl, rfl, rfl, fun _ => rfl⟩

/-- The ghost does not mind. -/
theorem calm_seen {e : Access β} (h : e.Calm τ) (s : Sys) (w : Bool) (d : ControlWatch) :
    ((see e s).map .access).foldl (ControlWatch.see w) d = d := by
  cases e with
  | writeReg r v =>
    obtain ⟨-, hlatch, hflush, hprime⟩ := h
    show d.see w (.access (.wrote r v)) = d
    cases r with
    | ENDPTSETUPSTAT => exact absurd rfl hlatch
    | ENDPTFLUSH => exact absurd rfl hflush
    | ENDPTPRIME =>
      obtain ⟨hin, hout⟩ := hprime rfl
      simp [ControlWatch.see, hin, hout]
    | _ => rfl
  | loadSetup => exact h.elim
  | readReg | loadTd | storeTd | loadCapabilities | storeCapabilities | loadByte | storeByte
    | dccimvac | addrOfSelf | getDriver | setDriver => rfl

/-- Code that leaves the control endpoint alone keeps what is said of it. -/
theorem calm_triple {w : Bool} {p : UsbM α} (hP : Steady τ P) (hp : p.Only (Access.Calm τ)) :
    (control w).Triple P p fun _ => P := by
  refine .only (hP.stable w) (fun β e d s he h => ?_) hp
  have hseen := calm_seen he s w d
  show P (((see e s).map .access).foldl (ControlWatch.see w) d) _
  rw [hseen]
  exact hP.same d s _ (calm_same he s) h

theorem calm_maintains : Maintains (Access.Calm τ) := ⟨fun _ => trivial, trivial⟩

theorem calm_overlay (i : Nat) : Uses (Access.Calm τ) (.overlay i) :=
  ⟨fun _ => trivial, fun _ _ ht => by simp at ht⟩

theorem calm_list {e : EpId} (he : e ≠ .ep0Out) : Uses (Access.Calm τ) (.list e.slot) := by
  refine ⟨fun _ => trivial, fun w v ht => ?_⟩
  rw [TdRef.list.injEq, EpId.slot_inj] at ht
  exact absurd ht he

/-- The bit that arms an endpoint in its place. -/
theorem Endpoint.At.half_put {ep : Endpoint} {e : EpId} (hat : ep.At e) :
    ep.half.put (1#32 <<< ep.address.index) = e.mask := by
  obtain ⟨d, m⟩ := e
  rw [Endpoint.half, hat.address, EpId.address_direction, EpId.address_index]
  cases d with
  | Out => exact EpId.rxHalf_put m
  | In => exact EpId.txHalf_put m

/-- The transfers of another endpoint leave the control endpoint alone. -/
theorem calm_transfers {ep : Endpoint} {e : EpId} (hat : ep.At e) (h0 : e.num ≠ 0) :
    Transfers (Access.Calm τ) ep where
  list := by
    rw [hat.td]
    refine calm_list ?_
    rintro rfl
    exact h0 rfl
  overlay := calm_overlay _
  maintains := calm_maintains
  prime := by
    intro _
    have hbit : ∀ f : EpId, f.num = 0 → e.mask.getLsbD f.bit = false := by
      intro f hf
      rw [EpId.getLsbD_mask, decide_eq_false_iff_not, EpId.bit_inj]
      rintro rfl
      exact h0 hf
    rw [hat.half_put]
    exact ⟨by simp, by simp, by simp, fun _ => ⟨hbit _ rfl, hbit _ rfl⟩⟩
  complete := calm_writeReg (by simp)
  nak := calm_writeReg (by simp)

end Calm

/-! ## Accesses to the control endpoint -/

theorem Sys.primed_prime (s : Sys) (v : Word) (e : EpId) :
    (s.writeReg .ENDPTPRIME v).primed e = (s.primed e || v.getLsbD e.bit) :=
  BitVec.getLsbD_or ..

theorem Sys.primed_flush (s : Sys) (v : Word) (e : EpId) :
    (s.writeReg .ENDPTFLUSH v).primed e = (s.primed e && !v.getLsbD e.bit) := by
  have h := s.getLsbD_lower .ENDPTSTAT v (v.getLsbD e.bit = true) (j := e.bit) fun _ => Iff.rfl
  rw [Bool.decide_eq_true] at h
  exact h

namespace Watched

variable {A : EndpointAllocator} {n size : Nat} {k w : Bool} {d : ControlWatch} {s : Sys}

/-- What a call leaves to the next one. -/
theorem rest (h : Watched A n k d s) : Watched A n false { d with took := false } s where
  alloc := h.alloc
  noReset := h.noReset
  packetLen := h.packetLen
  pending := h.pending
  took := by rintro ⟨⟩
  response := h.response
  status := h.status
  lost := h.lost
  responds := fun hk => h.responds (Or.inr (hk.resolve_left (by simp)))
  whole := fun hk => h.whole (Or.inr (hk.resolve_left (by simp)))

/-- A SETUP packet is found. -/
theorem found (h : Watched A n false d s) (hp : s.setupPending = true) : Watched A n true d s where
  alloc := h.alloc
  noReset := h.noReset
  packetLen := h.packetLen
  pending := h.pending
  took := fun _ => rfl
  response := h.response
  status := h.status
  lost := h.lost
  responds := fun _ => h.responds (Or.inr (h.pending.symm.trans hp))
  whole := fun _ => h.whole (Or.inr (h.pending.symm.trans hp))

/-- The IN half is armed, with a response. -/
theorem armIn (h : Watched A n false d s) :
    Watched A n false (d.see w (.access (.wrote .ENDPTPRIME EpId.ep0In.mask)))
      (s.writeReg .ENDPTPRIME EpId.ep0In.mask) := by
  have hin : EpId.ep0In.mask.getLsbD EpId.ep0In.bit = true := by decide
  have hout : EpId.ep0In.mask.getLsbD EpId.ep0Out.bit = false := by decide
  have hpout : (s.writeReg .ENDPTPRIME EpId.ep0In.mask).primed .ep0Out = s.primed .ep0Out := by
    rw [s.primed_prime, hout, Bool.or_false]
  -- a response is armed for the packet that is pending
  have hsee : d.see w (.access (.wrote .ENDPTPRIME EpId.ep0In.mask)) =
      { d with response := d.response || d.pending } := by
    simp [ControlWatch.see, hin, hout]
  rw [hsee]
  refine ⟨h.alloc, h.noReset, h.packetLen, h.pending, h.took, fun _ => ?_, ?_, ?_, fun hk _ => ?_,
    ?_⟩
  · rw [s.primed_prime, hin, Bool.or_true]
  · rw [hpout]
    exact h.status
  · rw [hpout]
    exact h.lost
  · show (d.response || d.pending) = true
    rw [hk.resolve_left (by simp), Bool.or_true]
  · rw [hpout]
    exact h.whole

/-- The OUT half is armed: by a write for the status stage, by others for a full packet. -/
theorem armOut (h : Watched A n k d s) (hp : OutPrepared size d s)
    (hw : w = true ∧ size = 0 ∧ k = false ∨ w = false ∧ size = n) :
    Watched A n k (d.see w (.access (.wrote .ENDPTPRIME EpId.ep0Out.mask)))
      (s.writeReg .ENDPTPRIME EpId.ep0Out.mask) := by
  have hin : EpId.ep0Out.mask.getLsbD EpId.ep0In.bit = false := by decide
  have hout : EpId.ep0Out.mask.getLsbD EpId.ep0Out.bit = true := by decide
  have hpin : (s.writeReg .ENDPTPRIME EpId.ep0Out.mask).primed .ep0In = s.primed .ep0In := by
    rw [s.primed_prime, hin, Bool.or_false]
  have hpout : (s.writeReg .ENDPTPRIME EpId.ep0Out.mask).primed .ep0Out = true := by
    rw [s.primed_prime, hout, Bool.or_true]
  have hsee : d.see w (.access (.wrote .ENDPTPRIME EpId.ep0Out.mask)) =
      { d with status := w && d.pending, lost := false } := by
    simp [ControlWatch.see, hin, hout]
  have htotal : ((s.writeReg .ENDPTPRIME EpId.ep0Out.mask).td EpId.ep0Out.slot).totalBytes =
      size := hp.2
  rw [hsee]
  refine ⟨h.alloc, h.noReset, h.packetLen, h.pending, h.took, ?_, fun hst => ⟨hpout, ?_⟩, ?_, ?_,
    fun hk _ hst => ?_⟩
  · rw [hpin]
    exact h.response
  · have hst : (w && d.pending) = true := hst
    rw [Bool.and_eq_true] at hst
    obtain ⟨-, h0, -⟩ := hw.resolve_right (by simp [hst.1])
    rw [htotal, h0]
  · rintro ⟨⟩
  · rw [hpin]
    exact h.responds
  · rw [htotal]
    have hst : (w && d.pending) = false := hst
    rcases hw with ⟨rfl, -, rfl⟩ | ⟨-, hn⟩
    · -- a packet is flagged, so this counts as a status stage over it
      rw [Bool.true_and] at hst
      exact absurd hk (by simp [hst])
    · exact hn

/-- Transfers are flushed. -/
theorem flush (h : Watched A n k d s) (v : Word) :
    Watched A n k (d.see w (.access (.wrote .ENDPTFLUSH v))) (s.writeReg .ENDPTFLUSH v) where
  alloc := h.alloc
  noReset := h.noReset
  packetLen := h.packetLen
  pending := h.pending
  took := h.took
  response := by
    intro hd
    have hd : (d.response && !v.getLsbD EpId.ep0In.bit) = true := hd
    rw [Bool.and_eq_true] at hd
    -- a half that is not flushed stays primed
    rw [s.primed_flush, h.response hd.1, hd.2]
    rfl
  status := by
    intro hd
    have hd : (d.status && !v.getLsbD EpId.ep0Out.bit) = true := hd
    rw [Bool.and_eq_true] at hd
    rw [s.primed_flush, (h.status hd.1).1, hd.2]
    exact ⟨rfl, (h.status hd.1).2⟩
  lost := by
    intro hd
    have hd : (d.lost || v.getLsbD EpId.ep0Out.bit) = true := hd
    rw [s.primed_flush]
    rcases Bool.or_eq_true _ _ ▸ hd with hd | hd
    · rw [h.lost hd, Bool.false_and]
    · rw [hd, Bool.not_true, Bool.and_false]
  responds := by
    intro hk hp
    rw [s.primed_flush, Bool.and_eq_true] at hp
    show (d.response && !v.getLsbD EpId.ep0In.bit) = true
    rw [hp.2, Bool.and_true]
    exact h.responds hk hp.1
  whole := by
    intro hk hp hst
    rw [s.primed_flush, Bool.and_eq_true] at hp
    have hst : (d.status && !v.getLsbD EpId.ep0Out.bit) = false := hst
    rw [hp.2, Bool.and_true] at hst
    exact h.whole hk hp.1 hst

/-- The latch is cleared, for the packet that was found. -/
theorem clearLatch (h : Watched A n true d s) (v : Word) :
    Watched A n true (d.see w (.access (.wrote .ENDPTSETUPSTAT v)))
      (s.writeReg .ENDPTSETUPSTAT v) where
  alloc := h.alloc
  noReset := h.noReset
  packetLen := h.packetLen
  pending := by
    have hlow := s.getLsbD_lower .ENDPTSETUPSTAT v (v.getLsbD 0 = true) (j := 0) fun _ => Iff.rfl
    rw [Bool.decide_eq_true] at hlow
    show _ = (d.pending && !v.getLsbD 0)
    rw [← h.pending]
    exact hlow
  took := h.took
  response := h.response
  status := h.status
  lost := h.lost
  responds := fun _ => h.responds (Or.inl rfl)
  whole := fun _ => h.whole (Or.inl rfl)

/-- The setup buffer is loaded, by a call that found a packet. -/
theorem loadSetup (h : Watched A n true d s) (high : Bool) (v : Word) :
    Watched A n true (d.see w (.access (.loadedSetup high v))) s where
  alloc := h.alloc
  noReset := h.noReset
  packetLen := h.packetLen
  pending := h.pending
  took := fun _ => rfl
  response := h.response
  status := h.status
  lost := h.lost
  responds := h.responds
  whole := h.whole

/-- A command is given that is no controller reset. -/
theorem command (h : Watched A n k d s) {v : Word} (hv : v.getLsbD 1 = false) :
    Watched A n k d (s.writeReg .USBCMD v) := by
  rw [Sys.writeReg_usbcmd s hv]
  refine ⟨h.alloc, ?_, h.packetLen, ?_, h.took, h.response, h.status, h.lost, h.responds, h.whole⟩
  · rw [Sys.reg_setReg_self]
    exact hv
  · exact h.pending

/-- The driver's fields change, but not the endpoints. -/
theorem setDriver (h : Watched A n k d s) {dr : Driver} (hdr : dr.epAllocator = A) :
    Watched A n k d { s with driver := dr } :=
  ⟨hdr, h.noReset, h.packetLen, h.pending, h.took, h.response, h.status, h.lost, h.responds,
    h.whole⟩

/-- The capabilities of a queue head change, but not the packet length of the OUT half. -/
theorem capabilities (h : Watched A n k d s) {i : Nat} {v : Word}
    (hv : EpId.ep0Out.slot = i → (CAPABILITIES.MAXIMUM_PACKET_LENGTH.get v).toNat = n) :
    Watched A n k d
      { s with qh := Function.update s.qh i { s.qh i with capabilities := v } } := by
  refine ⟨h.alloc, h.noReset, ?_, h.pending, h.took, h.response, h.status, h.lost, h.responds,
    h.whole⟩
  show (CAPABILITIES.MAXIMUM_PACKET_LENGTH.get (Function.update s.qh i _
    EpId.ep0Out.slot).capabilities).toNat = n
  by_cases hi : EpId.ep0Out.slot = i
  · rw [hi, Function.update_self]
    exact hv hi
  · rw [Function.update_of_ne hi]
    exact h.packetLen

end Watched

end ImxrtUsbd
