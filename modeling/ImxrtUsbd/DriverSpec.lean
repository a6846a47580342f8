/-
  ImxrtUsbd.DriverSpec

  What each operation of `Driver` and `BusAdapter` does in a state that meets
  the invariant: its result, the state it leaves and what it shows, as one
  equation for each, in terms of the views of the endpoints it is about.
-/
import ImxrtUsbd.Effects

namespace ImxrtUsbd

open Lib
open EndpointAllocator (endpoint forNonzeroEndpoints endpointsIterMut)

/-! ## Looking endpoints up -/

/-- The endpoint of the controller that an address names, if there is one. -/
def EndpointAddress.epId? (a : EndpointAddress) : Option EpId :=
  if h : a.index < 8 then some ⟨a.direction, ⟨a.index, h⟩⟩ else none

theorem EpId.epId?_address (e : EpId) : e.address.epId? = some e := by
  have h : e.address.index < 8 := by
    rw [address_index]
    exact e.num.isLt
  rw [EndpointAddress.epId?, dif_pos h]
  simp

theorem EndpointAddress.epId?_eq_some {a : EndpointAddress} {e : EpId} :
    a.epId? = some e ↔ a = e.address := by
  constructor
  · intro h
    have hlt : a.index < 8 := by
      by_contra hn
      rw [epId?, dif_neg hn] at h
      simp at h
    have hindex : ImxrtUsbd.index a < 16 := by
      unfold ImxrtUsbd.index
      split <;> omega
    obtain ⟨f, rfl⟩ := EpId.exists_of_index_lt hindex
    rw [EpId.epId?_address] at h
    rw [Option.some.inj h]
  · rintro rfl
    exact e.epId?_address

namespace Sys

variable {s : Sys}

/-- The endpoint allocated at an address. -/
def lookup (s : Sys) (a : EndpointAddress) : Option Endpoint := a.epId?.bind s.ep

@[simp] theorem lookup_address (s : Sys) (e : EpId) : s.lookup e.address = s.ep e := by
  rw [lookup, EpId.epId?_address]
  rfl

theorem lookup_eq_some {a : EndpointAddress} {ep : Endpoint} (h : s.lookup a = some ep) :
    ∃ e, a = e.address ∧ s.ep e = some ep := by
  obtain ⟨e, he, hep⟩ := Option.bind_eq_some_iff.mp h
  exact ⟨e, EndpointAddress.epId?_eq_some.mp he, hep⟩

end Sys

/-- What the lookups rely on: the mask says which cells are initialised, and
    there are none beyond the storage. -/
structure Sys.Indexed (s : Sys) : Prop where
  mask : ∀ e, s.driver.epAllocator.allocMask.getLsbD e.slot = (s.ep e).isSome
  slot_lt : ∀ e ep, s.ep e = some ep → e.slot < s.driver.epAllocator.len

theorem Sys.WF.indexed {s : Sys} (h : s.WF) : s.Indexed :=
  ⟨h.mask, fun e ep hep => (h.epOk e ep hep).slot_lt⟩

theorem EndpointAllocator.len_le (a : EndpointAllocator) : a.len ≤ 16 := Nat.min_le_right _ _

/-- Numbers from 8 on have no cell, whatever COUNT is. -/
theorem EndpointAddress.index_ge_of_epId? {a : EndpointAddress} (ha : a.epId? = none) :
    16 ≤ ImxrtUsbd.index a := by
  by_contra hlt
  obtain ⟨e, rfl⟩ := EpId.exists_of_index_lt (Nat.lt_of_not_le hlt)
  rw [EpId.epId?_address] at ha
  simp at ha

section Lookup

variable {s : Sys}

theorem run_checkAllocated (h : s.Indexed) (e : EpId) :
    run (EndpointAllocator.checkAllocated e.slot) s =
      ⟨.ok (if (s.ep e).isSome then some () else none), s, []⟩ := by
  have h16 := e.slot_lt
  by_cases hlt : e.slot < s.driver.epAllocator.len
  · have hbit : ((1#16 <<< e.slot &&& s.driver.epAllocator.allocMask.setWidth 16) != 0) =
        (s.ep e).isSome := by
      rw [BitVec.and_comm, Field.and_bit_ne_zero _ h16, BitVec.getLsbD_setWidth, ← h.mask e]
      simp [h16]
    simp only [EndpointAllocator.checkAllocated, run_bind, run_getDriver, Out.andThen_ok, hlt,
      if_true, run_bit16 h16, run_pure, hbit]
  · -- beyond the storage nothing is allocated
    have hnone : s.ep e = none := by
      rw [Option.eq_none_iff_forall_ne_some]
      intro ep hep
      exact hlt (h.slot_lt e ep hep)
    simp only [EndpointAllocator.checkAllocated, run_bind, run_getDriver, Out.andThen_ok, hlt,
      if_false, run_pure, hnone]
    rfl

/-- The lookup reads the list cell only when it is initialised. -/
theorem Sys.Indexed.run_endpoint (h : s.Indexed) (a : EndpointAddress) :
    run (endpoint a) s = ⟨.ok (s.lookup a), s, []⟩ := by
  cases ha : a.epId? with
  | some e =>
    obtain rfl := EndpointAddress.epId?_eq_some.mp ha
    rw [Sys.lookup_address, endpoint, EpId.index_address, run_bind, run_checkAllocated h,
      Out.andThen_ok]
    cases hep : s.ep e with
    | none => rfl
    | some ep =>
      have hcell : s.driver.epAllocator.epList e.slot = some ep := hep
      simp [hcell]
  | none =>
    have hge := EndpointAddress.index_ge_of_epId? ha
    have hlen : ¬ index a < s.driver.epAllocator.len := by
      have := s.driver.epAllocator.len_le
      omega
    simp only [endpoint, EndpointAllocator.checkAllocated, run_bind, run_getDriver,
      Out.andThen_ok, hlen, if_false, run_pure, Sys.lookup, ha]
    rfl

theorem run_endpoint (h : s.WF) (a : EndpointAddress) :
    run (endpoint a) s = ⟨.ok (s.lookup a), s, []⟩ := h.indexed.run_endpoint a

theorem run_isAllocated (h : s.WF) (a : EndpointAddress) :
    run (Driver.isAllocated a) s = ⟨.ok (s.lookup a).isSome, s, []⟩ := by
  rw [Driver.isAllocated, run_bind, run_endpoint h, Out.andThen_ok, run_pure]

end Lookup

/-! ## Results and states -/

/-- What a data read returns: how many bytes, and the caller's slice. -/
def EpView.fetch (v : EpView) (packetLen : Nat) (buf : List Byte) : Nat × List Byte :=
  let k := min (min packetLen buf.length) (v.size - v.left)
  (k, v.bytes.take k ++ buf.drop k)

namespace Sys

/-- Acknowledge the completion and the NAK of an endpoint and arm it again. -/
def rearm (s : Sys) (e : EpId) (ep : Endpoint) (size : Nat) : Sys :=
  ((s.lower .ENDPTCOMPLETE e.mask).lower .ENDPTNAK e.mask).arm e ep.buffer.ptr size

/-- Put a packet into the buffer of an endpoint and arm it. -/
def send (s : Sys) (e : EpId) (ep : Endpoint) (buf : List Byte) : Sys :=
  Sys.arm
    { s.lower .ENDPTNAK e.mask with mem := s.mem.store ep.buffer.ptr (buf.take ep.packetLen) }
    e ep.buffer.ptr (min ep.packetLen buf.length)

end Sys

theorem packetLen_le (ep : Endpoint) : ep.packetLen ≤ ep.buffer.len := Nat.min_le_left _ _

/-! ## The methods of an allocated endpoint -/

section Endpoints

variable {s : Sys} {e : EpId} {ep : Endpoint}

theorem run_packetLen (h : s.WF) (hep : s.ep e = some ep) :
    run ep.maxPacketLen s = ⟨.ok ep.packetLen, s, []⟩ := by
  have hok := h.epOk e ep hep
  rw [run_maxPacketLen hok.inPlace, hok.mpl]

theorem run_schedule (h : s.WF) (hep : s.ep e = some ep) (size : Nat) :
    run (ep.scheduleTransfer size) s = ⟨.ok (), s.arm e ep.buffer.ptr size, s.armObs e⟩ :=
  run_scheduleTransfer (h.epOk e ep hep).inPlace size h.stack h.prime

theorem run_fetch (h : s.WF) (hep : s.ep e = some ep) (buf : List Byte) :
    run (ep.read buf) s = ⟨.ok ((s.view e ep).fetch ep.packetLen buf), s, []⟩ := by
  -- the invariant keeps `TOTAL_BYTES` at or below `last_transfer_size`
  obtain ⟨hat, -, hmpl, hd⟩ := h.epOk e ep hep
  have hlen : s.maxPacketLen e ≤ ep.buffer.len := by
    rw [hmpl]
    exact packetLen_le ep
  have hsize : s.readSize e buf.length =
      min (min ep.packetLen buf.length) ((s.view e ep).size - (s.view e ep).left) := by
    rw [Sys.readSize, hmpl]
    rfl
  have htake : s.mem.load ep.buffer.ptr (s.readSize e buf.length) =
      (s.view e ep).bytes.take (s.readSize e buf.length) := by
    refine (Mem.take_load _ _ ?_).symm
    have := packetLen_le ep
    rw [hsize]
    omega
  rw [run_read hat hlen hd.left_le, htake, hsize]
  rfl

/-- The state with the endpoint's completion and NAK acknowledged. -/
theorem ackNack_effect (h : s.WF) (e : EpId) :
    Effect s (only e [.ack]) ((s.lower .ENDPTCOMPLETE e.mask).lower .ENDPTNAK e.mask) [] := by
  have hack := Effect.ack h e
  exact (hack.trans (Effect.lower hack.wf e.mask (by simp))).congr fun f => by
    rw [List.append_nil]

/-- Acknowledge, read and re-arm: the common end of both data reads. -/
theorem run_readAndRearm (h : s.WF) (hep : s.ep e = some ep) (buf : List Byte) :
    run (do
      ep.clearComplete
      ep.clearNack
      let read ← ep.read buf
      let maxPacketLen ← ep.maxPacketLen
      ep.scheduleTransfer maxPacketLen
      return (.ok read : Except UsbError (Nat × List Byte))) s =
      ⟨.ok (.ok ((s.view e ep).fetch ep.packetLen buf)), s.rearm e ep ep.packetLen,
        s.armObs e⟩ := by
  have hat := (h.epOk e ep hep).inPlace
  have hack := ackNack_effect h e
  have hep' : ((s.lower .ENDPTCOMPLETE e.mask).lower .ENDPTNAK e.mask).ep e = some ep := hep
  have hfetch : (((s.lower .ENDPTCOMPLETE e.mask).lower .ENDPTNAK e.mask).view e ep).fetch
      ep.packetLen buf = (s.view e ep).fetch ep.packetLen buf := by
    rw [hack.view e ep hep, only_self]
    rfl
  rw [run_bind, run_clearComplete hat, Out.andThen_ok, run_bind, run_clearNack hat,
    Out.andThen_ok, run_bind, run_fetch hack.wf hep', Out.andThen_ok, run_bind,
    run_packetLen hack.wf hep', Out.andThen_ok, run_bind, run_schedule hack.wf hep',
    Out.andThen_ok_obs, run_pure, hfetch, List.append_nil]
  rfl

/-- Acknowledge and arm, without reading. -/
theorem run_ackAndArmThen {α : Type} (h : s.WF) (hep : s.ep e = some ep) (size : Nat)
    (k : UsbM α) :
    run (do
      ep.clearComplete
      ep.clearNack
      ep.scheduleTransfer size
      k) s =
      (Out.mk (.ok ()) (s.rearm e ep size) (s.armObs e)).andThen fun _ s' => run k s' := by
  have hat := (h.epOk e ep hep).inPlace
  rw [run_bind, run_clearComplete hat, Out.andThen_ok, run_bind, run_clearNack hat,
    Out.andThen_ok, run_bind, run_schedule (ackNack_effect h e).wf hep]
  rfl

/-- Put a packet in place and arm it: the common part of both writes. -/
theorem run_sendThen {α : Type} (h : s.WF) (hep : s.ep e = some ep) (buf : List Byte)
    (k : Nat → UsbM α) :
    run (do
      ep.clearNack
      let written ← ep.write buf
      ep.scheduleTransfer written
      k written) s =
      (Out.mk (.ok (min ep.packetLen buf.length)) (s.send e ep buf) (s.armObs e)).andThen
        fun written s' => run (k written) s' := by
  have hnak := Effect.lower h (r := .ENDPTNAK) e.mask (by simp)
  have hok := hnak.wf.epOk e ep hep
  have hlen : (s.lower .ENDPTNAK e.mask).maxPacketLen e ≤ ep.buffer.len := by
    rw [hok.mpl]
    exact packetLen_le ep
  have htake : (buf.take ep.packetLen).length ≤ ep.buffer.len := by
    rw [List.length_take]
    have := packetLen_le ep
    omega
  have hfill := Effect.fill hnak.wf hep htake
  rw [run_bind, run_clearNack hok.inPlace, Out.andThen_ok, run_bind, run_write hok.inPlace hlen,
    hok.mpl, Out.andThen_ok, run_bind, run_schedule hfill.wf hep]
  rfl

theorem rearm_effect (h : s.WF) (hep : s.ep e = some ep) {size : Nat}
    (hsize : size ≤ ep.packetLen) :
    Effect s (only e [.ack, .schedule size]) (s.rearm e ep size) (s.armObs e) := by
  have hack := ackNack_effect h e
  refine (hack.trans (Effect.arm hack.wf hep hsize)).congr fun f => ?_
  rw [only_append]
  rfl

theorem send_effect (h : s.WF) (hep : s.ep e = some ep) (buf : List Byte) :
    Effect s (only e [.fill (buf.take ep.packetLen), .schedule (min ep.packetLen buf.length)])
      (s.send e ep buf) (s.armObs e) := by
  have hnak := Effect.lower h (r := .ENDPTNAK) e.mask (by simp)
  have htake : (buf.take ep.packetLen).length ≤ ep.buffer.len := by
    rw [List.length_take]
    have := packetLen_le ep
    omega
  have hfill := Effect.fill hnak.wf hep htake
  have harm := Effect.arm hfill.wf hep (Nat.min_le_left ep.packetLen buf.length)
  refine ((hnak.trans hfill).trans harm).congr fun f => ?_
  rw [List.nil_append, only_append]
  rfl

end Endpoints

/-! ## Reading and writing -/

section Transfers

variable {s : Sys} {e : EpId} {ep : Endpoint}

theorem run_epRead (h : s.WF) (hep : s.ep e = some ep) (buf : List Byte) :
    run (Driver.epRead buf e.address) s =
      if (s.view e ep).errored then ⟨.ok (.error .InvalidState), s, []⟩
      else if (s.view e ep).primed || !(s.view e ep).signalled then
        ⟨.ok (.error .WouldBlock), s, []⟩
      else ⟨.ok (.ok ((s.view e ep).fetch ep.packetLen buf)), s.rearm e ep ep.packetLen,
        s.armObs e⟩ := by
  have hat := (h.epOk e ep hep).inPlace
  have h16 : e.num.val < 16 := by
    have := e.num.isLt
    omega
  -- the driver tests its copy of the completion bit, not the register
  have hsig : (s.driver.epOut &&& 1#16 <<< e.num.val == 0) = !(s.view e ep).signalled := by
    have := Field.and_bit_ne_zero s.driver.epOut h16
    rw [show (s.view e ep).signalled = s.driver.epOut.getLsbD e.num from rfl, ← this]
    simp [bne]
  rw [Driver.epRead, run_bind, run_endpoint h, Out.andThen_ok, Sys.lookup_address, hep, run_bind,
    run_unwrap_some, Out.andThen_ok, run_bind, run_checkErrors hat, Out.andThen_ok]
  cases herr : (s.td e.slot).errored with
  | true => simp [Sys.view, herr]
  | false =>
    have herrv : (s.view e ep).errored = false := herr
    have hprimed : (s.view e ep).primed = s.primed e := rfl
    simp only [Bool.false_eq_true, if_false, herrv]
    rw [run_bind, run_isPrimed hat, Out.andThen_ok, run_bind, run_getDriver, Out.andThen_ok,
      run_bind, hat.address, EpId.address_index, run_bit16 h16, Out.andThen_ok, hsig, hprimed]
    split
    · rfl
    · exact run_readAndRearm h hep buf

theorem run_epWrite (h : s.WF) (hep : s.ep e = some ep) (buf : List Byte) :
    run (Driver.epWrite buf e.address) s =
      if (s.view e ep).errored then ⟨.ok (.error .InvalidState), s, []⟩
      else if (s.view e ep).primed then ⟨.ok (.error .WouldBlock), s, []⟩
      else ⟨.ok (.ok (min ep.packetLen buf.length)), s.send e ep buf, s.armObs e⟩ := by
  have hat := (h.epOk e ep hep).inPlace
  rw [Driver.epWrite, run_bind, run_endpoint h, Out.andThen_ok, Sys.lookup_address, hep, run_bind,
    run_unwrap_some, Out.andThen_ok, run_bind, run_checkErrors hat, Out.andThen_ok]
  cases herr : (s.td e.slot).errored with
  | true => simp [Sys.view, herr]
  | false =>
    have herrv : (s.view e ep).errored = false := herr
    have hprimed : (s.view e ep).primed = s.primed e := rfl
    simp only [Bool.false_eq_true, if_false, herrv]
    rw [run_bind, run_isPrimed hat, Out.andThen_ok, hprimed]
    split
    · rfl
    · rw [run_sendThen h hep buf, Out.andThen_ok_obs, run_pure, List.append_nil]

/-- The eight bytes of a SETUP packet. -/
def setupBytes (setup : BitVec 64) : List Byte :=
  (List.range 8).map fun i => setup.extractLsb' (8 * i) 8

theorem takeSetup_effect (h : s.WF) : Effect s (fun _ => []) s.takeSetup s.setupObs := by
  have hstat := Effect.lower h (r := .ENDPTSETUPSTAT) 1 (by simp)
  have hcmd := Effect.setReg hstat.wf (r := .USBCMD)
    (v := USBCMD.SUTW.set 0 (s.reg .USBCMD)) (by simp) fun _ => by
      rw [Field.getLsbD_set _ _ _ (by decide), if_neg (by decide), h.rst]
  exact (hstat.trans hcmd).shows (by simp [Sys.setupObs])

theorem run_ctrl0Read (h : s.WF) (hep : s.ep .ep0Out = some ep) (buf : List Byte) :
    run (Driver.ctrl0Read buf) s =
      if s.setupPending && decide (8 ≤ buf.length) then
        if s.primed .ep0Out then
          ⟨.ok (.ok (8, setupBytes (s.qh 0).setup ++ buf.drop 8)), s.takeSetup, s.setupObs⟩
        else
          ⟨.ok (.ok (8, setupBytes (s.qh 0).setup ++ buf.drop 8)),
            (s.takeSetup.lower .ENDPTNAK EpId.ep0Out.mask).arm .ep0Out ep.buffer.ptr ep.packetLen,
            s.setupObs ++ s.armObs .ep0Out⟩
      else if (s.view .ep0Out ep).errored then ⟨.ok (.error .InvalidState), s, []⟩
      else if (s.view .ep0Out ep).primed then ⟨.ok (.error .WouldBlock), s, []⟩
      else ⟨.ok (.ok ((s.view .ep0Out ep).fetch ep.packetLen buf)),
        s.rearm .ep0Out ep ep.packetLen, s.armObs .ep0Out⟩ := by
  have hat := (h.epOk _ ep hep).inPlace
  have haddr : ctrlEp0Out = EpId.ep0Out.address := rfl
  rw [Driver.ctrl0Read, run_bind, run_endpoint h, Out.andThen_ok, haddr, Sys.lookup_address, hep,
    run_bind, run_unwrap_some, Out.andThen_ok, run_bind, run_hasSetup hat, Out.andThen_ok]
  by_cases hsetup : (s.setupPending && decide (8 ≤ buf.length)) = true
  · -- the SETUP branch
    have htake := takeSetup_effect h
    -- taking the packet does not touch `ENDPTSTAT`
    have hprimed : s.takeSetup.primed .ep0Out = s.primed .ep0Out :=
      congrArg EpView.primed (htake.view _ ep hep)
    rw [if_pos hsetup, if_pos hsetup, run_bind, run_readSetup hat h.rst, Out.andThen_ok_obs]
    simp only [run_bind, run_isPrimed hat, Out.andThen_ok, hprimed]
    cases hp : s.primed .ep0Out with
    | true => simp [setupBytes]
    | false =>
      have hnak := Effect.lower htake.wf (r := .ENDPTNAK) EpId.ep0Out.mask (by simp)
      simp only [Bool.not_false, if_true, run_bind, run_clearNack hat, run_packetLen hnak.wf hep,
        run_schedule hnak.wf hep, Out.andThen_ok_obs, run_pure]
      simp [setupBytes, Sys.armObs, Sys.takeSetup, Sys.lower, Sys.setReg]
  · -- the data branch
    rw [if_neg hsetup, if_neg hsetup, run_bind, run_checkErrors hat, Out.andThen_ok]
    cases herr : (s.td EpId.ep0Out.slot).errored with
    | true => simp [Sys.view, herr]
    | false =>
      have herrv : (s.view .ep0Out ep).errored = false := herr
      have hprimed : (s.view .ep0Out ep).primed = s.primed .ep0Out := rfl
      simp only [Bool.false_eq_true, if_false, herrv]
      rw [run_bind, run_isPrimed hat, Out.andThen_ok, hprimed]
      split
      · rfl
      · exact run_readAndRearm h hep buf

/-- The state after a control write has armed the IN half: if the OUT half is
    not armed yet, it is, for the empty packet of the status phase. -/
theorem run_ctrl0Write {epo : Endpoint} (h : s.WF) (hep : s.ep .ep0In = some ep)
    (hepo : s.ep .ep0Out = some epo) (buf : List Byte) :
    run (Driver.ctrl0Write buf) s =
      if (s.view .ep0In ep).errored then ⟨.ok (.error .InvalidState), s, []⟩
      else if (s.view .ep0In ep).primed then ⟨.ok (.error .WouldBlock), s, []⟩
      else if s.primed .ep0Out then
        ⟨.ok (.ok (min ep.packetLen buf.length)), s.send .ep0In ep buf, s.armObs .ep0In⟩
      else
        ⟨.ok (.ok (min ep.packetLen buf.length)), (s.send .ep0In ep buf).rearm .ep0Out epo 0,
          s.armObs .ep0In ++ (s.send .ep0In ep buf).armObs .ep0Out⟩ := by
  have hat := (h.epOk _ ep hep).inPlace
  have hato := (h.epOk _ epo hepo).inPlace
  have hin : ctrlEp0In = EpId.ep0In.address := rfl
  have hout : ctrlEp0Out = EpId.ep0Out.address := rfl
  rw [Driver.ctrl0Write, run_bind, run_endpoint h, Out.andThen_ok, hin, Sys.lookup_address, hep,
    run_bind, run_unwrap_some, Out.andThen_ok, run_bind, run_checkErrors hat, Out.andThen_ok]
  cases herr : (s.td EpId.ep0In.slot).errored with
  | true => simp [Sys.view, herr]
  | false =>
    have herrv : (s.view .ep0In ep).errored = false := herr
    have hpin : (s.view .ep0In ep).primed = s.primed .ep0In := rfl
    simp only [Bool.false_eq_true, if_false, herrv]
    rw [run_bind, run_isPrimed hat, Out.andThen_ok, hpin]
    split
    · rfl
    · -- the status phase, after the IN half is armed
      have hsend := send_effect h hep buf
      have hepo' : (s.send .ep0In ep buf).ep .ep0Out = some epo := hepo
      have hprimed : (s.send .ep0In ep buf).primed .ep0Out = s.primed .ep0Out := by
        have hv := congrArg EpView.primed (hsend.view _ epo hepo)
        rwa [only_of_ne (by decide), EpView.acts_nil] at hv
      rw [run_sendThen h hep buf, Out.andThen_ok_obs, run_bind, run_endpoint hsend.wf,
        Out.andThen_ok, hout, Sys.lookup_address, hepo', run_bind, run_unwrap_some,
        Out.andThen_ok, run_bind, run_isPrimed hato, Out.andThen_ok, hprimed]
      cases hp : s.primed .ep0Out with
      | true => simp
      | false =>
        rw [Bool.not_false, if_pos rfl, run_ackAndArmThen hsend.wf hepo' 0, Out.andThen_ok_obs,
          run_pure, List.append_nil]
        rfl

/-! ## Stalling -/

theorem setStall_effect (h : s.WF) (e : EpId) (stall : Bool) :
    Effect s (fun _ => []) (s.setStall e stall) [] := by
  rcases e.ctrlReg_cases with hc | ⟨i, hc⟩ <;>
    exact Effect.setReg h (by rw [hc]; simp) (by rw [hc]; simp)

theorem run_epStall (h : s.WF) (hep : s.ep e = some ep) (stall : Bool) :
    run (Driver.epStall stall e.address) s =
      if stall = false ∧ e.dir = .Out ∧ s.primed e = false then
        ⟨.ok (), (s.setStall e stall).arm e ep.buffer.ptr ep.packetLen, s.armObs e⟩
      else ⟨.ok (), s.setStall e stall, []⟩ := by
  have hat := (h.epOk _ ep hep).inPlace
  have hstall := setStall_effect h e stall
  have hep' : (s.setStall e stall).ep e = some ep := hep
  have hprimed : (s.setStall e stall).primed e = s.primed e :=
    congrArg EpView.primed (hstall.view _ ep hep)
  rw [Driver.epStall, run_bind, run_endpoint h, Out.andThen_ok, Sys.lookup_address, hep, run_bind,
    run_unwrap_some, Out.andThen_ok, run_bind, run_setStalled hat, Out.andThen_ok,
    EpId.address_direction]
  cases stall with
  | true => simp
  | false =>
    -- an unstall arms an OUT endpoint that is not primed, whatever it holds
    cases hd : e.dir with
    | In => simp
    | Out =>
      simp only [Bool.not_false, Bool.true_and, beq_self_eq_true, if_true, true_and]
      rw [run_bind, run_isPrimed hat, Out.andThen_ok, hprimed]
      cases hp : s.primed e with
      | true => simp
      | false =>
        simp only [Bool.not_false, if_true]
        rw [run_bind, run_packetLen hstall.wf hep', Out.andThen_ok, run_schedule hstall.wf hep',
          Sys.armObs, Sys.armObs]
        have hreg : (s.setStall e false).reg .ENDPTSTAT = s.reg .ENDPTSTAT := by
          rcases e.ctrlReg_cases with hc | ⟨i, hc⟩ <;>
            exact Sys.reg_setReg_of_ne _ _ (by rw [hc]; simp)
        rw [hreg]

theorem run_isEpStalled (h : s.WF) (hep : s.ep e = some ep) :
    run (Driver.isEpStalled e.address) s = ⟨.ok (s.stalled e), s, []⟩ := by
  have hat := (h.epOk _ ep hep).inPlace
  rw [Driver.isEpStalled, run_bind, run_endpoint h, Out.andThen_ok, Sys.lookup_address, hep,
    run_bind, run_unwrap_some, Out.andThen_ok, run_isStalled hat]

end Transfers

end ImxrtUsbd
