/-
  ImxrtUsbd.Footprint

  Which accesses the functions of the driver perform, read off their text: one
  lemma for each function, for any set `P` of accesses that has those the
  function needs.  What the sets have in common is the class `Access.Looks`;
  `Uses`, `Arms` and `Transfers` are what descriptors and transfers need.

  `Within W` is such a set, by the registers that are written.  The setup buffer
  goes with the register of its latch.
-/
import ImxrtUsbd.Lib.Kept
import ImxrtUsbd.Driver

namespace ImxrtUsbd

open Lib
open EndpointAllocator (endpoint forNonzeroEndpoints)

/-- The control registers of the endpoints. -/
def Reg.isCtrl : Reg → Bool
  | .ENDPTCTRL0 | .ENDPTCTRL _ => true
  | _ => false

/-! ## What functions need -/

/-- Registers, queue heads and the driver's fields may be looked at. -/
class Access.Looks (P : (β : Type) → Access β → Prop) : Prop where
  readReg : ∀ r, P Word (.readReg r)
  loadCapabilities : ∀ i, P Word (.loadCapabilities i)
  getDriver : P Driver .getDriver

/-- The descriptor may be used. -/
structure Uses (P : (β : Type) → Access β → Prop) (t : TdRef) : Prop where
  load : ∀ w, P Word (.loadTd t w)
  store : ∀ w v, P Unit (.storeTd t w v)

/-- Cache lines may be maintained. -/
structure Maintains (P : (β : Type) → Access β → Prop) : Prop where
  line : ∀ a, P Unit (.dccimvac a)
  self : P Nat .addrOfSelf

/-- The half of the per-endpoint registers that is the endpoint's. -/
def Endpoint.half (ep : Endpoint) : Field :=
  match ep.address.direction with
  | .In => txHalf
  | .Out => rxHalf

/-- The endpoint may be armed. -/
structure Arms (P : (β : Type) → Access β → Prop) (ep : Endpoint) : Prop where
  list : Uses P (.list ep.td)
  overlay : Uses P (.overlay ep.qh)
  maintains : Maintains P
  prime : ep.address.index < 32 →
    P Unit (.writeReg .ENDPTPRIME (ep.half.put (1#32 <<< ep.address.index)))

/-- Transfers of the endpoint may be acknowledged and armed. -/
structure Transfers (P : (β : Type) → Access β → Prop) (ep : Endpoint) : Prop extends
    Arms P ep where
  complete : ∀ v, P Unit (.writeReg .ENDPTCOMPLETE v)
  nak : ∀ v, P Unit (.writeReg .ENDPTNAK v)

/-- The registers that `poll` acknowledges through may be written, and the
    driver's fields. -/
structure Polls (P : (β : Type) → Access β → Prop) : Prop where
  status : ∀ v, P Unit (.writeReg .USBSTS v)
  complete : ∀ v, P Unit (.writeReg .ENDPTCOMPLETE v)
  signal : ∀ d, P Unit (.setDriver d)

/-- The latch, the tripwire and the setup buffer may be used. -/
structure TakesSetups (P : (β : Type) → Access β → Prop) : Prop where
  latch : ∀ v, P Unit (.writeReg .ENDPTSETUPSTAT v)
  command : ∀ v, P Unit (.writeReg .USBCMD v)
  setup : ∀ i high, P Word (.loadSetup i high)

section Footprint

variable {P : (β : Type) → Access β → Prop} {α : Type}

/-! ## Macros -/

theorem only_unwrap (o : Option α) : (unwrap o).Only P := .getOr _ o

theorem only_bit32 (i : Nat) : (bit32 i).Only P := .bind (.require _ _) fun _ => .pure _

/-- The bit is known. -/
theorem only_bit32_bind {i : Nat} {f : Word → UsbM α} (h : i < 32 → (f (1#32 <<< i)).Only P) :
    (bit32 i >>= f).Only P := by
  unfold bit32 Prog.require
  split
  · rename_i hi
    exact h hi
  · trivial

theorem only_bit16 (i : Nat) : (bit16 i).Only P := .bind (.require _ _) fun _ => .pure _

theorem only_addU32 (a b : Word) : (addU32 a b).Only P := .bind (.require _ _) fun _ => .pure _

theorem only_addUsize (a b : Nat) : (addUsize a b).Only P := .bind (.require _ _) fun _ => .pure _

theorem only_subUsize (a b : Nat) : (subUsize a b).Only P := .bind (.require _ _) fun _ => .pure _

theorem only_sliceTo (buffer : List Byte) (size : Nat) : (sliceTo buffer size).Only P :=
  .bind (.require _ _) fun _ => .pure _

/-! ## Cache and memory -/

theorem only_cleanInvalidateLines (h : ∀ a, P Unit (.dccimvac a)) (n : Nat) :
    ∀ addr, (cleanInvalidateLines n addr).Only P := by
  induction n with
  | zero => exact fun _ => .pure _
  | succ n ih => exact fun _ => .bind (.access (h _)) fun _ => .bind (only_addUsize _ _) ih

theorem only_cleanInvalidate (h : ∀ a, P Unit (.dccimvac a)) (addr size : Nat) :
    (cleanInvalidateDcacheByAddress addr size).Only P := by
  unfold cleanInvalidateDcacheByAddress
  split
  · exact .pure _
  · exact only_cleanInvalidateLines h _ _

/-- Maintenance of a descriptor or a queue head. -/
theorem only_cleanSelf (h : Maintains P) (size : Nat) :
    (addrOfSelf >>= fun addr => cleanInvalidateDcacheByAddress addr size).Only P :=
  .bind (.access h.self) fun _ => only_cleanInvalidate h.line _ _

theorem only_loadBytes (h : ∀ a, P Byte (.loadByte a)) (n : Nat) :
    ∀ src, (loadBytes src n).Only P := by
  induction n with
  | zero => exact fun _ => .pure _
  | succ n ih => exact fun _ => .bind (.access (h _)) fun _ => .bind (ih _) fun _ => .pure _

theorem only_storeBytes (h : ∀ a b, P Unit (.storeByte a b)) (bs : List Byte) :
    ∀ dst, (storeBytes dst bs).Only P := by
  induction bs with
  | nil => exact fun _ => .pure _
  | cons b bs ih => exact fun _ => .bind (.access (h _ _)) fun _ => ih _

theorem only_volatileRead (h : ∀ a, P Byte (.loadByte a)) (b : Buffer) (buffer : List Byte) :
    (b.volatileRead buffer).Only P :=
  .bind (only_loadBytes h _ _) fun _ => .pure _

theorem only_volatileWrite (h : ∀ a b, P Unit (.storeByte a b)) (b : Buffer)
    (buffer : List Byte) : (b.volatileWrite buffer).Only P :=
  .bind (only_storeBytes h _ _) fun _ => .pure _

/-! ## Descriptors -/

section Uses

variable {t : TdRef}

theorem only_modifyTd (h : Uses P t) (w : TdWord) (f : Field) (v : Word) :
    (modifyTd t w f v).Only P :=
  .bind (.access (h.load w)) fun _ => .access (h.store w _)

theorem only_setBuffer (h : Uses P t) (ptr size : Nat) : (t.setBuffer ptr size).Only P := by
  refine .bind (only_modifyTd h _ _ _) fun _ => .bind (.access (h.store _ _)) fun _ => ?_
  show (if _ then _ else _ : UsbM Unit).Only P
  split
  · exact .bind (.access (h.store _ _)) fun _ => .each (fun idx => .bind (.access (h.load _))
      fun _ => .bind (only_addU32 _ _) fun _ => .access (h.store _ _)) _
  · exact .each (fun idx => .access (h.store _ _)) _

theorem only_status (h : ∀ w, P Word (.loadTd t w)) : t.status.Only P :=
  .bind (.access (h _)) fun _ => .pure _

theorem only_bytesTransferred (h : ∀ w, P Word (.loadTd t w)) : t.bytesTransferred.Only P :=
  .bind (.access (h _)) fun _ => .bind (.access (h _)) fun _ => only_subUsize _ _

end Uses

theorem only_readSetupBuffer {qh : Nat} (h : ∀ high, P Word (.loadSetup qh high)) :
    (Qh.readSetupBuffer qh).Only P :=
  .bind (.access (h _)) fun _ => .bind (.access (h _)) fun _ => .pure _

/-! ## Endpoints -/

section Endpoints

variable {ep : Endpoint}

/-- The register looked up is one of the control registers. -/
theorem only_endpointControl {n : Nat} {f : Reg → UsbM α}
    (h : ∀ r, r.isCtrl = true → (f r).Only P) : (endpointControlRegister n >>= f).Only P := by
  unfold endpointControlRegister
  split
  · exact h _ rfl
  · split
    · exact h _ rfl
    · exact .fail Fault.panic

theorem only_checkErrors (h : ∀ w, P Word (.loadTd (.list ep.td) w)) : ep.checkErrors.Only P := by
  refine .bind (only_status h) fun _ => ?_
  show (if _ then _ else _ : UsbM (Except UsbError Unit)).Only P
  split <;> exact .pure _

theorem only_clearComplete (h : ∀ v, P Unit (.writeReg .ENDPTCOMPLETE v)) :
    ep.clearComplete.Only P := by
  refine .bind (only_bit32 _) fun _ => ?_
  cases ep.address.direction <;> exact .access (h _)

theorem only_clearNack (h : ∀ v, P Unit (.writeReg .ENDPTNAK v)) : ep.clearNack.Only P := by
  refine .bind (only_bit32 _) fun _ => ?_
  cases ep.address.direction <;> exact .access (h _)

end Endpoints

/-! ## Registers -/

section Looks

variable [hl : Access.Looks P]

theorem only_readField (r : Reg) (f : Field) : (readField r f).Only P :=
  .bind (.access (hl.readReg r)) fun _ => .pure _

theorem only_modifyReg {r : Reg} (fs : List (Field × Word)) (h : ∀ v, P Unit (.writeReg r v)) :
    (modifyReg r fs).Only P :=
  .bind (.access (hl.readReg r)) fun _ => .access (h _)

theorem only_writeBack {r : Reg} (h : ∀ v, P Unit (.writeReg r v)) : (writeBack r).Only P :=
  .bind (.access (hl.readReg r)) fun _ => .access (h _)

theorem only_waitZero (r : Reg) : (waitZero r).Only P :=
  .repeatUntil (.bind (.access (hl.readReg r)) fun _ => .pure _)

theorem only_modifyCapabilities {qh : Nat} (h : ∀ v, P Unit (.storeCapabilities qh v)) (f : Field)
    (v : Word) : (Qh.modifyCapabilities qh f v).Only P :=
  .bind (.access (hl.loadCapabilities qh)) fun _ => .access (h _)

section Endpoints

variable (ep : Endpoint)

theorem only_isPrimed : ep.isPrimed.Only P := by
  unfold Endpoint.isPrimed
  dsimp only
  split <;> exact .bind (only_readField _ _) fun _ => .bind (only_bit32 _) fun _ => .pure _

theorem only_maxPacketLen : ep.maxPacketLen.Only P :=
  .bind (.access (hl.loadCapabilities _)) fun _ => .pure _

theorem only_hasSetup : ep.hasSetup.Only P :=
  .bind (.access (hl.readReg _)) fun _ => .bind (only_bit32 _) fun _ => .pure _

theorem only_isStalled : ep.isStalled.Only P := by
  refine only_endpointControl fun r _ => ?_
  cases ep.address.direction <;> exact .bind (only_readField _ _) fun _ => .pure _

theorem only_isEnabled : ep.isEnabled.Only P := by
  unfold Endpoint.isEnabled
  split
  · exact .pure _
  · refine only_endpointControl fun r _ => ?_
    cases ep.address.direction <;> exact .bind (only_readField _ _) fun _ => .pure _

variable {ep}

theorem only_initializeEp (h : ∀ r, r.isCtrl = true → ∀ v, P Unit (.writeReg r v)) :
    ep.initializeEp.Only P := by
  unfold Endpoint.initializeEp
  split
  · refine only_endpointControl fun r hr => ?_
    cases ep.address.direction <;> exact only_modifyReg _ (h r hr)
  · exact .pure _

theorem only_setStalled (stall : Bool) (h : ∀ r, r.isCtrl = true → ∀ v, P Unit (.writeReg r v)) :
    (ep.setStalled stall).Only P := by
  refine only_endpointControl fun r hr => ?_
  cases ep.address.direction <;> exact only_modifyReg _ (h r hr)

theorem only_enable (h : ∀ r, r.isCtrl = true → ∀ v, P Unit (.writeReg r v)) :
    ep.enable.Only P := by
  unfold Endpoint.enable
  split
  · refine only_endpointControl fun r hr => ?_
    cases ep.address.direction <;> exact only_modifyReg _ (h r hr)
  · exact .pure _

theorem only_readSetup (h : TakesSetups P) : ep.readSetup.Only P := by
  refine .bind (only_bit32 _) fun _ => .bind (.access (h.latch _)) fun _ => .repeatUntil ?_
  refine .bind (only_modifyReg _ h.command) fun _ =>
    .bind (only_readSetupBuffer (h.setup _)) fun _ => .bind (only_readField _ _) fun _ => ?_
  show (if _ then _ else _ : UsbM (Option (BitVec 64))).Only P
  split
  · exact .bind (only_modifyReg _ h.command) fun _ => .pure _
  · exact .pure _

theorem only_read (buffer : List Byte) (hload : ∀ w, P Word (.loadTd (.list ep.td) w))
    (hbytes : ∀ front, (ep.buffer.volatileRead front).Only P) : (ep.read buffer).Only P :=
  .bind (only_maxPacketLen ep) fun _ => .bind (only_bytesTransferred hload) fun _ =>
    .bind (only_sliceTo _ _) fun _ => .bind (hbytes _) fun _ => .pure _

theorem only_write (buffer : List Byte) (hline : ∀ a, P Unit (.dccimvac a))
    (hstore : ∀ a b, P Unit (.storeByte a b)) : (ep.write buffer).Only P :=
  .bind (only_maxPacketLen ep) fun _ => .bind (only_sliceTo _ _) fun _ =>
    .bind (only_volatileWrite hstore _ _) fun _ => .bind (only_cleanInvalidate hline _ _) fun _ =>
    .pure _

theorem only_scheduleTransfer (size : Nat) (h : Arms P ep) : (ep.scheduleTransfer size).Only P := by
  refine .bind (.access (h.list.store _ _)) fun _ => .bind (only_setBuffer h.list _ _) fun _ =>
    .bind (only_modifyTd h.list _ _ _) fun _ => .bind (only_modifyTd h.list _ _ _) fun _ =>
    .bind (only_cleanSelf h.maintains _) fun _ => .bind (.access hl.getDriver) fun _ =>
    .bind (.access (h.overlay.store _ _)) fun _ => .bind (only_modifyTd h.overlay _ _ _) fun _ =>
    .bind (only_cleanSelf h.maintains _) fun _ => only_bit32_bind fun hi => ?_
  have hprime := h.prime hi
  dsimp only
  cases hdir : ep.address.direction <;> rw [Endpoint.half, hdir] at hprime <;>
    exact .bind (.access hprime) fun _ => only_waitZero _

end Endpoints

/-! ## The allocator -/

theorem only_checkAllocated (index : Nat) : (EndpointAllocator.checkAllocated index).Only P := by
  refine .bind (.access hl.getDriver) fun _ => ?_
  show (if _ then _ else _ : UsbM (Option Unit)).Only P
  split
  · exact .bind (only_bit16 _) fun _ => .pure _
  · exact .pure _

theorem only_endpoint (addr : EndpointAddress) : (endpoint addr).Only P := by
  refine .bind (only_checkAllocated _) fun found => ?_
  cases found with
  | none => exact .pure _
  | some _ => exact .bind (.access hl.getDriver) fun _ => .bind (.getOr _ _) fun _ => .pure _

theorem only_forNonzeroEndpoints {body : Endpoint → UsbM Unit} (h : ∀ ep, (body ep).Only P) :
    (forNonzeroEndpoints body).Only P := by
  refine .each (fun addr => .bind (only_endpoint addr) fun found => ?_) _
  cases found with
  | none => exact .pure _
  | some ep =>
    show (if _ then _ else _ : UsbM Unit).Only P
    split
    · exact h ep
    · exact .pure _

/-! ## The driver -/

theorem only_isAllocated (addr : EndpointAddress) : (Driver.isAllocated addr).Only P :=
  .bind (only_endpoint addr) fun _ => .pure _

theorem only_enableZlt (addr : EndpointAddress)
    (h : ∀ i v, P Unit (.storeCapabilities i v)) : (Driver.enableZlt addr).Only P := by
  refine .bind (only_endpoint addr) fun found => ?_
  cases found with
  | none => exact .pure _
  | some ep => exact only_modifyCapabilities (h _) _ _

/-- The end of `ep_stall`, which arms an OUT endpoint again. -/
theorem only_rearm {ep : Endpoint} (c : Bool) (h : Arms P ep) : (do
    if c then
      if !(← ep.isPrimed) then
        let maxPacketLen ← ep.maxPacketLen
        ep.scheduleTransfer maxPacketLen : UsbM Unit).Only P := by
  show (if _ then _ else _ : UsbM Unit).Only P
  split
  · refine .bind (only_isPrimed ep) fun primed => ?_
    show (if _ then _ else _ : UsbM Unit).Only P
    split
    · exact .bind (only_maxPacketLen ep) fun _ => only_scheduleTransfer _ h
    · exact .pure _
  · exact .pure _

/-- An endpoint's turn in `prime_endpoints`. -/
theorem only_primeTurn {ep : Endpoint} (h : Arms P ep) : (do
    if (← ep.isEnabled) && ep.address.direction == .Out then
      let maxPacketLen ← ep.maxPacketLen
      ep.scheduleTransfer maxPacketLen : UsbM Unit).Only P := by
  refine .bind (only_isEnabled ep) fun enabled => ?_
  show (if _ then _ else _ : UsbM Unit).Only P
  split
  · exact .bind (only_maxPacketLen ep) fun _ => only_scheduleTransfer _ h
  · exact .pure _

theorem only_setInterrupts (interrupts : Bool) (h : ∀ v, P Unit (.writeReg .USBINTR v)) :
    (Driver.setInterrupts interrupts).Only P := by
  unfold Driver.setInterrupts
  split <;> exact only_modifyReg _ h

section Transfers

variable {ep : Endpoint} {buffer : List Byte}

/-- The common end of the data reads. -/
theorem only_readAndRearm (h : Transfers P ep) (hread : (ep.read buffer).Only P) : (do
    ep.clearComplete
    ep.clearNack
    let read ← ep.read buffer
    let maxPacketLen ← ep.maxPacketLen
    ep.scheduleTransfer maxPacketLen
    return .ok read : UsbM (Except UsbError (Nat × List Byte))).Only P :=
  .bind (only_clearComplete h.complete) fun _ => .bind (only_clearNack h.nak) fun _ =>
    .bind hread fun _ => .bind (only_maxPacketLen ep) fun _ =>
    .bind (only_scheduleTransfer _ h.toArms) fun _ => .pure _

/-- The end of `ctrl0_read` with a SETUP packet. -/
theorem only_armForData (h : Transfers P ep) (taken : Nat × List Byte) : (do
    if !(← ep.isPrimed) then
      ep.clearNack
      let maxPacketLen ← ep.maxPacketLen
      ep.scheduleTransfer maxPacketLen
    return .ok taken : UsbM (Except UsbError (Nat × List Byte))).Only P := by
  refine .bind (only_isPrimed ep) fun primed => ?_
  show (if _ then _ else _ : UsbM (Except UsbError (Nat × List Byte))).Only P
  split
  · exact .bind (only_clearNack h.nak) fun _ => .bind (only_maxPacketLen ep) fun _ =>
      .bind (only_scheduleTransfer _ h.toArms) fun _ => .pure _
  · exact .pure _

/-- What `ctrl0_read` does besides taking a SETUP packet. -/
theorem only_ctrl0Data (h : Transfers P ep) (hread : (ep.read buffer).Only P) : (do
    match ← ep.checkErrors with
    | .error e => return .error e
    | .ok () =>
      if ← ep.isPrimed then
        return .error .WouldBlock
      else
        ep.clearComplete
        ep.clearNack
        let read ← ep.read buffer
        let maxPacketLen ← ep.maxPacketLen
        ep.scheduleTransfer maxPacketLen
        return .ok read : UsbM (Except UsbError (Nat × List Byte))).Only P := by
  refine .bind (only_checkErrors h.list.load) fun errors => ?_
  cases errors with
  | error e => exact .pure _
  | ok _ =>
    refine .bind (only_isPrimed ep) fun primed => ?_
    show (if _ then _ else _ : UsbM (Except UsbError (Nat × List Byte))).Only P
    split
    · exact .pure _
    · exact only_readAndRearm h hread

/-- The rest of `ep_read`, once the endpoint is found. -/
theorem only_epReadFrom (h : Transfers P ep) (hread : (ep.read buffer).Only P) : (do
    match ← ep.checkErrors with
    | .error e => return .error e
    | .ok () =>
      let primed ← ep.isPrimed
      let epOut := (← getDriver).epOut
      let bit ← bit16 ep.address.index
      if primed || epOut &&& bit == 0 then
        return .error .WouldBlock
      else
        ep.clearComplete
        ep.clearNack
        let read ← ep.read buffer
        let maxPacketLen ← ep.maxPacketLen
        ep.scheduleTransfer maxPacketLen
        return .ok read : UsbM (Except UsbError (Nat × List Byte))).Only P := by
  refine .bind (only_checkErrors h.list.load) fun errors => ?_
  cases errors with
  | error e => exact .pure _
  | ok _ =>
    refine .bind (only_isPrimed ep) fun primed => .bind (.access hl.getDriver) fun d =>
      .bind (only_bit16 _) fun bit => ?_
    show (if _ then _ else _ : UsbM (Except UsbError (Nat × List Byte))).Only P
    split
    · exact .pure _
    · exact only_readAndRearm h hread

/-- The end of `ctrl0_write`. -/
theorem only_armBoth (written : Nat) (h : ∀ ep, Transfers P ep) : (do
    ep.scheduleTransfer written
    let ctrlOut ← unwrap (← endpoint ctrlEp0Out)
    if !(← ctrlOut.isPrimed) then
      ctrlOut.clearComplete
      ctrlOut.clearNack
      ctrlOut.scheduleTransfer 0
    return .ok written : UsbM (Except UsbError Nat)).Only P := by
  refine .bind (only_scheduleTransfer _ (h ep).toArms) fun _ => .bind (only_endpoint _) fun found =>
    .bind (only_unwrap found) fun ctrlOut => .bind (only_isPrimed ctrlOut) fun primed => ?_
  show (if _ then _ else _ : UsbM (Except UsbError Nat)).Only P
  split
  · exact .bind (only_clearComplete (h ctrlOut).complete) fun _ =>
      .bind (only_clearNack (h ctrlOut).nak) fun _ =>
      .bind (only_scheduleTransfer _ (h ctrlOut).toArms) fun _ => .pure _
  · exact .pure _

/-- The rest of `ep_write`. -/
theorem only_epWriteTo (h : Transfers P ep) (hwrite : (ep.write buffer).Only P) : (do
    match ← ep.checkErrors with
    | .error e => return .error e
    | .ok () =>
      if ← ep.isPrimed then
        return .error .WouldBlock
      else
        ep.clearNack
        let written ← ep.write buffer
        ep.scheduleTransfer written
        return .ok written : UsbM (Except UsbError Nat)).Only P := by
  refine .bind (only_checkErrors h.list.load) fun errors => ?_
  cases errors with
  | error e => exact .pure _
  | ok _ =>
    refine .bind (only_isPrimed ep) fun primed => ?_
    show (if _ then _ else _ : UsbM (Except UsbError Nat)).Only P
    split
    · exact .pure _
    · exact .bind (only_clearNack h.nak) fun _ => .bind hwrite fun _ =>
        .bind (only_scheduleTransfer _ h.toArms) fun _ => .pure _

end Transfers

theorem only_epRead (buffer : List Byte) (addr : EndpointAddress) (h : ∀ ep, Transfers P ep)
    (hread : ∀ ep : Endpoint, (ep.read buffer).Only P) : (Driver.epRead buffer addr).Only P :=
  .bind (only_endpoint addr) fun found => .bind (only_unwrap found) fun ep =>
    only_epReadFrom (h ep) (hread ep)

theorem only_ctrl0Read (buffer : List Byte) (h : ∀ ep, Transfers P ep) (hs : TakesSetups P)
    (hread : ∀ ep : Endpoint, (ep.read buffer).Only P) : (Driver.ctrl0Read buffer).Only P := by
  refine .bind (only_endpoint _) fun found => .bind (only_unwrap found) fun ep =>
    .bind (only_hasSetup ep) fun pending => ?_
  show (if _ then _ else _ : UsbM (Except UsbError (Nat × List Byte))).Only P
  split
  · exact .bind (only_readSetup hs) fun _ => only_armForData (h ep) _
  · exact only_ctrl0Data (h ep) (hread ep)

theorem only_ctrl0Write (buffer : List Byte) (h : ∀ ep, Transfers P ep)
    (hwrite : ∀ ep : Endpoint, (ep.write buffer).Only P) : (Driver.ctrl0Write buffer).Only P := by
  refine .bind (only_endpoint _) fun found => .bind (only_unwrap found) fun ep =>
    .bind (only_checkErrors (h ep).list.load) fun errors => ?_
  cases errors with
  | error e => exact .pure _
  | ok _ =>
    refine .bind (only_isPrimed ep) fun primed => ?_
    show (if _ then _ else _ : UsbM (Except UsbError Nat)).Only P
    split
    · exact .pure _
    · exact .bind (only_clearNack (h ep).nak) fun _ => .bind (hwrite ep) fun _ => only_armBoth _ h

theorem only_poll (h : Polls P) : Driver.poll.Only P := by
  refine .bind (.access (hl.readReg _)) fun usbsts => ?_
  show (if _ then _ else _ : UsbM PollResult).Only P
  split
  · exact .bind (.access (h.status _)) fun _ => .pure _
  · show (if _ then _ else _ : UsbM PollResult).Only P
    split
    · exact .bind (.access (h.status _)) fun _ => .bind (only_readField _ _) fun _ =>
        .bind (.access hl.getDriver) fun _ => .bind (.access (h.signal _)) fun _ =>
        .bind (only_readField _ _) fun _ => .bind (.access (h.complete _)) fun _ =>
        .bind (.access (hl.readReg _)) fun _ => .pure _
    · exact .pure _

theorem only_busRead (addr : EndpointAddress) (buf : List Byte) (h : ∀ ep, Transfers P ep)
    (hs : TakesSetups P) (hread : ∀ ep : Endpoint, (ep.read buf).Only P) :
    (BusAdapter.read addr buf).Only P := by
  refine .bind (only_isAllocated addr) fun allocated => ?_
  show (if _ then _ else _ : UsbM (Except UsbError (Nat × List Byte))).Only P
  split
  · exact .pure _
  · show (if _ then _ else _ : UsbM (Except UsbError (Nat × List Byte))).Only P
    split
    · exact only_ctrl0Read buf h hs hread
    · exact only_epRead buf addr h hread

theorem only_busWrite (addr : EndpointAddress) (buf : List Byte) (h : ∀ ep, Transfers P ep)
    (hwrite : ∀ ep : Endpoint, (ep.write buf).Only P) : (BusAdapter.write addr buf).Only P := by
  refine .bind (only_isAllocated addr) fun allocated => ?_
  show (if _ then _ else _ : UsbM (Except UsbError Nat)).Only P
  split
  · exact .pure _
  · show (if _ then _ else _ : UsbM (Except UsbError Nat)).Only P
    split
    · exact only_ctrl0Write buf h hwrite
    · exact .bind (only_endpoint addr) fun found => .bind (only_unwrap found) fun ep =>
        only_epWriteTo (h ep) (hwrite ep)

theorem only_busIsStalled (addr : EndpointAddress) : (BusAdapter.isStalled addr).Only P :=
  .bind (only_endpoint addr) fun found => .bind (only_unwrap found) fun ep => only_isStalled ep

end Looks

end Footprint

/-! ## By registers -/

/-- The access writes no register outside `W`, and looks into the setup buffer
    only if `W` has the setup latch. -/
def Access.Within (W : Reg → Prop) : (β : Type) → Access β → Prop
  | _, .writeReg r _ => W r
  | _, .loadSetup _ _ => W .ENDPTSETUPSTAT
  | _, .readReg _ | _, .loadTd _ _ | _, .storeTd _ _ _ | _, .loadCapabilities _
  | _, .storeCapabilities _ _ | _, .loadByte _ | _, .storeByte _ _
  | _, .dccimvac _ | _, .addrOfSelf | _, .getDriver | _, .setDriver _ => True

/-- The program writes no register outside `W`, and looks into the setup buffer
    only if `W` has the setup latch. -/
abbrev Within {α : Type} (W : Reg → Prop) (p : UsbM α) : Prop := p.Only (Access.Within W)

section Within

variable {W : Reg → Prop}

instance : Access.Looks (Access.Within W) := ⟨fun _ => trivial, fun _ => trivial, trivial⟩

theorem within_uses (t : TdRef) : Uses (Access.Within W) t := ⟨fun _ => trivial, fun _ _ => trivial⟩

theorem within_transfers (hcomplete : W .ENDPTCOMPLETE) (hnak : W .ENDPTNAK)
    (hprime : W .ENDPTPRIME) (ep : Endpoint) : Transfers (Access.Within W) ep where
  list := within_uses _
  overlay := within_uses _
  maintains := ⟨fun _ => trivial, trivial⟩
  prime := fun _ => hprime
  complete := fun _ => hcomplete
  nak := fun _ => hnak

theorem within_read (ep : Endpoint) (buffer : List Byte) : Within W (ep.read buffer) :=
  only_read buffer (fun _ => trivial) (only_volatileRead (fun _ => trivial) ep.buffer)

theorem within_write (ep : Endpoint) (buffer : List Byte) : Within W (ep.write buffer) :=
  only_write buffer (fun _ => trivial) fun _ _ => trivial

end Within

end ImxrtUsbd
