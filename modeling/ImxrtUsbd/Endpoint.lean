/-
  ImxrtUsbd.Endpoint

  `endpoint.rs` and `state.rs`: one endpoint's registers, descriptors and
  buffer, and the allocator that hands endpoints out.
-/
import ImxrtUsbd.Descriptor

namespace ImxrtUsbd

open Lib

/-! ## endpoint.rs -/

/-- `endpoint_control::register` (`ral.rs`). -/
def endpointControlRegister (endpoint : Nat) : UsbM Reg :=
  if endpoint = 0 then
    return .ENDPTCTRL0
  else if h : endpoint - 1 < 7 then
    return .ENDPTCTRL ⟨endpoint - 1, h⟩
  else
    .fail .panic

/-- Bits 0..1 of the attributes are the transfer type. -/
def intoRawEndpointType (epType : EndpointType) : Word :=
  (epType.toBmAttributes &&& 0b11#8).setWidth 32

namespace Endpoint

def new (address : EndpointAddress) (qh td : Nat) (buffer : Buffer) (kind : EndpointType) :
    UsbM Endpoint := do
  let maxPacketSize := buffer.len
  Qh.setZeroLengthTermination qh false
  Qh.setMaxPacketLen qh maxPacketSize
  Qh.setInterruptOnSetup qh (kind == .Control && address.direction == .Out)
  (TdRef.list td).setTerminate
  (TdRef.list td).clearStatus
  return { address, qh, td, buffer, kind }

def enableZlt (self : Endpoint) : UsbM Unit :=
  Qh.setZeroLengthTermination self.qh true

def isPrimed (self : Endpoint) : UsbM Bool := do
  let primed ← match self.address.direction with
    | .In => readField .ENDPTSTAT ENDPTSTAT.ETBR
    | .Out => readField .ENDPTSTAT ENDPTSTAT.ERBR
  let bit ← bit32 self.address.index
  return primed &&& bit != 0

def checkErrors (self : Endpoint) : UsbM (Except UsbError Unit) := do
  let status ← (TdRef.list self.td).status
  if Status.contains status Status.TRANSACTION_ERROR
      || Status.contains status Status.DATA_BUFFER_ERROR
      || Status.contains status Status.HALTED then
    return .error .InvalidState
  else
    return .ok ()

/-- `Endpoint::initialize` -/
def initializeEp (self : Endpoint) : UsbM Unit := do
  if self.address.index ≠ 0 then
    let endptctrl ← endpointControlRegister self.address.index
    match self.address.direction with
    | .In =>
      modifyReg endptctrl [(ENDPTCTRL.TXE, 0), (ENDPTCTRL.TXT, intoRawEndpointType .Bulk)]
    | .Out =>
      modifyReg endptctrl [(ENDPTCTRL.RXE, 0), (ENDPTCTRL.RXT, intoRawEndpointType .Bulk)]

def maxPacketLen (self : Endpoint) : UsbM Nat :=
  Qh.maxPacketLen self.qh

def hasSetup (self : Endpoint) : UsbM Bool := do
  let setupstat ← readReg .ENDPTSETUPSTAT
  let bit ← bit32 self.address.index
  return setupstat &&& bit != 0

/-- The setup tripwire loop. -/
def readSetup (self : Endpoint) : UsbM (BitVec 64) := do
  -- acknowledged before the buffer is read, as the source argues
  writeReg .ENDPTSETUPSTAT (← bit32 self.address.index)
  .repeatUntil do
    modifyReg .USBCMD [(USBCMD.SUTW, 1)]
    let setup ← Qh.readSetupBuffer self.qh
    if (← readField .USBCMD USBCMD.SUTW) == 1 then
      modifyReg .USBCMD [(USBCMD.SUTW, 0)]
      return some setup
    else
      return none

/-- Returns how many bytes were read, and the caller's slice afterwards. -/
def read (self : Endpoint) (buffer : List Byte) : UsbM (Nat × List Byte) := do
  let maxPacketLen ← Qh.maxPacketLen self.qh
  let size := min (min maxPacketLen buffer.length) (← (TdRef.list self.td).bytesTransferred)
  let front ← sliceTo buffer size
  let (read, front) ← self.buffer.volatileRead front
  return (read, front ++ buffer.drop size)

def write (self : Endpoint) (buffer : List Byte) : UsbM Nat := do
  let size := min (← Qh.maxPacketLen self.qh) buffer.length
  let written ← self.buffer.volatileWrite (← sliceTo buffer size)
  self.buffer.cleanInvalidateDcache size
  return written

def clearComplete (self : Endpoint) : UsbM Unit := do
  let bit ← bit32 self.address.index
  match self.address.direction with
  | .In => writeField .ENDPTCOMPLETE ENDPTCOMPLETE.ETCE bit
  | .Out => writeField .ENDPTCOMPLETE ENDPTCOMPLETE.ERCE bit

def scheduleTransfer (self : Endpoint) (size : Nat) : UsbM Unit := do
  let td := TdRef.list self.td
  td.setTerminate
  td.setBuffer self.buffer.ptr size
  td.setInterruptOnComplete true
  td.setActive
  td.cleanInvalidateDcache
  let overlay := TdRef.overlay self.qh
  -- A reference to element `td` of the TD list is its address.
  overlay.setNext ((← getDriver).epAllocator.tdList + 32 * self.td)
  overlay.clearStatus
  Qh.cleanInvalidateDcache self.qh
  let bit ← bit32 self.address.index
  match self.address.direction with
  | .In => writeField .ENDPTPRIME ENDPTPRIME.PETB bit
  | .Out => writeField .ENDPTPRIME ENDPTPRIME.PERB bit
  waitZero .ENDPTPRIME

def setStalled (self : Endpoint) (stall : Bool) : UsbM Unit := do
  let endptctrl ← endpointControlRegister self.address.index
  match self.address.direction with
  | .In => modifyReg endptctrl [(ENDPTCTRL.TXS, if stall then 1 else 0)]
  | .Out => modifyReg endptctrl [(ENDPTCTRL.RXS, if stall then 1 else 0)]

def isStalled (self : Endpoint) : UsbM Bool := do
  let endptctrl ← endpointControlRegister self.address.index
  match self.address.direction with
  | .In => return (← readField endptctrl ENDPTCTRL.TXS) == 1
  | .Out => return (← readField endptctrl ENDPTCTRL.RXS) == 1

def enable (self : Endpoint) : UsbM Unit := do
  -- EP0 is always enabled
  if self.address.index ≠ 0 then
    let endptctrl ← endpointControlRegister self.address.index
    match self.address.direction with
    | .In =>
      modifyReg endptctrl
        [(ENDPTCTRL.TXE, 1), (ENDPTCTRL.TXR, 1), (ENDPTCTRL.TXT, intoRawEndpointType self.kind)]
    | .Out =>
      modifyReg endptctrl
        [(ENDPTCTRL.RXE, 1), (ENDPTCTRL.RXR, 1), (ENDPTCTRL.RXT, intoRawEndpointType self.kind)]

def isEnabled (self : Endpoint) : UsbM Bool := do
  if self.address.index = 0 then
    return true
  else
    let endptctrl ← endpointControlRegister self.address.index
    match self.address.direction with
    | .In => return (← readField endptctrl ENDPTCTRL.TXE) == 1
    | .Out => return (← readField endptctrl ENDPTCTRL.RXE) == 1

def clearNack (self : Endpoint) : UsbM Unit := do
  let bit ← bit32 self.address.index
  match self.address.direction with
  | .In => writeField .ENDPTNAK ENDPTNAK.EPTN bit
  | .Out => writeField .ENDPTNAK ENDPTNAK.EPRN bit

end Endpoint

/-! ## state.rs -/

def MAX_ENDPOINTS : Nat := 8 * 2

/-- The index into the EPs, QHs and TDs collections. -/
def index (epAddr : EndpointAddress) : Nat :=
  epAddr.index * 2 + (if epAddr.direction = .In then 1 else 0)

namespace EndpointState

def new (COUNT qhList tdList : Nat) : EndpointState :=
  { COUNT, qhList, tdList, epList := fun _ => none, allocMask := 0 }

def ALLOCATOR_TAKEN : Word := 1 <<< 31

/-- Acquire the allocator; `none` if it was already taken. -/
def allocator (self : EndpointState) : Option EndpointAllocator × EndpointState :=
  -- the flag is set whether or not the call wins it
  let taken := { self with allocMask := self.allocMask ||| ALLOCATOR_TAKEN }
  (if self.allocMask &&& ALLOCATOR_TAKEN == 0 then some taken else none, taken)

end EndpointState

namespace EndpointAllocator

/-- The length of the allocator's slices. -/
def len (self : EndpointAllocator) : Nat := min self.COUNT MAX_ENDPOINTS

/-- `fetch_or` the mask; `none` if the bit was already set. -/
def tryMaskUpdate (mask : BitVec 16) : UsbM (Option Unit) := do
  let mask := mask.setWidth 32
  let d ← getDriver
  -- the bit is set before the answer is looked at, also when it is `none`
  let old := d.epAllocator.allocMask
  setDriver { d with epAllocator := { d.epAllocator with allocMask := old ||| mask } }
  return if mask &&& old == 0 then some () else none

def checkAllocated (index : Nat) : UsbM (Option Unit) := do
  let self := (← getDriver).epAllocator
  if index < self.len then
    let mask ← bit16 index
    return if mask &&& self.allocMask.setWidth 16 != 0 then some () else none
  else
    return none

/-- `endpoint`, `endpoint_mut` and `endpoint_mut_inner` differ only in the
    reference they return. -/
def endpoint (addr : EndpointAddress) : UsbM (Option Endpoint) := do
  match ← checkAllocated (index addr) with
  | none => return none
  | some () => return some (← .getOr .uninit ((← getDriver).epAllocator.epList (index addr)))

/-- The addresses `endpoints_iter_mut` goes through. -/
def endpointsIterMut : List EndpointAddress :=
  (List.range 8).flatMap fun index =>
    [EndpointAddress.fromParts index .Out, EndpointAddress.fromParts index .In]

/-- `for ep in self.nonzero_endpoints_iter_mut() { body }` -/
def forNonzeroEndpoints (body : Endpoint → UsbM Unit) : UsbM Unit :=
  Prog.each (fun addr => do
    match ← endpoint addr with
    | none => return ()
    | some ep => if ep.address.index ≠ 0 then body ep else return ()) endpointsIterMut

def allocateEndpoint (addr : EndpointAddress) (buffer : Buffer) (kind : EndpointType) :
    UsbM (Option Endpoint) := do
  let index := index addr
  if index < (← getDriver).epAllocator.len then
    let mask ← bit16 index
    -- one index serves the endpoint, QH and TD lists
    match ← tryMaskUpdate mask with
    | none => return none
    | some () =>
      let ep ← Endpoint.new addr index index buffer kind
      let d ← getDriver
      let epList := Function.update d.epAllocator.epList index (some ep)
      setDriver { d with epAllocator := { d.epAllocator with epList } }
      return some ep
  else
    return none

end EndpointAllocator

end ImxrtUsbd
