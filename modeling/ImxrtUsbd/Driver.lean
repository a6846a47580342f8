/-
  ImxrtUsbd.Driver

  `driver.rs` and `bus.rs`: the driver's operations, and the `UsbBus`
  implementation that dispatches to them.

  A read returns the caller's slice after the call next to the byte count;
  a call that fails does not touch the slice.
-/
import ImxrtUsbd.Endpoint

namespace ImxrtUsbd

open Lib

/-- Direct index to the OUT control endpoint. -/
def ctrlEp0Out : EndpointAddress := .fromParts 0 .Out

/-- Direct index to the IN control endpoint. -/
def ctrlEp0In : EndpointAddress := .fromParts 0 .In

inductive Speed where
  | LowFull
  | High
  deriving DecidableEq, Repr

namespace Driver

open EndpointAllocator (endpoint forNonzeroEndpoints allocateEndpoint)

/-! ## driver.rs -/

/-- `Driver::initialize` -/
def initializeDriver (speed : Speed) : UsbM Unit := do
  writeField .PHY_CTRL_SET PHY_CTRL.SFTRST 1
  writeField .PHY_CTRL_CLR PHY_CTRL.SFTRST 1
  writeField .PHY_CTRL_CLR PHY_CTRL.CLKGATE 1
  writeReg .PHY_PWD 0
  writeField .USBCMD USBCMD.RST 1
  .repeatUntil do
    let rst ← readField .USBCMD USBCMD.RST
    return if rst == 1 then none else some ()
  writeField .USBCMD USBCMD.ITC 0
  writeReg .USBMODE (USBMODE.CM.put USBMODE.CM_2 ||| USBMODE.SLOM.put 1)
  modifyReg .PORTSC1 [(PORTSC1.PFSC, if speed = .LowFull then 1 else 0)]
  writeBack .USBSTS
  writeReg .USBINTR 0
  writeReg .ASYNCLISTADDR (BitVec.ofNat 32 (← getDriver).epAllocator.qhList)

def enableZlt (epAddr : EndpointAddress) : UsbM Unit := do
  match ← endpoint epAddr with
  | some ep => ep.enableZlt
  | none => return ()

def setInterrupts (interrupts : Bool) : UsbM Unit :=
  if interrupts then
    modifyReg .USBINTR [(USBINTR.UE, 1), (USBINTR.URE, 1)]
  else
    modifyReg .USBINTR [(USBINTR.UE, 0), (USBINTR.URE, 0)]

def setAddress (address : BitVec 8) : UsbM Unit :=
  writeReg .DEVICEADDR (DEVICEADDR.USBADR.put (address.setWidth 32) ||| DEVICEADDR.USBADRA.put 1)

def attach : UsbM Unit :=
  modifyReg .USBCMD [(USBCMD.RS, 1)]

/-- Initialize (or reinitialize) all non-zero endpoints. -/
def initializeEndpoints : UsbM Unit :=
  forNonzeroEndpoints fun ep => ep.initializeEp

/-- `debugAssertions` says whether the crate is built with `debug_assert!`. -/
def busReset (debugAssertions : Bool) : UsbM Unit := do
  -- `ENDPTSTAT` is read only; the setup latch `ENDPTSETUPSTAT` is not written
  writeBack .ENDPTSTAT
  writeBack .ENDPTCOMPLETE
  writeBack .ENDPTNAK
  writeReg .ENDPTNAKEN 0
  waitZero .ENDPTPRIME
  writeReg .ENDPTFLUSH 0xFFFFFFFF
  waitZero .ENDPTFLUSH
  if debugAssertions then
    -- Took too long to handle bus reset
    let pr ← readField .PORTSC1 PORTSC1.PR
    .require .panic (pr = 1)
  initializeEndpoints

def isAllocated (addr : EndpointAddress) : UsbM Bool := do
  return (← endpoint addr).isSome

/-- Read either a setup, or a data buffer, from EP0 OUT. -/
def ctrl0Read (buffer : List Byte) : UsbM (Except UsbError (Nat × List Byte)) := do
  let ctrlOut ← unwrap (← endpoint ctrlEp0Out)
  if (← ctrlOut.hasSetup) && 8 ≤ buffer.length then
    let setup ← ctrlOut.readSetup
    let buffer := (List.range 8).map (fun i => setup.extractLsb' (8 * i) 8) ++ buffer.drop 8
    if !(← ctrlOut.isPrimed) then
      ctrlOut.clearNack
      let maxPacketLen ← ctrlOut.maxPacketLen
      ctrlOut.scheduleTransfer maxPacketLen
    return .ok (8, buffer)
  else
    match ← ctrlOut.checkErrors with
    | .error e => return .error e
    | .ok () =>
      if ← ctrlOut.isPrimed then
        return .error .WouldBlock
      else
        ctrlOut.clearComplete
        ctrlOut.clearNack
        let read ← ctrlOut.read buffer
        let maxPacketLen ← ctrlOut.maxPacketLen
        ctrlOut.scheduleTransfer maxPacketLen
        return .ok read

/-- Write to the host from EP0 IN, and schedule the OUT transfer of a status phase. -/
def ctrl0Write (buffer : List Byte) : UsbM (Except UsbError Nat) := do
  let ctrlIn ← unwrap (← endpoint ctrlEp0In)
  match ← ctrlIn.checkErrors with
  | .error e => return .error e
  | .ok () =>
    if ← ctrlIn.isPrimed then
      return .error .WouldBlock
    else
      ctrlIn.clearNack
      let written ← ctrlIn.write buffer
      ctrlIn.scheduleTransfer written
      -- Might need an OUT schedule for a status phase...
      let ctrlOut ← unwrap (← endpoint ctrlEp0Out)
      if !(← ctrlOut.isPrimed) then
        ctrlOut.clearComplete
        ctrlOut.clearNack
        ctrlOut.scheduleTransfer 0
      return .ok written

/-- Read data from an endpoint, and schedule the next transfer. -/
def epRead (buffer : List Byte) (addr : EndpointAddress) :
    UsbM (Except UsbError (Nat × List Byte)) := do
  let ep ← unwrap (← endpoint addr)
  match ← ep.checkErrors with
  | .error e => return .error e
  | .ok () =>
    let primed ← ep.isPrimed
    -- the mask is from the last poll that saw traffic
    let epOut := (← getDriver).epOut
    let bit ← bit16 ep.address.index
    if primed || epOut &&& bit == 0 then
      return .error .WouldBlock
    else
      ep.clearComplete -- Clears the epOut bit on the next poll() call...
      ep.clearNack
      let read ← ep.read buffer
      let maxPacketLen ← ep.maxPacketLen
      ep.scheduleTransfer maxPacketLen
      return .ok read

/-- Write data to an endpoint. -/
def epWrite (buffer : List Byte) (addr : EndpointAddress) : UsbM (Except UsbError Nat) := do
  let ep ← unwrap (← endpoint addr)
  match ← ep.checkErrors with
  | .error e => return .error e
  | .ok () =>
    if ← ep.isPrimed then
      return .error .WouldBlock
    else
      ep.clearNack
      let written ← ep.write buffer
      ep.scheduleTransfer written
      return .ok written

/-- Stall an endpoint. -/
def epStall (stall : Bool) (addr : EndpointAddress) : UsbM Unit := do
  let ep ← unwrap (← endpoint addr)
  ep.setStalled stall
  -- Re-prime any OUT endpoints if we're unstalling
  if !stall && addr.direction == .Out then
    if !(← ep.isPrimed) then
      let maxPacketLen ← ep.maxPacketLen
      ep.scheduleTransfer maxPacketLen

/-- Checks if an endpoint is stalled. -/
def isEpStalled (addr : EndpointAddress) : UsbM Bool := do
  let ep ← unwrap (← endpoint addr)
  ep.isStalled

def allocateBuffer (maxPacketLen : Nat) : UsbM (Option Buffer) := do
  let d ← getDriver
  let (buffer, bufferAllocator) := d.bufferAllocator.allocate maxPacketLen
  setDriver { d with bufferAllocator }
  return buffer

def allocateEp (addr : EndpointAddress) (buffer : Buffer) (kind : EndpointType) : UsbM Unit := do
  let _ ← unwrap (← allocateEndpoint addr buffer kind)

/-- Enable all non-zero endpoints. -/
def enableEndpoints : UsbM Unit :=
  forNonzeroEndpoints fun ep => ep.enable

/-- Prime all non-zero, enabled OUT endpoints. -/
def primeEndpoints : UsbM Unit :=
  forNonzeroEndpoints fun ep => do
    if (← ep.isEnabled) && ep.address.direction == .Out then
      let maxPacketLen ← ep.maxPacketLen
      ep.scheduleTransfer maxPacketLen

/-- Invoked when the device transitions into the configured state. -/
def onConfigured : UsbM Unit := do
  enableEndpoints
  primeEndpoints

/-- Poll for reset or USB traffic. -/
def poll : UsbM PollResult := do
  let usbsts ← readReg .USBSTS
  -- a reset goes before traffic
  if usbsts &&& USBSTS.URI.mask 32 != 0 then
    writeField .USBSTS USBSTS.URI 1
    return .Reset
  else if usbsts &&& USBSTS.UI.mask 32 != 0 then
    writeField .USBSTS USBSTS.UI 1
    let epOut := (← readField .ENDPTCOMPLETE ENDPTCOMPLETE.ERCE).setWidth 16
    setDriver { (← getDriver) with epOut }
    -- IN completions are acknowledged here, OUT completions by the read
    let epInComplete ← readField .ENDPTCOMPLETE ENDPTCOMPLETE.ETCE
    writeField .ENDPTCOMPLETE ENDPTCOMPLETE.ETCE epInComplete
    let epSetup := (← readReg .ENDPTSETUPSTAT).setWidth 16
    return .Data epOut (epInComplete.setWidth 16) epSetup
  else
    return .None

end Driver

/-! ## bus.rs -/

namespace BusAdapter

/-- The first free number of the automatic assignment, from the candidates left. -/
def allocFirst (epDir : UsbDirection) (epType : EndpointType) (maxPacketSize : BitVec 16) :
    List Nat → UsbM (Except UsbError EndpointAddress)
  | [] => return .error .EndpointOverflow
  | idx :: rest => do
    let addr := EndpointAddress.fromParts idx epDir
    -- an index beyond the storage counts as not allocated
    if ← Driver.isAllocated addr then
      allocFirst epDir epType maxPacketSize rest
    else
      match ← Driver.allocateBuffer maxPacketSize.toNat with
      | none => return .error .EndpointMemoryOverflow
      | some buffer =>
        Driver.allocateEp addr buffer epType
        return .ok addr

def allocEp (epDir : UsbDirection) (epAddr : Option EndpointAddress) (epType : EndpointType)
    (maxPacketSize : BitVec 16) : UsbM (Except UsbError EndpointAddress) := do
  match epAddr with
  | some addr =>
    if ← Driver.isAllocated addr then
      return .error .InvalidEndpoint
    else
      match ← Driver.allocateBuffer maxPacketSize.toNat with
      | none => return .error .EndpointMemoryOverflow
      | some buffer =>
        Driver.allocateEp addr buffer epType
        return .ok addr
  | none => allocFirst epDir epType maxPacketSize [1, 2, 3, 4, 5, 6, 7]

def write (epAddr : EndpointAddress) (buf : List Byte) : UsbM (Except UsbError Nat) := do
  if !(← Driver.isAllocated epAddr) then
    return .error .InvalidEndpoint
  else if epAddr.index = 0 then
    Driver.ctrl0Write buf
  else
    Driver.epWrite buf epAddr

def read (epAddr : EndpointAddress) (buf : List Byte) :
    UsbM (Except UsbError (Nat × List Byte)) := do
  if !(← Driver.isAllocated epAddr) then
    return .error .InvalidEndpoint
  else if epAddr.index = 0 then
    Driver.ctrl0Read buf
  else
    Driver.epRead buf epAddr

def setStalled (epAddr : EndpointAddress) (stalled : Bool) : UsbM Unit := do
  if ← Driver.isAllocated epAddr then
    Driver.epStall stalled epAddr

def isStalled (epAddr : EndpointAddress) : UsbM Bool :=
  -- no look at `isAllocated` here
  Driver.isEpStalled epAddr

end BusAdapter

end ImxrtUsbd
