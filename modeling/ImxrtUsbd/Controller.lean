/-
  ImxrtUsbd.Controller

  The USB controller, as the reference manual describes it and the driver
  relies on it: what a register write does, and what the controller does by
  itself (`HwEvent`).

  Memory is coherent here: descriptors and endpoint memory are one copy, seen
  alike by driver and controller, and cache maintenance has no effect.  A prime
  and a flush take effect at the register write, so `ENDPTPRIME` and
  `ENDPTFLUSH` read as 0.
-/
import ImxrtUsbd.Driver

namespace ImxrtUsbd

open Lib

/-! ## Endpoints as the controller numbers them -/

/-- One of the controller's endpoint halves. -/
structure EpId where
  dir : UsbDirection
  num : Fin 8
  deriving DecidableEq, Repr

namespace EpId

/-- 1 for the IN half, 0 for the OUT half. -/
def inBit (e : EpId) : Nat := if e.dir = .In then 1 else 0

/-- The bit of the endpoint in the registers with a receive and a transmit half. -/
def bit (e : EpId) : Nat := e.num.val + 16 * e.inBit

/-- That bit alone. -/
def mask (e : EpId) : Word := 1#32 <<< e.bit

/-- The place of the endpoint in the QH, TD and endpoint lists. -/
def slot (e : EpId) : Nat := e.num.val * 2 + e.inBit

def address (e : EpId) : EndpointAddress := .fromParts e.num.val e.dir

/-- The two halves of the control endpoint. -/
def ep0Out : EpId := ⟨.Out, 0⟩
def ep0In : EpId := ⟨.In, 0⟩

end EpId

/-! ## The system -/

/-- Controller, memory and driver. -/
structure Sys where
  reg : Reg → Word
  td : Nat → Td
  qh : Nat → Qh
  mem : Mem
  /-- Where the compiler spilled the `self` reference of a cache call. -/
  stack : Nat
  driver : Driver

namespace Sys

def setReg (s : Sys) (r : Reg) (v : Word) : Sys :=
  { s with reg := Function.update s.reg r v }

/-- Bits of an endpoint control register that read as 0. -/
def toggleResetBits : Word := ENDPTCTRL.TXR.mask 32 ||| ENDPTCTRL.RXR.mask 32

/-- What writing a register does. -/
def writeReg (s : Sys) (r : Reg) (v : Word) : Sys :=
  match r with
  -- write one to clear
  | .USBSTS | .ENDPTNAK | .ENDPTSETUPSTAT | .ENDPTCOMPLETE => s.setReg r (s.reg r &&& ~~~ v)
  -- read only
  | .ENDPTSTAT => s
  -- write one to prime, write one to flush
  | .ENDPTPRIME => s.setReg .ENDPTSTAT (s.reg .ENDPTSTAT ||| v)
  | .ENDPTFLUSH => s.setReg .ENDPTSTAT (s.reg .ENDPTSTAT &&& ~~~ v)
  | .ENDPTCTRL0 | .ENDPTCTRL _ => s.setReg r (v &&& ~~~ toggleResetBits)
  | .USBCMD =>
    -- controller reset; the PHY has its own
    if (USBCMD.RST.get v) = 1 then
      { s with reg := fun r => match r with
          | .PHY_PWD | .PHY_CTRL_SET | .PHY_CTRL_CLR => s.reg r
          | _ => 0 }
    else s.setReg r v
  | r => s.setReg r v

def tdAt (s : Sys) : TdRef → Td
  | .list i => s.td i
  | .overlay i => (s.qh i).overlay

def setTdAt (s : Sys) (t : TdRef) (d : Td) : Sys :=
  match t with
  | .list i => { s with td := Function.update s.td i d }
  | .overlay i => { s with qh := Function.update s.qh i { s.qh i with overlay := d } }

end Sys

/-- What an observer at the bus notes of the driver's accesses. -/
inductive Obs where
  /-- These bits were written to `ENDPTPRIME`, and `ENDPTSTAT` was this. -/
  | prime (bits endptstat : Word)
  /-- A half of the setup buffer was loaded. -/
  | setup (high : Bool) (v : Word)
  deriving DecidableEq, Repr

/-- The driver's accesses on the system, with nothing happening in between. -/
def usbAct : {β : Type} → Access β → Sys → β × Sys × List Obs
  | _, .readReg r, s => (s.reg r, s, [])
  | _, .writeReg r v, s =>
    ((), s.writeReg r v, if r = .ENDPTPRIME then [.prime v (s.reg .ENDPTSTAT)] else [])
  | _, .loadTd t w, s => ((s.tdAt t).get w, s, [])
  | _, .storeTd t w v, s => ((), s.setTdAt t ((s.tdAt t).put w v), [])
  | _, .loadCapabilities i, s => ((s.qh i).capabilities, s, [])
  | _, .storeCapabilities i v, s =>
    ((), { s with qh := Function.update s.qh i { s.qh i with capabilities := v } }, [])
  | _, .loadSetup i high, s =>
    let v := (s.qh i).setup.extractLsb' (if high then 32 else 0) 32
    (v, s, [.setup high v])
  | _, .loadByte a, s => (s.mem a, s, [])
  | _, .storeByte a b, s => ((), { s with mem := Function.update s.mem a b }, [])
  | _, .dccimvac _, s => ((), s, [])
  | _, .addrOfSelf, s => (s.stack, s, [])
  | _, .getDriver, s => (s.driver, s, [])
  | _, .setDriver d, s => ((), { s with driver := d }, [])

def usb : Machine Access Sys Obs := ⟨usbAct⟩

/-- Run driver code to its end.  Nothing else acts meanwhile, so a loop that is
    not left after its first pass is never left. -/
def run {α : Type} (p : UsbM α) (s : Sys) : Out Sys Obs Fault α := exec usb 1 p s

/-! ## What the controller sees and does -/

namespace Td

def totalBytes (t : Td) : Nat := (TOKEN.TOTAL_BYTES.get t.token).toNat

/-- The controller's address of byte `i` of the transfer: the first pointer
    within its page, then the pages of the following pointers. -/
def dmaAddr (t : Td) (i : Nat) : Nat :=
  let pos := (t.bufferPointers 0).toNat % 4096 + i
  if pos < 4096 then
    (t.bufferPointers 0).toNat + i
  else
    (t.bufferPointers (Fin.ofNat 5 (pos / 4096))).toNat / 4096 * 4096 + pos % 4096

/-- The descriptor after `k` bytes were transferred: `TOTAL_BYTES` lowered by
    `k`, and a status byte `status`. -/
def retire (t : Td) (k : Nat) (status : Word) : Td :=
  { t with
    token := TOKEN.STATUS.set status
      (TOKEN.TOTAL_BYTES.set (BitVec.ofNat 32 (t.totalBytes - k)) t.token) }

/-- Some error bit is set. -/
def errored (t : Td) : Bool :=
  t.token.getLsbD 3 || t.token.getLsbD 5 || t.token.getLsbD 6

end Td

/-- Store received bytes through the descriptor's pointers, from byte `i` on. -/
def dmaStore (t : Td) (m : Mem) (i : Nat) : List Byte → Mem
  | [] => m
  | b :: bs => dmaStore t (Function.update m (t.dmaAddr i) b) (i + 1) bs

namespace Sys

/-- The endpoint's bit in `ENDPTSTAT`. -/
def primed (s : Sys) (e : EpId) : Bool := (s.reg .ENDPTSTAT).getLsbD e.bit

/-- The endpoint's bit in `ENDPTCOMPLETE`. -/
def completed (s : Sys) (e : EpId) : Bool := (s.reg .ENDPTCOMPLETE).getLsbD e.bit

/-- A SETUP packet is latched. -/
def setupPending (s : Sys) : Bool := (s.reg .ENDPTSETUPSTAT).getLsbD 0

/-- Set bits of a register, on the controller's own account. -/
def raise (s : Sys) (r : Reg) (v : Word) : Sys := s.setReg r (s.reg r ||| v)

/-- Clear bits of a register, on the controller's own account. -/
def lower (s : Sys) (r : Reg) (v : Word) : Sys := s.setReg r (s.reg r &&& ~~~ v)

end Sys

/-- The steps of the controller. -/
inductive HwEvent where
  /-- An OUT transfer completes with this packet. -/
  | outDone (n : Fin 8) (data : List Byte)
  /-- An IN transfer completes after `k` bytes. -/
  | inDone (n : Fin 8) (k : Nat)
  /-- A transfer is retired with errors. -/
  | error (e : EpId) (halted dataBuffer transaction : Bool)
  /-- A SETUP packet arrives. -/
  | setup (packet : BitVec 64)
  /-- The host is sent a NAK. -/
  | nak (e : EpId)
  /-- The host starts to drive a bus reset. -/
  | resetBegin
  /-- The host stops driving it. -/
  | resetEnd

namespace HwEvent

/-- The error bits of a TD status. -/
def errorStatus (halted dataBuffer transaction : Bool) : Word :=
  (if halted then Status.HALTED else 0) ||| (if dataBuffer then Status.DATA_BUFFER_ERROR else 0)
    ||| (if transaction then Status.TRANSACTION_ERROR else 0)

/-- When a step is possible. -/
def Enabled (s : Sys) : HwEvent → Prop
  | .outDone n data =>
    s.primed ⟨.Out, n⟩ = true ∧ data.length ≤ (s.td (EpId.slot ⟨.Out, n⟩)).totalBytes
  | .inDone n k => s.primed ⟨.In, n⟩ = true ∧ k ≤ (s.td (EpId.slot ⟨.In, n⟩)).totalBytes
  | .error e halted dataBuffer transaction =>
    s.primed e = true ∧ (halted || dataBuffer || transaction) = true
  | .setup _ | .nak _ | .resetBegin | .resetEnd => True

instance (s : Sys) (ev : HwEvent) : Decidable (ev.Enabled s) := by
  cases ev with
  | outDone | inDone | error => exact inferInstanceAs (Decidable (_ ∧ _))
  | setup | nak | resetBegin | resetEnd => exact .isTrue trivial

/-- The end of a transfer of `k` bytes on `e` with a status byte: the TD is
    written back and `ENDPTSTAT` falls. -/
def retire (s : Sys) (e : EpId) (k : Nat) (status : Word) : Sys :=
  Sys.lower { s with td := Function.update s.td e.slot ((s.td e.slot).retire k status) }
    .ENDPTSTAT e.mask

/-- What a step does. -/
def apply (s : Sys) : HwEvent → Sys
  | .outDone n data =>
    let e : EpId := ⟨.Out, n⟩
    let mem := dmaStore (s.td e.slot) s.mem 0 data
    ((retire { s with mem } e data.length 0).raise .ENDPTCOMPLETE e.mask).raise
      .USBSTS (USBSTS.UI.put 1)
  | .inDone n k =>
    let e : EpId := ⟨.In, n⟩
    ((retire s e k 0).raise .ENDPTCOMPLETE e.mask).raise .USBSTS (USBSTS.UI.put 1)
  | .error e halted dataBuffer transaction =>
    -- no completion bit, only the interrupt
    (retire s e 0 (errorStatus halted dataBuffer transaction)).raise .USBSTS
      (USBSTS.UI.put 1 ||| USBSTS.UEI.put 1)
  | .setup packet =>
    -- cancels what is primed on the control endpoint, and trips the tripwire
    let s := { s with qh := Function.update s.qh 0 { s.qh 0 with setup := packet } }
    (((s.lower .ENDPTSTAT (EpId.ep0Out.mask ||| EpId.ep0In.mask)).raise
      .ENDPTSETUPSTAT 1).lower .USBCMD (USBCMD.SUTW.put 1)).raise .USBSTS (USBSTS.UI.put 1)
  | .nak e => s.raise .ENDPTNAK e.mask
  | .resetBegin =>
    -- endpoint registers and latches keep their values
    ((s.raise .USBSTS (USBSTS.URI.put 1)).raise .PORTSC1 (PORTSC1.PR.put 1)).setReg .DEVICEADDR 0
  | .resetEnd => s.lower .PORTSC1 (PORTSC1.PR.put 1)

end HwEvent

end ImxrtUsbd
