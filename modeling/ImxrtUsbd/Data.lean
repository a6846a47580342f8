/-
  ImxrtUsbd.Data

  The data of the driver: what `usb-device` hands it (directions, endpoint
  addresses and types, errors, poll results), and the records the driver keeps
  in memory (`buffer.rs`, `td.rs`, `qh.rs`, `endpoint.rs`, `state.rs`,
  `driver.rs`).

  `usize` and pointers are `Nat`s (the target is 32 bits wide; the code's
  checked arithmetic appears where it is performed), hardware words are
  `BitVec 32`.
-/
import ImxrtUsbd.Lib.Bytes

namespace ImxrtUsbd

open Lib

abbrev Word := BitVec 32

/-- There are eight endpoint numbers, and five pages to a transfer. -/
instance neZeroEndpoints : NeZero 8 := ⟨by decide⟩
instance neZeroPages : NeZero 5 := ⟨by decide⟩

/-! ## usb-device -/

/-- Transfer direction, as the host sees it. -/
inductive UsbDirection where
  | Out
  | In
  deriving DecidableEq, Repr

/-- An endpoint address byte: bit 7 is the direction, the rest the number. -/
structure EndpointAddress where
  raw : BitVec 8
  deriving DecidableEq, Repr

namespace EndpointAddress

def direction (a : EndpointAddress) : UsbDirection :=
  if a.raw &&& 0x80#8 != 0#8 then .In else .Out

def index (a : EndpointAddress) : Nat := (a.raw &&& 0x7F#8).toNat

def fromParts (index : Nat) (dir : UsbDirection) : EndpointAddress :=
  ⟨BitVec.ofNat 8 index ||| (match dir with | .In => 0x80#8 | .Out => 0x00#8)⟩

end EndpointAddress

inductive EndpointType where
  | Control
  | Isochronous (synchronization usage : BitVec 2)
  | Bulk
  | Interrupt
  deriving DecidableEq, Repr

def EndpointType.toBmAttributes : EndpointType → BitVec 8
  | .Control => 0b00#8
  | .Isochronous sync usage =>
    0b01#8 ||| (sync.setWidth 8 <<< 2) ||| (usage.setWidth 8 <<< 4)
  | .Bulk => 0b10#8
  | .Interrupt => 0b11#8

/-- The errors of `usb-device` that this driver returns. -/
inductive UsbError where
  | WouldBlock
  | EndpointOverflow
  | EndpointMemoryOverflow
  | InvalidEndpoint
  | InvalidState
  deriving DecidableEq, Repr

/-- The poll results of `usb-device` that this driver returns. -/
inductive PollResult where
  | None
  | Reset
  | Data (epOut epInComplete epSetup : BitVec 16)
  deriving DecidableEq, Repr

/-! ## buffer.rs -/

/-- A region of endpoint memory handed to one endpoint. -/
structure Buffer where
  ptr : Nat
  len : Nat
  deriving DecidableEq, Repr

/-- The bump allocator: free memory is `[start, ptr)`. -/
structure Allocator where
  start : Nat
  ptr : Nat
  deriving DecidableEq, Repr

/-! ## td.rs, qh.rs -/

/-- A transfer descriptor. -/
structure Td where
  next : Word
  token : Word
  bufferPointers : Fin 5 → Word
  lastTransferSize : Word

/-- The words of a transfer descriptor. -/
inductive TdWord where
  | NEXT
  | TOKEN
  | BUFFER_POINTERS (i : Fin 5)
  | lastTransferSize
  deriving DecidableEq, Repr

namespace Td

def new : Td := ⟨0, 0, fun _ => 0, 0⟩

def get (t : Td) : TdWord → Word
  | .NEXT => t.next
  | .TOKEN => t.token
  | .BUFFER_POINTERS i => t.bufferPointers i
  | .lastTransferSize => t.lastTransferSize

def put (t : Td) (w : TdWord) (v : Word) : Td :=
  match w with
  | .NEXT => { t with next := v }
  | .TOKEN => { t with token := v }
  | .BUFFER_POINTERS i => { t with bufferPointers := Function.update t.bufferPointers i v }
  | .lastTransferSize => { t with lastTransferSize := v }

end Td

/-- A queue head. -/
structure Qh where
  capabilities : Word
  overlay : Td
  setup : BitVec 64

def Qh.new : Qh := ⟨0, Td.new, 0⟩

/-- Which descriptor a `&mut Td` points to: an element of the TD list, or the
    overlay of an element of the QH list. -/
inductive TdRef where
  | list (i : Nat)
  | overlay (i : Nat)
  deriving DecidableEq, Repr

/-! ## endpoint.rs, state.rs, driver.rs -/

/-- An endpoint owns element `qh` of the QH list and element `td` of the TD list. -/
structure Endpoint where
  address : EndpointAddress
  qh : Nat
  td : Nat
  buffer : Buffer
  kind : EndpointType
  deriving DecidableEq, Repr

/-- `EndpointState<COUNT>`.  The QH and TD lists themselves are hardware-visible
    memory; here are their addresses.  A cell of `epList` is `none` while its
    `MaybeUninit` is uninitialised. -/
structure EndpointState where
  COUNT : Nat
  qhList : Nat
  tdList : Nat
  epList : Nat → Option Endpoint
  allocMask : Word

/-- The allocator is a view of the one `EndpointState` it was taken from. -/
abbrev EndpointAllocator := EndpointState

/-- The driver's own fields.  The register blocks are not data. -/
structure Driver where
  bufferAllocator : Allocator
  epAllocator : EndpointAllocator
  epOut : BitVec 16

end ImxrtUsbd
