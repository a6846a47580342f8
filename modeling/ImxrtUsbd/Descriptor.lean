/-
  ImxrtUsbd.Descriptor

  `cache.rs`, `buffer.rs`, `td.rs` and `qh.rs`: cache maintenance, endpoint
  buffers, and the methods of transfer descriptors and queue heads.
-/
import ImxrtUsbd.Access

namespace ImxrtUsbd

open Lib

/-! ## cache.rs -/

/-- The maintenance loop: `n` lines from `addr` up. -/
def cleanInvalidateLines : Nat → Nat → UsbM Unit
  | 0, _ => return ()
  | n + 1, addr => do
    dccimvac (BitVec.ofNat 32 addr)
    let addr ← addUsize addr 32
    cleanInvalidateLines n addr

def cleanInvalidateDcacheByAddress (addr size : Nat) : UsbM Unit :=
  if size = 0 then
    return ()
  else
    -- The barriers around the loop order accesses; they do nothing here.
    let numLines := (size - 1) / 32 + 1
    cleanInvalidateLines numLines (addr &&& 0xFFFFFFE0)

/-! ## buffer.rs -/

namespace Allocator

/-- `Allocator::from_buffer` -/
def fromBuffer (start len : Nat) : Allocator := ⟨start, start + len⟩

def allocate (self : Allocator) (size : Nat) : Option Buffer × Allocator :=
  if self.ptr < size then
    (none, self)
  else
    -- the next buffer ends where the free memory ends
    let ptr := self.ptr - size
    if ptr < self.start then (none, self) else (some ⟨ptr, size⟩, { self with ptr })

end Allocator

/-- The reading fold of `volatile_read`. -/
def loadBytes (src : Nat) : Nat → UsbM (List Byte)
  | 0 => return []
  | n + 1 => do
    let b ← loadByte src
    let bs ← loadBytes (src + 1) n
    return b :: bs

/-- The writing fold of `volatile_write`. -/
def storeBytes (dst : Nat) : List Byte → UsbM Unit
  | [] => return ()
  | b :: bs => do
    storeByte dst b
    storeBytes (dst + 1) bs

namespace Buffer

/-- Returns how many bytes were read, and the caller's slice afterwards. -/
def volatileRead (self : Buffer) (buffer : List Byte) : UsbM (Nat × List Byte) := do
  let size := min buffer.length self.len
  let bytes ← loadBytes self.ptr size
  return (size, bytes ++ buffer.drop size)

def volatileWrite (self : Buffer) (buffer : List Byte) : UsbM Nat := do
  let size := min buffer.length self.len
  storeBytes self.ptr (buffer.take size)
  return size

def cleanInvalidateDcache (self : Buffer) (len : Nat) : UsbM Unit :=
  cleanInvalidateDcacheByAddress self.ptr (min self.len len)

end Buffer

/-! ## td.rs -/

/-- `modify_reg!(crate::td, self, w, f: v)` -/
def modifyTd (t : TdRef) (w : TdWord) (f : Field) (v : Word) : UsbM Unit := do
  storeTd t w (f.set v (← loadTd t w))

namespace Status

def ACTIVE : Word := 1 <<< 7
def HALTED : Word := 1 <<< 6
def DATA_BUFFER_ERROR : Word := 1 <<< 5
def TRANSACTION_ERROR : Word := 1 <<< 3

/-- `Status::from_bits_truncate` -/
def fromBitsTruncate (bits : Word) : Word :=
  bits &&& (ACTIVE ||| HALTED ||| DATA_BUFFER_ERROR ||| TRANSACTION_ERROR)

def contains (self flag : Word) : Bool := self &&& flag == flag

end Status

namespace TdRef

def PTR_ALIGNMENT : Word := 4096
def PTR_MASK : Word := ~~~ (PTR_ALIGNMENT - 1)

/-- One step of the pointer loop: pointer `idx` from pointer `idx - 1`. -/
def setNextPointer (self : TdRef) (idx : Fin 5) : UsbM Unit := do
  let ptr ← loadTd self (.BUFFER_POINTERS (idx - 1))
  let ptr := ptr &&& PTR_MASK
  let ptr ← addU32 ptr PTR_ALIGNMENT
  storeTd self (.BUFFER_POINTERS idx) ptr

def setBuffer (self : TdRef) (ptr size : Nat) : UsbM Unit := do
  -- the field keeps 15 bits of the size, `last_transfer_size` all of them
  modifyTd self .TOKEN TOKEN.TOTAL_BYTES (BitVec.ofNat 32 size)
  storeTd self .lastTransferSize (BitVec.ofNat 32 size)
  if size ≠ 0 then
    storeTd self (.BUFFER_POINTERS 0) (BitVec.ofNat 32 ptr)
    Prog.each self.setNextPointer [1, 2, 3, 4]
  else
    Prog.each (fun idx => storeTd self (.BUFFER_POINTERS idx) 0) [0, 1, 2, 3, 4]

def bytesTransferred (self : TdRef) : UsbM Nat := do
  let totalBytes := TOKEN.TOTAL_BYTES.get (← loadTd self .TOKEN)
  subUsize (← loadTd self .lastTransferSize).toNat totalBytes.toNat

def status (self : TdRef) : UsbM Word := do
  let status := TOKEN.STATUS.get (← loadTd self .TOKEN)
  return Status.fromBitsTruncate status

def clearStatus (self : TdRef) : UsbM Unit :=
  modifyTd self .TOKEN TOKEN.STATUS 0

def setTerminate (self : TdRef) : UsbM Unit :=
  storeTd self .NEXT 1

def setNext (self : TdRef) (next : Nat) : UsbM Unit :=
  storeTd self .NEXT (BitVec.ofNat 32 next)

def setActive (self : TdRef) : UsbM Unit :=
  -- writes the whole status field, so the error bits are cleared as well
  modifyTd self .TOKEN TOKEN.STATUS Status.ACTIVE

def setInterruptOnComplete (self : TdRef) (ioc : Bool) : UsbM Unit :=
  modifyTd self .TOKEN TOKEN.IOC (if ioc then 1 else 0)

/-- `&self as *const _` is the address of the reference, not of the descriptor. -/
def cleanInvalidateDcache (_self : TdRef) : UsbM Unit := do
  cleanInvalidateDcacheByAddress (← addrOfSelf) 32

end TdRef

/-! ## qh.rs -/

namespace Qh

/-- `modify_reg!(crate::qh, self, CAPABILITIES, f: v)` -/
def modifyCapabilities (qh : Nat) (f : Field) (v : Word) : UsbM Unit := do
  storeCapabilities qh (f.set v (← loadCapabilities qh))

/-- The 64-bit volatile load of the setup buffer, low half first. -/
def readSetupBuffer (qh : Nat) : UsbM (BitVec 64) := do
  let lo ← loadSetup qh false
  let hi ← loadSetup qh true
  return hi ++ lo

def setMaxPacketLen (qh : Nat) (maxPacketLen : Nat) : UsbM Unit :=
  modifyCapabilities qh CAPABILITIES.MAXIMUM_PACKET_LENGTH
    (BitVec.ofNat 32 (min maxPacketLen 1024))

def maxPacketLen (qh : Nat) : UsbM Nat := do
  return (CAPABILITIES.MAXIMUM_PACKET_LENGTH.get (← loadCapabilities qh)).toNat

def setZeroLengthTermination (qh : Nat) (zlt : Bool) : UsbM Unit :=
  -- the bit disables the termination
  modifyCapabilities qh CAPABILITIES.ZLT (if !zlt then 1 else 0)

def setInterruptOnSetup (qh : Nat) (ios : Bool) : UsbM Unit :=
  modifyCapabilities qh CAPABILITIES.IOS (if ios then 1 else 0)

/-- `&self as *const _` is the address of the reference, not of the queue head. -/
def cleanInvalidateDcache (_qh : Nat) : UsbM Unit := do
  cleanInvalidateDcacheByAddress (← addrOfSelf) 64

end Qh

end ImxrtUsbd
