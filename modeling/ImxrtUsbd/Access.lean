/-
  ImxrtUsbd.Access

  What driver code can do: the registers of the USB controller with their
  fields (`imxrt-ral`), the accesses to registers, descriptors, endpoint
  memory, the cache and the driver's own fields, and the register macros
  `read_reg!`, `write_reg!` and `modify_reg!` over them.

  A driver function is a `UsbM` program over these accesses.  A Rust panic
  (an `unwrap` of `None`, an index out of range, a checked shift, addition or
  subtraction that overflows; the crate is built with `overflow-checks`) is
  the fault `panic`; reading an uninitialised endpoint cell is `uninit`.
-/
import ImxrtUsbd.Lib.Prog
import ImxrtUsbd.Lib.Field
import ImxrtUsbd.Data

namespace ImxrtUsbd

open Lib

/-! ## Registers and fields -/

/-- The registers the driver touches.  `ENDPTCTRL i` is the control register of
    endpoint `i + 1`. -/
inductive Reg where
  | USBCMD | USBSTS | USBINTR | DEVICEADDR | ASYNCLISTADDR | PORTSC1 | USBMODE
  | ENDPTNAK | ENDPTNAKEN | ENDPTSETUPSTAT | ENDPTPRIME | ENDPTFLUSH
  | ENDPTSTAT | ENDPTCOMPLETE
  | ENDPTCTRL0
  | ENDPTCTRL (i : Fin 7)
  | PHY_PWD | PHY_CTRL_SET | PHY_CTRL_CLR
  deriving DecidableEq, Repr

namespace USBCMD
def RS : Field := ⟨0, 1⟩
def RST : Field := ⟨1, 1⟩
def SUTW : Field := ⟨13, 1⟩
def ITC : Field := ⟨16, 8⟩
end USBCMD

namespace USBSTS
def UI : Field := ⟨0, 1⟩
def UEI : Field := ⟨1, 1⟩
def URI : Field := ⟨6, 1⟩
end USBSTS

namespace USBINTR
def UE : Field := ⟨0, 1⟩
def URE : Field := ⟨6, 1⟩
end USBINTR

namespace DEVICEADDR
def USBADRA : Field := ⟨24, 1⟩
def USBADR : Field := ⟨25, 7⟩
end DEVICEADDR

namespace PORTSC1
def PR : Field := ⟨8, 1⟩
def PFSC : Field := ⟨24, 1⟩
end PORTSC1

namespace USBMODE
def CM : Field := ⟨0, 2⟩
def SLOM : Field := ⟨3, 1⟩
/-- Device controller. -/
def CM_2 : Word := 2
end USBMODE

namespace PHY_CTRL
def CLKGATE : Field := ⟨30, 1⟩
def SFTRST : Field := ⟨31, 1⟩
end PHY_CTRL

/-- The receive half of the per-endpoint registers: `ERBR` of `ENDPTSTAT`,
    `ERCE` of `ENDPTCOMPLETE`, `PERB` of `ENDPTPRIME`, `EPRN` of `ENDPTNAK`. -/
def rxHalf : Field := ⟨0, 8⟩

/-- The transmit half: `ETBR`, `ETCE`, `PETB`, `EPTN`. -/
def txHalf : Field := ⟨16, 8⟩

abbrev ENDPTSTAT.ERBR : Field := rxHalf
abbrev ENDPTSTAT.ETBR : Field := txHalf
abbrev ENDPTCOMPLETE.ERCE : Field := rxHalf
abbrev ENDPTCOMPLETE.ETCE : Field := txHalf
abbrev ENDPTPRIME.PERB : Field := rxHalf
abbrev ENDPTPRIME.PETB : Field := txHalf
abbrev ENDPTNAK.EPRN : Field := rxHalf
abbrev ENDPTNAK.EPTN : Field := txHalf

namespace ENDPTCTRL
def RXS : Field := ⟨0, 1⟩
def RXT : Field := ⟨2, 2⟩
def RXR : Field := ⟨6, 1⟩
def RXE : Field := ⟨7, 1⟩
def TXS : Field := ⟨16, 1⟩
def TXT : Field := ⟨18, 2⟩
def TXR : Field := ⟨22, 1⟩
def TXE : Field := ⟨23, 1⟩
end ENDPTCTRL

-- Fields of the TD token (`td.rs`).
namespace TOKEN
def STATUS : Field := ⟨0, 8⟩
def IOC : Field := ⟨15, 1⟩
def TOTAL_BYTES : Field := ⟨16, 15⟩
end TOKEN

-- Fields of the QH capabilities (`qh.rs`).
namespace CAPABILITIES
def IOS : Field := ⟨15, 1⟩
def MAXIMUM_PACKET_LENGTH : Field := ⟨16, 11⟩
def ZLT : Field := ⟨29, 1⟩
end CAPABILITIES

/-! ## Accesses -/

/-- One access of driver code. -/
inductive Access : Type → Type where
  | readReg (r : Reg) : Access Word
  | writeReg (r : Reg) (v : Word) : Access Unit
  | loadTd (t : TdRef) (w : TdWord) : Access Word
  | storeTd (t : TdRef) (w : TdWord) (v : Word) : Access Unit
  | loadCapabilities (qh : Nat) : Access Word
  | storeCapabilities (qh : Nat) (v : Word) : Access Unit
  /-- One 32-bit half of the 8-byte setup buffer; `false` is the low half. -/
  | loadSetup (qh : Nat) (high : Bool) : Access Word
  | loadByte (addr : Nat) : Access Byte
  | storeByte (addr : Nat) (b : Byte) : Access Unit
  /-- Clean and invalidate the cache line at an address. -/
  | dccimvac (addr : Word) : Access Unit
  /-- The address of the stack slot that holds a `self` reference. -/
  | addrOfSelf : Access Nat
  | getDriver : Access Driver
  | setDriver (d : Driver) : Access Unit

/-- Ways for driver code to go wrong. -/
inductive Fault where
  | panic
  | uninit
  deriving DecidableEq, Repr

/-- Driver code. -/
abbrev UsbM := Prog Access Fault

def readReg (r : Reg) : UsbM Word := .access (.readReg r)
def writeReg (r : Reg) (v : Word) : UsbM Unit := .access (.writeReg r v)
def loadTd (t : TdRef) (w : TdWord) : UsbM Word := .access (.loadTd t w)
def storeTd (t : TdRef) (w : TdWord) (v : Word) : UsbM Unit := .access (.storeTd t w v)
def loadCapabilities (qh : Nat) : UsbM Word := .access (.loadCapabilities qh)
def storeCapabilities (qh : Nat) (v : Word) : UsbM Unit := .access (.storeCapabilities qh v)
def loadSetup (qh : Nat) (high : Bool) : UsbM Word := .access (.loadSetup qh high)
def loadByte (addr : Nat) : UsbM Byte := .access (.loadByte addr)
def storeByte (addr : Nat) (b : Byte) : UsbM Unit := .access (.storeByte addr b)
def dccimvac (addr : Word) : UsbM Unit := .access (.dccimvac addr)
def addrOfSelf : UsbM Nat := .access .addrOfSelf
def getDriver : UsbM Driver := .access .getDriver
def setDriver (d : Driver) : UsbM Unit := .access (.setDriver d)

/-! ## Register macros -/

/-- `read_reg!(.., r, f)` -/
def readField (r : Reg) (f : Field) : UsbM Word := do
  return f.get (← readReg r)

/-- `write_reg!(.., r, f: v)`: every other field is written as 0. -/
def writeField (r : Reg) (f : Field) (v : Word) : UsbM Unit :=
  writeReg r (f.put v)

/-- The word with several (disjoint) fields replaced. -/
def setFields (fs : List (Field × Word)) (v : Word) : Word :=
  fs.foldl (fun v fx => fx.1.set fx.2 v) v

/-- `modify_reg!(.., r, f: v, ..)` -/
def modifyReg (r : Reg) (fs : List (Field × Word)) : UsbM Unit := do
  writeReg r (setFields fs (← readReg r))

/-- `modify_reg!(.., r, |v| v)`: write back what was read. -/
def writeBack (r : Reg) : UsbM Unit := do
  writeReg r (← readReg r)

/-- `while read_reg!(.., r) != 0 {}` -/
def waitZero (r : Reg) : UsbM Unit :=
  .repeatUntil do
    let v ← readReg r
    -- `none` is one more pass
    return if v != 0 then none else some ()

/-! ## Checked arithmetic -/

/-- `Option::unwrap` and `Option::expect`. -/
def unwrap {α : Type} (o : Option α) : UsbM α := .getOr .panic o

/-- `1 << i` on `u32`. -/
def bit32 (i : Nat) : UsbM Word := do
  .require .panic (i < 32)
  return 1#32 <<< i

/-- `1 << i` on `u16`. -/
def bit16 (i : Nat) : UsbM (BitVec 16) := do
  .require .panic (i < 16)
  return 1#16 <<< i

/-- `a + b` on `u32`. -/
def addU32 (a b : Word) : UsbM Word := do
  .require .panic (a.toNat + b.toNat < 2 ^ 32)
  return a + b

/-- `a + b` on `usize`. -/
def addUsize (a b : Nat) : UsbM Nat := do
  .require .panic (a + b < 2 ^ 32)
  return a + b

/-- `a - b` on `usize`. -/
def subUsize (a b : Nat) : UsbM Nat := do
  .require .panic (b ≤ a)
  return a - b

/-- `&buffer[..size]` -/
def sliceTo (buffer : List Byte) (size : Nat) : UsbM (List Byte) := do
  .require .panic (size ≤ buffer.length)
  return buffer.take size

end ImxrtUsbd
