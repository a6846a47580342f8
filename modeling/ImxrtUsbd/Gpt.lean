/-
  ImxrtUsbd.Gpt

  `gpt.rs`: the two general purpose timers of the USB controller.  A `Gpt`
  borrows the register block of the driver, so its code is a program over
  register accesses alone; the counters have registers of their own (`GptReg`),
  their flags and interrupt enables are bits of `USBSTS` and `USBINTR`.
-/
import ImxrtUsbd.Driver

namespace ImxrtUsbd

open Lib

/-! ## Registers -/

/-- The registers of the timers. -/
inductive GptReg where
  | GPTIMER0LD | GPTIMER0CTRL | GPTIMER1LD | GPTIMER1CTRL
  deriving DecidableEq, Repr

namespace USBSTS
def TI0 : Field := ⟨24, 1⟩
def TI1 : Field := ⟨25, 1⟩
end USBSTS

namespace USBINTR
def TIE0 : Field := ⟨24, 1⟩
def TIE1 : Field := ⟨25, 1⟩
end USBINTR

namespace GPTIMERCTRL
def GPTMODE : Field := ⟨24, 1⟩
def GPTRST : Field := ⟨30, 1⟩
def GPTRUN : Field := ⟨31, 1⟩
end GPTIMERCTRL

/-- One access of timer code. -/
inductive GptAccess : Type → Type where
  | readReg (r : Reg) : GptAccess Word
  | writeReg (r : Reg) (v : Word) : GptAccess Unit
  | readGpt (r : GptReg) : GptAccess Word
  | writeGpt (r : GptReg) (v : Word) : GptAccess Unit

/-- Timer code. -/
abbrev GptM := Prog GptAccess Fault

/-- `modify_reg!(.., r, f: v)` -/
def modifyGpt (r : GptReg) (f : Field) (v : Word) : GptM Unit := do
  Prog.access (.writeGpt r (f.set v (← Prog.access (.readGpt r))))

/-- `read_reg!(.., r, f)` -/
def readGptField (r : GptReg) (f : Field) : GptM Word := do
  return f.get (← Prog.access (.readGpt r))

namespace Gpt

/-- GPT timer mode. -/
inductive Mode where
  | OneShot
  | Repeat
  deriving DecidableEq, Repr

/-- `mode as u32` -/
def Mode.raw : Mode → Word
  | .OneShot => 0
  | .Repeat => 1

/-- GPT instance identifiers. -/
inductive Instance where
  | Gpt0
  | Gpt1
  deriving DecidableEq, Repr

end Gpt

/-- A timer.  The register block is borrowed, not data. -/
structure Gpt where
  gpt : Gpt.Instance
  deriving DecidableEq, Repr

namespace Gpt

def new (gpt : Instance) : Gpt := ⟨gpt⟩

def run (self : Gpt) : GptM Unit :=
  match self.gpt with
  | .Gpt0 => modifyGpt .GPTIMER0CTRL GPTIMERCTRL.GPTRUN 1
  | .Gpt1 => modifyGpt .GPTIMER1CTRL GPTIMERCTRL.GPTRUN 1

def isRunning (self : Gpt) : GptM Bool :=
  match self.gpt with
  | .Gpt0 => return (← readGptField .GPTIMER0CTRL GPTIMERCTRL.GPTRUN) == 1
  | .Gpt1 => return (← readGptField .GPTIMER1CTRL GPTIMERCTRL.GPTRUN) == 1

def stop (self : Gpt) : GptM Unit :=
  match self.gpt with
  | .Gpt0 => modifyGpt .GPTIMER0CTRL GPTIMERCTRL.GPTRUN 0
  | .Gpt1 => modifyGpt .GPTIMER1CTRL GPTIMERCTRL.GPTRUN 0

/-- Loads the counter value.  It does not stop a running counter. -/
def reset (self : Gpt) : GptM Unit :=
  match self.gpt with
  | .Gpt0 => modifyGpt .GPTIMER0CTRL GPTIMERCTRL.GPTRST 1
  | .Gpt1 => modifyGpt .GPTIMER1CTRL GPTIMERCTRL.GPTRST 1

def setMode (self : Gpt) (mode : Mode) : GptM Unit :=
  match self.gpt with
  | .Gpt0 => modifyGpt .GPTIMER0CTRL GPTIMERCTRL.GPTMODE mode.raw
  | .Gpt1 => modifyGpt .GPTIMER1CTRL GPTIMERCTRL.GPTMODE mode.raw

def mode (self : Gpt) : GptM Mode := do
  let mode ← match self.gpt with
    | .Gpt0 => readGptField .GPTIMER0CTRL GPTIMERCTRL.GPTMODE
    | .Gpt1 => readGptField .GPTIMER1CTRL GPTIMERCTRL.GPTMODE
  if mode == Mode.Repeat.raw then
    return .Repeat
  else if mode == Mode.OneShot.raw then
    return .OneShot
  else
    -- All raw mode values handled
    .fail .panic

/-- The load value for a delay of `us` microseconds. -/
def count (us : Word) : Word := BitVec.ofNat 32 (min (max us.toNat 1) 0xFFFFFF - 1)

def setLoad (self : Gpt) (us : Word) : GptM Unit :=
  match self.gpt with
  | .Gpt0 => .access (.writeGpt .GPTIMER0LD (count us))
  | .Gpt1 => .access (.writeGpt .GPTIMER1LD (count us))

def load (self : Gpt) : GptM Word :=
  match self.gpt with
  | .Gpt0 => .access (.readGpt .GPTIMER0LD)
  | .Gpt1 => .access (.readGpt .GPTIMER1LD)

def isElapsed (self : Gpt) : GptM Bool := do
  let usbsts ← Prog.access (.readReg .USBSTS)
  match self.gpt with
  | .Gpt0 => return USBSTS.TI0.get usbsts == 1
  | .Gpt1 => return USBSTS.TI1.get usbsts == 1

def clearElapsed (self : Gpt) : GptM Unit :=
  match self.gpt with
  | .Gpt0 => .access (.writeReg .USBSTS (USBSTS.TI0.put 1))
  | .Gpt1 => .access (.writeReg .USBSTS (USBSTS.TI1.put 1))

def setInterruptEnabled (self : Gpt) (enable : Bool) : GptM Unit := do
  let usbintr ← Prog.access (.readReg .USBINTR)
  match self.gpt with
  | .Gpt0 => .access (.writeReg .USBINTR (USBINTR.TIE0.set (if enable then 1 else 0) usbintr))
  | .Gpt1 => .access (.writeReg .USBINTR (USBINTR.TIE1.set (if enable then 1 else 0) usbintr))

def isInterruptEnabled (self : Gpt) : GptM Bool := do
  let usbintr ← Prog.access (.readReg .USBINTR)
  match self.gpt with
  | .Gpt0 => return USBINTR.TIE0.get usbintr == 1
  | .Gpt1 => return USBINTR.TIE1.get usbintr == 1

end Gpt

namespace Driver

/-- Acquire mutable access to a GPT timer. -/
def gptMut {R : Type} (inst : Gpt.Instance) (f : Gpt → GptM R) : GptM R := f (Gpt.new inst)

end Driver

end ImxrtUsbd
