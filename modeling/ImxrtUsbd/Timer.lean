/-
  ImxrtUsbd.Timer

  The timers behind the registers of `gpt.rs`, as the reference manual and the
  comments of the source describe them: a counter that is loaded by a reset,
  counts down while it runs, sets its flag when it has reached zero, and then
  is loaded again or waits for a reset.  `run_gptCall` says what every method
  of a `Gpt` returns and does.
-/
import ImxrtUsbd.Gpt
import ImxrtUsbd.Exec
import ImxrtUsbd.EndpointSpec

namespace ImxrtUsbd

open Lib
open Gpt (Instance Mode)

/-! ## The counters -/

/-- One timer. -/
structure Timer where
  run : Bool
  repeats : Bool
  cnt : BitVec 24
  ld : BitVec 24
  /-- It elapsed in one shot mode, and waits for a reset. -/
  done : Bool
  deriving DecidableEq, Repr

namespace Timer

/-- The control register.  `GPTRST` reads as 0. -/
def ctrl (t : Timer) : Word :=
  t.cnt.setWidth 32 ||| GPTIMERCTRL.GPTMODE.put (if t.repeats then 1 else 0)
    ||| GPTIMERCTRL.GPTRUN.put (if t.run then 1 else 0)

/-- `GPTCNT` is read only. -/
def writeCtrl (t : Timer) (v : Word) : Timer :=
  let t := { t with run := v.getLsbD 31, repeats := v.getLsbD 24 }
  if v.getLsbD 30 then { t with cnt := t.ld, done := false } else t

/-- It elapses at the next tick. -/
def Due (t : Timer) : Prop := t.run = true ∧ t.done = false ∧ t.cnt = 0

instance (t : Timer) : Decidable t.Due := inferInstanceAs (Decidable (_ ∧ _))

/-- A microsecond passes. -/
def tick (t : Timer) : Timer :=
  if t.run = false ∨ t.done = true then t
  else if t.cnt = 0 then
    if t.repeats then { t with cnt := t.ld } else { t with done := true }
  else { t with cnt := t.cnt - 1 }

end Timer

/-- The system with its timers. -/
structure TimedSys where
  sys : Sys
  timer : Instance → Timer

namespace Gpt

/-- The bit of the timer in `USBSTS` and in `USBINTR`. -/
def Instance.bit : Instance → Nat
  | .Gpt0 => 24
  | .Gpt1 => 25

/-- That bit alone. -/
def Instance.mask (i : Instance) : Word := 1#32 <<< i.bit

end Gpt

namespace TimedSys

def setTimer (x : TimedSys) (i : Instance) (t : Timer) : TimedSys :=
  { x with timer := Function.update x.timer i t }

/-- A microsecond passes for both timers. -/
def tick (x : TimedSys) : TimedSys where
  sys := x.sys.raise .USBSTS
    ((if (x.timer .Gpt0).Due then Instance.mask .Gpt0 else 0) |||
      if (x.timer .Gpt1).Due then Instance.mask .Gpt1 else 0)
  timer := fun i => (x.timer i).tick

end TimedSys

/-- The accesses of timer code. -/
def gptAct : {β : Type} → GptAccess β → TimedSys → β × TimedSys × List Empty
  | _, .readReg r, x => (x.sys.reg r, x, [])
  | _, .writeReg r v, x => ((), { x with sys := x.sys.writeReg r v }, [])
  | _, .readGpt .GPTIMER0LD, x => ((x.timer .Gpt0).ld.setWidth 32, x, [])
  | _, .readGpt .GPTIMER0CTRL, x => ((x.timer .Gpt0).ctrl, x, [])
  | _, .readGpt .GPTIMER1LD, x => ((x.timer .Gpt1).ld.setWidth 32, x, [])
  | _, .readGpt .GPTIMER1CTRL, x => ((x.timer .Gpt1).ctrl, x, [])
  | _, .writeGpt .GPTIMER0LD v, x =>
    ((), x.setTimer .Gpt0 { x.timer .Gpt0 with ld := v.setWidth 24 }, [])
  | _, .writeGpt .GPTIMER0CTRL v, x => ((), x.setTimer .Gpt0 ((x.timer .Gpt0).writeCtrl v), [])
  | _, .writeGpt .GPTIMER1LD v, x =>
    ((), x.setTimer .Gpt1 { x.timer .Gpt1 with ld := v.setWidth 24 }, [])
  | _, .writeGpt .GPTIMER1CTRL v, x => ((), x.setTimer .Gpt1 ((x.timer .Gpt1).writeCtrl v), [])

def gptMachine : Machine GptAccess TimedSys Empty := ⟨gptAct⟩

def runGpt {α : Type} (p : GptM α) (x : TimedSys) : Out TimedSys Empty Fault α :=
  exec gptMachine 1 p x

/-! ## The methods of a timer -/

/-- The methods of a `Gpt`. -/
inductive GptCall where
  | run
  | isRunning
  | stop
  | reset
  | setMode (m : Mode)
  | mode
  | setLoad (us : Word)
  | load
  | isElapsed
  | clearElapsed
  | setInterruptEnabled (enable : Bool)
  | isInterruptEnabled
  deriving DecidableEq, Repr

/-- What they return. -/
inductive GptRet where
  | unit
  | bool (b : Bool)
  | mode (m : Mode)
  | word (v : Word)
  deriving DecidableEq, Repr

namespace GptCall

/-- The method, called on a timer acquired for it. -/
def prog (i : Instance) (c : GptCall) : GptM GptRet :=
  Driver.gptMut i fun gpt =>
    match c with
    | .run => do
      gpt.run
      return .unit
    | .isRunning => return .bool (← gpt.isRunning)
    | .stop => do
      gpt.stop
      return .unit
    | .reset => do
      gpt.reset
      return .unit
    | .setMode m => do
      gpt.setMode m
      return .unit
    | .mode => return .mode (← gpt.mode)
    | .setLoad us => do
      gpt.setLoad us
      return .unit
    | .load => return .word (← gpt.load)
    | .isElapsed => return .bool (← gpt.isElapsed)
    | .clearElapsed => do
      gpt.clearElapsed
      return .unit
    | .setInterruptEnabled enable => do
      gpt.setInterruptEnabled enable
      return .unit
    | .isInterruptEnabled => return .bool (← gpt.isInterruptEnabled)

/-- What it returns. -/
def answer (i : Instance) (x : TimedSys) : GptCall → GptRet
  | .isRunning => .bool (x.timer i).run
  | .mode => .mode (if (x.timer i).repeats then .Repeat else .OneShot)
  | .load => .word ((x.timer i).ld.setWidth 32)
  | .isElapsed => .bool ((x.sys.reg .USBSTS).getLsbD i.bit)
  | .isInterruptEnabled => .bool ((x.sys.reg .USBINTR).getLsbD i.bit)
  | .run | .stop | .reset | .setMode _ | .setLoad _ | .clearElapsed
  | .setInterruptEnabled _ => .unit

/-- What it does. -/
def apply (i : Instance) (x : TimedSys) : GptCall → TimedSys
  | .run => x.setTimer i { x.timer i with run := true }
  | .stop => x.setTimer i { x.timer i with run := false }
  | .reset => x.setTimer i { x.timer i with cnt := (x.timer i).ld, done := false }
  | .setMode m => x.setTimer i { x.timer i with repeats := m == .Repeat }
  | .setLoad us => x.setTimer i { x.timer i with ld := (Gpt.count us).setWidth 24 }
  | .clearElapsed => { x with sys := x.sys.lower .USBSTS i.mask }
  | .setInterruptEnabled enable =>
    { x with sys := if enable then x.sys.raise .USBINTR i.mask else x.sys.lower .USBINTR i.mask }
  | .isRunning | .mode | .load | .isElapsed | .isInterruptEnabled => x

end GptCall

section Methods

variable {α β : Type}

@[simp] theorem runGpt_pure (a : α) (x : TimedSys) :
    runGpt (pure a) x = ⟨.ok a, x, []⟩ := (rfl)

@[simp] theorem runGpt_bind (p : GptM α) (f : α → GptM β) (x : TimedSys) :
    runGpt (p >>= f) x = (runGpt p x).andThen fun a x' => runGpt (f a) x' :=
  exec_bind gptMachine 1 p f x

/-! ### The control register -/

theorem Timer.getLsbD_ctrl (t : Timer) :
    t.ctrl.getLsbD 24 = t.repeats ∧ t.ctrl.getLsbD 30 = false ∧ t.ctrl.getLsbD 31 = t.run := by
  have hcnt : ∀ j, 24 ≤ j → (t.cnt.setWidth 32).getLsbD j = false := by
    intro j hj
    rw [BitVec.getLsbD_setWidth, BitVec.getLsbD_of_ge _ _ hj, Bool.and_false]
  have hmode : ∀ b : Bool, let v : Word := GPTIMERCTRL.GPTMODE.put (if b then 1 else 0)
      v.getLsbD 24 = b ∧ v.getLsbD 30 = false ∧ v.getLsbD 31 = false := by decide
  have hrun : ∀ b : Bool, let v : Word := GPTIMERCTRL.GPTRUN.put (if b then 1 else 0)
      v.getLsbD 24 = false ∧ v.getLsbD 30 = false ∧ v.getLsbD 31 = b := by decide
  obtain ⟨h24, h30, h31⟩ := hmode t.repeats
  obtain ⟨h24', h30', h31'⟩ := hrun t.run
  unfold ctrl
  simp only [BitVec.getLsbD_or, hcnt 24 (by omega), hcnt 30 (by omega), hcnt 31 (by omega), h24,
    h30, h31, h24', h30', h31', Bool.false_or, Bool.or_false, and_self]

/-- A field of one bit, set in a word. -/
theorem getLsbD_setFlag_self {i : Nat} (b : Bool) (v : Word) (hi : i < 32) :
    ((⟨i, 1⟩ : Field).set (if b then 1 else 0) v).getLsbD i = b := by
  rw [Field.getLsbD_set _ _ _ hi, if_pos ⟨Nat.le_refl i, Nat.lt_succ_self i⟩, Nat.sub_self]
  cases b <;> decide

theorem getLsbD_setFlag_of_ne {i j : Nat} (x v : Word) (hj : j < 32) (hne : j ≠ i) :
    ((⟨i, 1⟩ : Field).set x v).getLsbD j = v.getLsbD j := by
  rw [Field.getLsbD_set _ _ _ hj, if_neg]
  rintro ⟨h1, h2⟩
  have h1 : i ≤ j := h1
  have h2 : j < i + 1 := h2
  omega

namespace Timer

variable (t : Timer)

theorem writeCtrl_eq {v : Word} {run repeats reset : Bool} (h31 : v.getLsbD 31 = run)
    (h24 : v.getLsbD 24 = repeats) (h30 : v.getLsbD 30 = reset) :
    t.writeCtrl v = { t with
      run, repeats
      cnt := if reset then t.ld else t.cnt
      done := !reset && t.done } := by
  subst h31 h24
  simp only [writeCtrl, h30]
  cases reset <;> rfl

/-- The control register with one field replaced, written back: its other
    fields keep their values. -/
theorem writeCtrl_run (b : Bool) :
    t.writeCtrl (GPTIMERCTRL.GPTRUN.set (if b then 1 else 0) t.ctrl) = { t with run := b } := by
  obtain ⟨h24, h30, -⟩ := t.getLsbD_ctrl
  have hkept := fun j => getLsbD_setFlag_of_ne (i := 31) (j := j) (if b then 1 else 0) t.ctrl
  exact t.writeCtrl_eq (getLsbD_setFlag_self b t.ctrl (by omega))
    ((hkept 24 (by omega) (by omega)).trans h24) ((hkept 30 (by omega) (by omega)).trans h30)

theorem writeCtrl_mode (b : Bool) :
    t.writeCtrl (GPTIMERCTRL.GPTMODE.set (if b then 1 else 0) t.ctrl) =
      { t with repeats := b } := by
  obtain ⟨-, h30, h31⟩ := t.getLsbD_ctrl
  have hkept := fun j => getLsbD_setFlag_of_ne (i := 24) (j := j) (if b then 1 else 0) t.ctrl
  exact t.writeCtrl_eq ((hkept 31 (by omega) (by omega)).trans h31)
    (getLsbD_setFlag_self b t.ctrl (by omega)) ((hkept 30 (by omega) (by omega)).trans h30)

theorem writeCtrl_reset :
    t.writeCtrl (GPTIMERCTRL.GPTRST.set 1 t.ctrl) = { t with cnt := t.ld, done := false } := by
  obtain ⟨h24, -, h31⟩ := t.getLsbD_ctrl
  have hkept := fun j => getLsbD_setFlag_of_ne (i := 30) (j := j) 1 t.ctrl
  exact t.writeCtrl_eq ((hkept 31 (by omega) (by omega)).trans h31)
    ((hkept 24 (by omega) (by omega)).trans h24) (getLsbD_setFlag_self true t.ctrl (by omega))

end Timer

/-! ### The methods -/

/-- The flags of the timers are their bits. -/
theorem Gpt.Instance.flag_get (v : Word) :
    (USBSTS.TI0.get v == 1) = v.getLsbD (Instance.bit .Gpt0) ∧
      (USBSTS.TI1.get v == 1) = v.getLsbD (Instance.bit .Gpt1) :=
  ⟨Field.get_bit_eq_one _ v rfl (by omega), Field.get_bit_eq_one _ v rfl (by omega)⟩

theorem Timer.get_mode (t : Timer) :
    GPTIMERCTRL.GPTMODE.get t.ctrl = if t.repeats then 1 else 0 := by
  apply BitVec.eq_of_getLsbD_eq
  intro j hj
  rw [Field.getLsbD_get]
  by_cases h0 : j < GPTIMERCTRL.GPTMODE.width
  · obtain rfl : j = 0 := Nat.lt_one_iff.mp h0
    have hbit : t.ctrl.getLsbD (GPTIMERCTRL.GPTMODE.offset + 0) = t.repeats := t.getLsbD_ctrl.1
    rw [hbit]
    cases t.repeats <;> decide
  · have hj0 : j ≠ 0 := fun hz => h0 (by rw [hz]; decide)
    rw [decide_eq_false h0, Bool.false_and]
    cases t.repeats with
    | false => exact BitVec.getLsbD_zero.symm
    | true =>
      show false = (1#32).getLsbD j
      rw [BitVec.getLsbD_one, decide_eq_false hj0, Bool.and_false]

theorem Gpt.Instance.mask_getLsbD (i : Instance) {j : Nat} (hj : j < 32) :
    i.mask.getLsbD j = decide (j = i.bit) := by
  rw [Instance.mask, Field.getLsbD_bit, decide_eq_true hj, Bool.true_and]

/-- A flag is set and cleared by its bit. -/
theorem Gpt.Instance.setFlag (i : Instance) (b : Bool) (v : Word) :
    (⟨i.bit, 1⟩ : Field).set (if b then 1 else 0) v =
      if b then v ||| i.mask else v &&& ~~~ i.mask := by
  have hi : i.bit < 32 := by cases i <;> decide
  apply BitVec.eq_of_getLsbD_eq
  intro j hj
  have hor : (v ||| i.mask).getLsbD j = (v.getLsbD j || decide (j = i.bit)) := by
    rw [BitVec.getLsbD_or, i.mask_getLsbD hj]
  have hand : (v &&& ~~~ i.mask).getLsbD j = (v.getLsbD j && !decide (j = i.bit)) := by
    rw [BitVec.getLsbD_and, BitVec.getLsbD_not, i.mask_getLsbD hj, decide_eq_true hj,
      Bool.true_and]
  by_cases hji : j = i.bit
  · subst hji
    rw [getLsbD_setFlag_self b v hi]
    cases b with
    | false => rw [if_neg Bool.false_ne_true, hand, decide_eq_true rfl, Bool.not_true,
        Bool.and_false]
    | true => rw [if_pos rfl, hor, decide_eq_true rfl, Bool.or_true]
  · rw [getLsbD_setFlag_of_ne _ v hj hji]
    cases b with
    | false => rw [if_neg Bool.false_ne_true, hand, decide_eq_false hji, Bool.not_false,
        Bool.and_true]
    | true => rw [if_pos rfl, hor, decide_eq_false hji, Bool.or_false]

/-- Every method returns, and does what is said of it; `mode` never finds a
    value that is no mode. -/
theorem run_gptCall (i : Instance) (c : GptCall) (x : TimedSys) :
    runGpt (c.prog i) x = ⟨.ok (c.answer i x), c.apply i x, []⟩ := by
  cases c with
  | run =>
    -- one register is written, and what is written is the timer after the method
    have h := (x.timer i).writeCtrl_run true
    cases i <;> exact congrArg (fun t => Out.mk (.ok GptRet.unit) (x.setTimer _ t) []) h
  | stop =>
    have h := (x.timer i).writeCtrl_run false
    cases i <;> exact congrArg (fun t => Out.mk (.ok GptRet.unit) (x.setTimer _ t) []) h
  | reset =>
    have h := (x.timer i).writeCtrl_reset
    cases i <;> exact congrArg (fun t => Out.mk (.ok GptRet.unit) (x.setTimer _ t) []) h
  | setMode m =>
    have h := (x.timer i).writeCtrl_mode (m == .Repeat)
    cases m <;> cases i <;>
      exact congrArg (fun t => Out.mk (.ok GptRet.unit) (x.setTimer _ t) []) h
  | setLoad us => cases i <;> rfl
  | load => cases i <;> rfl
  | isRunning =>
    have h := Field.get_bit_eq_one GPTIMERCTRL.GPTRUN (x.timer i).ctrl rfl (by omega)
    have hbit : (x.timer i).ctrl.getLsbD 31 = (x.timer i).run := (x.timer i).getLsbD_ctrl.2.2
    cases i <;> exact congrArg (fun b => Out.mk (.ok (GptRet.bool b)) x []) (h.trans hbit)
  | mode =>
    -- the panic for a raw value that is no mode stands in the program
    have hprog : runGpt (GptCall.mode.prog i) x = runGpt (do
        let m ← (if GPTIMERCTRL.GPTMODE.get (x.timer i).ctrl == Mode.Repeat.raw then
            return .Repeat
          else if GPTIMERCTRL.GPTMODE.get (x.timer i).ctrl == Mode.OneShot.raw then
            return .OneShot
          else .fail .panic : GptM Mode)
        return .mode m) x := by
      cases i <;> rfl
    rw [hprog, (x.timer i).get_mode, GptCall.answer]
    cases (x.timer i).repeats <;> rfl
  | isElapsed =>
    obtain ⟨h0, h1⟩ := Instance.flag_get (x.sys.reg .USBSTS)
    cases i with
    | Gpt0 => exact congrArg (fun b => Out.mk (.ok (GptRet.bool b)) x []) h0
    | Gpt1 => exact congrArg (fun b => Out.mk (.ok (GptRet.bool b)) x []) h1
  | isInterruptEnabled =>
    obtain ⟨h0, h1⟩ := Instance.flag_get (x.sys.reg .USBINTR)
    cases i with
    | Gpt0 => exact congrArg (fun b => Out.mk (.ok (GptRet.bool b)) x []) h0
    | Gpt1 => exact congrArg (fun b => Out.mk (.ok (GptRet.bool b)) x []) h1
  | clearElapsed =>
    have h : (USBSTS.TI0.put 1 : Word) = Instance.mask .Gpt0 ∧
        (USBSTS.TI1.put 1 : Word) = Instance.mask .Gpt1 := by decide
    cases i with
    | Gpt0 => exact congrArg (fun v => Out.mk (.ok GptRet.unit)
        { x with sys := x.sys.lower .USBSTS v } []) h.1
    | Gpt1 => exact congrArg (fun v => Out.mk (.ok GptRet.unit)
        { x with sys := x.sys.lower .USBSTS v } []) h.2
  | setInterruptEnabled b =>
    have h := i.setFlag b (x.sys.reg .USBINTR)
    have happly : (GptCall.setInterruptEnabled b).apply i x =
        { x with sys := x.sys.setReg .USBINTR (if b then x.sys.reg .USBINTR ||| i.mask
          else x.sys.reg .USBINTR &&& ~~~ i.mask) } := by
      cases b <;> rfl
    rw [happly, ← h]
    cases i <;> rfl

end Methods

end ImxrtUsbd
