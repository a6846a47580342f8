/-
  ImxrtUsbd.Timers

  What a timer is worth to its user.  Each of the two is an interval timer of
  its own (`timer_is_clock`), whatever is done to the other one, to the USB
  side of the driver, and by the controller.  So it elapses when it was asked
  to (`timer_elapses`), and its flag says whether it did (`elapsed_flag`).
  `interrupt_line` is when the controller asks for an interrupt at all.
-/
import ImxrtUsbd.TimedSystem
import ImxrtUsbd.Lib.Clock

namespace ImxrtUsbd

open Lib
open Gpt (Instance Mode)

/-! ## A timer as a clock -/

namespace TimedSys

/-- A timer, with its flag and its interrupt enable. -/
def clock (i : Instance) (x : TimedSys) : Clock where
  running := (x.timer i).run
  repeats := (x.timer i).repeats
  period := (x.timer i).ld.toNat + 1
  left := if (x.timer i).done then none else some (x.timer i).cnt.toNat
  elapsed := (x.sys.reg .USBSTS).getLsbD i.bit
  alarm := (x.sys.reg .USBINTR).getLsbD i.bit

end TimedSys

/-- The delay that `set_load` sets, in microseconds. -/
def Gpt.delay (us : Word) : Nat := min (max us.toNat 1) 0xFFFFFF

/-- What a call means for the clock. -/
def GptCall.mark (r : GptRet) : GptCall → Clock.Mark
  | .run => .op .start
  | .stop => .op .stop
  | .reset => .op .restart
  | .setMode m => .op (.setRepeats (m == .Repeat))
  | .setLoad us => .op (.setPeriod (Gpt.delay us))
  | .clearElapsed => .op .clear
  | .setInterruptEnabled enable => .op (.setAlarm enable)
  | .isRunning => .read (.running (r == .bool true))
  | .mode => .read (.repeats (r == .mode .Repeat))
  | .load => .read (.period (match r with | .word v => v.toNat + 1 | _ => 0))
  | .isElapsed => .read (.elapsed (r == .bool true))
  | .isInterruptEnabled => .read (.alarm (r == .bool true))

/-- What is seen of a step at one timer. -/
def TimedLabel.mark? (i : Instance) : TimedLabel → Option Clock.Mark
  | .usb _ => none
  | .gpt j c r => if j = i then some (c.mark r) else none
  | .tick => some (.op .tick)

section Clock

variable {x x' : TimedSys} {i : Instance}

theorem Gpt.Instance.bit_inj {i j : Instance} : i.bit = j.bit ↔ i = j := by
  cases i <;> cases j <;> decide

theorem Gpt.Instance.bit_lt (i : Instance) : i.bit < 32 := by cases i <;> decide

theorem toNat_count (us : Word) :
    ((Gpt.count us).setWidth 24).toNat + 1 = Gpt.delay us := by
  have hlt : Gpt.delay us - 1 < 2 ^ 24 := by unfold Gpt.delay; omega
  have hpos : 0 < Gpt.delay us := by unfold Gpt.delay; omega
  have hcount : Gpt.count us = BitVec.ofNat 32 (Gpt.delay us - 1) := rfl
  rw [hcount, BitVec.toNat_setWidth, BitVec.toNat_ofNat]
  omega

theorem TimedSys.clock_setTimer (i : Instance) (x : TimedSys) (t : Timer) :
    (x.setTimer i t).clock i = { x.clock i with
      running := t.run
      repeats := t.repeats
      period := t.ld.toNat + 1
      left := if t.done then none else some t.cnt.toNat } := by
  simp [clock, setTimer]

theorem Gpt.Instance.getLsbD_or_mask (i j : Instance) (v : Word) :
    (v ||| j.mask).getLsbD i.bit = (v.getLsbD i.bit || decide (i = j)) := by
  rw [BitVec.getLsbD_or, j.mask_getLsbD i.bit_lt]
  simp only [Instance.bit_inj]

theorem Gpt.Instance.getLsbD_and_mask (i j : Instance) (v : Word) :
    (v &&& ~~~ j.mask).getLsbD i.bit = (v.getLsbD i.bit && !decide (i = j)) := by
  rw [BitVec.getLsbD_and, BitVec.getLsbD_not, j.mask_getLsbD i.bit_lt, decide_eq_true i.bit_lt,
    Bool.true_and]
  simp only [Instance.bit_inj]

/-- A call on a timer is an operation on its clock, or an answer that is right. -/
theorem GptCall.step_clock (c : GptCall) (i : Instance) (x : TimedSys) :
    Clock.Step (x.clock i) (c.mark (c.answer i x)) ((c.apply i x).clock i) := by
  -- what a method sets is an operation of the clock
  have hset : ∀ {t : Timer} {o : Clock.Op}, (x.setTimer i t).clock i = (x.clock i).apply o →
      Clock.Step (x.clock i) (.op o) ((x.setTimer i t).clock i) := by
    intro t o h
    rw [h]
    exact .op o
  have hbool : ∀ b : Bool, (GptRet.bool b == .bool true) = b := by decide
  cases c with
  | run => exact hset (by rw [TimedSys.clock_setTimer]; rfl)
  | stop => exact hset (by rw [TimedSys.clock_setTimer]; rfl)
  | reset => exact hset (by rw [TimedSys.clock_setTimer]; rfl)
  | setMode m => exact hset (by rw [TimedSys.clock_setTimer]; rfl)
  | setLoad us => exact hset (by rw [TimedSys.clock_setTimer, toNat_count]; rfl)
  | isRunning => exact .read (hbool _).symm
  | isElapsed => exact .read (hbool _).symm
  | isInterruptEnabled => exact .read (hbool _).symm
  | mode =>
    refine .read (show (x.timer i).repeats = _ from ?_)
    rw [answer]
    cases (x.timer i).repeats <;> decide
  | load =>
    -- the load register is 24 bits wide and counts from zero
    have hld : ((x.timer i).ld.setWidth 32).toNat = (x.timer i).ld.toNat := by
      have := (x.timer i).ld.isLt
      rw [BitVec.toNat_setWidth]
      omega
    exact .read (congrArg (fun n => n + 1) hld.symm)
  | clearElapsed =>
    have hbit := i.getLsbD_and_mask i (x.sys.reg .USBSTS)
    rw [decide_eq_true rfl, Bool.not_true, Bool.and_false] at hbit
    have h : ((clearElapsed).apply i x).clock i = (x.clock i).apply .clear :=
      congrArg (fun b => { x.clock i with elapsed := b }) hbit
    rw [h]
    exact .op .clear
  | setInterruptEnabled enable =>
    have h : ((setInterruptEnabled enable).apply i x).clock i =
        (x.clock i).apply (.setAlarm enable) := by
      cases enable with
      | false =>
        have hbit := i.getLsbD_and_mask i (x.sys.reg .USBINTR)
        rw [decide_eq_true rfl, Bool.not_true, Bool.and_false] at hbit
        exact congrArg (fun b => { x.clock i with alarm := b }) hbit
      | true =>
        have hbit := i.getLsbD_or_mask i (x.sys.reg .USBINTR)
        rw [decide_eq_true rfl, Bool.or_true] at hbit
        exact congrArg (fun b => { x.clock i with alarm := b }) hbit
    rw [h]
    exact .op _

/-- It is nothing to the other one. -/
theorem GptCall.clock_other (c : GptCall) {i j : Instance} (hij : i ≠ j) (x : TimedSys) :
    (c.apply j x).clock i = x.clock i := by
  have hset : ∀ t : Timer, (x.setTimer j t).clock i = x.clock i := by
    intro t
    have ht : (x.setTimer j t).timer i = x.timer i := Function.update_of_ne hij _ _
    rw [TimedSys.clock, ht]
    rfl
  cases c with
  | run | stop | reset | setMode | setLoad => exact hset _
  | isRunning | mode | load | isElapsed | isInterruptEnabled => rfl
  | clearElapsed =>
    have hbit := i.getLsbD_and_mask j (x.sys.reg .USBSTS)
    rw [decide_eq_false hij, Bool.not_false, Bool.and_true] at hbit
    exact congrArg (fun b => { x.clock i with elapsed := b }) hbit
  | setInterruptEnabled enable =>
    cases enable with
    | false =>
      have hbit := i.getLsbD_and_mask j (x.sys.reg .USBINTR)
      rw [decide_eq_false hij, Bool.not_false, Bool.and_true] at hbit
      exact congrArg (fun b => { x.clock i with alarm := b }) hbit
    | true =>
      have hbit := i.getLsbD_or_mask j (x.sys.reg .USBINTR)
      rw [decide_eq_false hij, Bool.or_false] at hbit
      exact congrArg (fun b => { x.clock i with alarm := b }) hbit

theorem TimedSys.due_iff (i : Instance) (x : TimedSys) : (x.timer i).Due ↔ (x.clock i).Due := by
  have hclock : (x.clock i).Due ↔ (x.timer i).run = true ∧
      (if (x.timer i).done then none else some (x.timer i).cnt.toNat) = some 0 := Iff.rfl
  rw [hclock, Timer.Due]
  refine and_congr_right fun _ => ?_
  cases (x.timer i).done with
  | true => simp
  | false => simp [BitVec.toNat_eq]

/-- A tick raises the flag of a timer that is due. -/
theorem TimedSys.elapsed_tick (i : Instance) (x : TimedSys) :
    (x.tick.sys.reg .USBSTS).getLsbD i.bit =
      ((x.sys.reg .USBSTS).getLsbD i.bit || decide (x.timer i).Due) := by
  have hz : (0 : Word).getLsbD i.bit = false := BitVec.getLsbD_zero
  have hmask : ∀ j : Instance, (if (x.timer j).Due then j.mask else 0 : Word).getLsbD i.bit =
      (decide (x.timer j).Due && decide (i = j)) := by
    intro j
    by_cases hd : (x.timer j).Due
    · rw [if_pos hd, j.mask_getLsbD i.bit_lt, decide_eq_true hd, Bool.true_and]
      simp only [Instance.bit_inj]
    · rw [if_neg hd, hz, decide_eq_false hd, Bool.false_and]
  show (x.sys.reg .USBSTS ||| (_ ||| _)).getLsbD i.bit = _
  rw [BitVec.getLsbD_or, BitVec.getLsbD_or, hmask, hmask]
  cases i with
  | Gpt0 => simp
  | Gpt1 => simp

theorem TimedSys.clock_tick (i : Instance) (x : TimedSys) :
    x.tick.clock i = (x.clock i).apply .tick := by
  have htick : x.tick.clock i = Clock.mk (x.timer i).tick.run (x.timer i).tick.repeats
      ((x.timer i).tick.ld.toNat + 1)
      (if (x.timer i).tick.done then none else some (x.timer i).tick.cnt.toNat)
      ((x.sys.reg .USBSTS).getLsbD i.bit || decide (x.timer i).Due)
      ((x.sys.reg .USBINTR).getLsbD i.bit) := by
    rw [← elapsed_tick]
    rfl
  rw [htick, clock]
  generalize x.timer i = t
  obtain ⟨run, repeats, cnt, ld, done⟩ := t
  cases run with
  | false => simp [Timer.tick, Timer.Due, Clock.apply]
  | true =>
    cases done with
    | true => simp [Timer.tick, Timer.Due, Clock.apply, Clock.countDown]
    | false =>
      by_cases h0 : cnt = 0
      · -- it elapses, and is loaded again or waits
        subst h0
        cases repeats <;> simp [Timer.tick, Timer.Due, Clock.apply, Clock.countDown]
      · have hpos : cnt.toNat ≠ 0 := fun h => h0 (BitVec.eq_of_toNat_eq h)
        obtain ⟨n, hn⟩ := Nat.exists_eq_succ_of_ne_zero hpos
        have hpred : (cnt - 1).toNat = n := by
          have hlt := cnt.isLt
          rw [BitVec.toNat_sub]
          show (2 ^ 24 - 1 + cnt.toNat) % 2 ^ 24 = n
          omega
        have htick : Timer.tick ⟨true, repeats, cnt, ld, false⟩ =
            ⟨true, repeats, cnt - 1, ld, false⟩ := by
          rw [Timer.tick, if_neg (by simp), if_neg h0]
        have hdue : ¬ Timer.Due ⟨true, repeats, cnt, ld, false⟩ := fun hd => h0 hd.2.2
        rw [htick, decide_eq_false hdue, Bool.or_false]
        simp only [hpred, hn, Clock.apply, Clock.countDown]
        rfl

/-- A step of the USB side leaves the bits of the timers alone. -/
theorem Step.timer_bits {s s' : Sys} {l : Label} (h : s.WF) (hstep : Step s l s') (i : Instance) :
    (s'.reg .USBSTS).getLsbD i.bit = (s.reg .USBSTS).getLsbD i.bit ∧
      (s'.reg .USBINTR).getLsbD i.bit = (s.reg .USBINTR).getLsbD i.bit := by
  have hi : i.bit = 24 ∨ i.bit = 25 := by cases i <;> decide
  have hlower : ∀ (v m : Word), m.getLsbD i.bit = false →
      (v &&& ~~~ m).getLsbD i.bit = v.getLsbD i.bit := by
    intro v m hm
    rw [BitVec.getLsbD_and, BitVec.getLsbD_not, hm, decide_eq_true i.bit_lt]
    exact Bool.and_true _
  have hraise : ∀ (v m : Word), m.getLsbD i.bit = false →
      (v ||| m).getLsbD i.bit = v.getLsbD i.bit := by
    intro v m hm
    rw [BitVec.getLsbD_or, hm, Bool.or_false]
  have hui : (USBSTS.UI.put 1 : Word).getLsbD i.bit = false := by cases i <;> decide
  have huri : (USBSTS.URI.put 1 : Word).getLsbD i.bit = false := by cases i <;> decide
  have huei : (USBSTS.UI.put 1 ||| USBSTS.UEI.put 1 : Word).getLsbD i.bit = false := by
    cases i <;> decide
  cases hstep with
  | @hw ev hev =>
    cases ev with
    | outDone | inDone | setup => exact ⟨hraise _ _ hui, rfl⟩
    | error => exact ⟨hraise _ _ huei, rfl⟩
    | resetBegin => exact ⟨hraise _ _ huri, rfl⟩
    | nak | resetEnd => exact ⟨rfl, rfl⟩
  | @call c r s' obs hrun =>
    constructor
    · by_cases hc : c.writes .USBSTS
      · -- the poll acknowledges its own flags only
        have hpoll : c = .poll := by
          cases c <;> simp [Call.writes, Reg.isCtrl] at hc ⊢
        subst hpoll
        obtain ⟨-, ⟨-, -, rfl⟩ | ⟨-, -, -, rfl⟩ | ⟨-, -, -, rfl⟩⟩ := poll_leaves hrun
        · exact hlower _ _ huri
        · exact hlower _ _ hui
        · rfl
      · rw [Call.reg_kept h hc (by simp) hrun]
    · by_cases hc : c.writes .USBINTR
      · have hset : ∃ interrupts, c = .setInterrupts interrupts := by
          cases c <;> simp [Call.writes, Reg.isCtrl] at hc ⊢
        obtain ⟨interrupts, rfl⟩ := hset
        have hfields : ∀ y v : Word,
            (setFields [(USBINTR.UE, y), (USBINTR.URE, y)] v).getLsbD i.bit =
              v.getLsbD i.bit := by
          intro y v
          show (USBINTR.URE.set y (USBINTR.UE.set y v)).getLsbD i.bit = _
          rw [Field.getLsbD_set _ _ _ i.bit_lt, if_neg (by cases i <;> decide),
            Field.getLsbD_set _ _ _ i.bit_lt, if_neg (by cases i <;> decide)]
        obtain ⟨rfl, -⟩ := setInterrupts_leaves hrun
        exact hfields _ _
      · rw [Call.reg_kept h hc (by simp) hrun]

end Clock

/-! ## Runs -/

/-- The history of one timer. -/
def TimedTrace.clock (i : Instance) (tr : TimedTrace) : Hist Clock Clock.Mark :=
  shadow (fun x => x.clock i) (fun _ l => l.mark? i) tr

section Runs

variable {x x' : TimedSys} {tr : TimedTrace} {i : Instance}

theorem timer_refines (i : Instance) : Refines TimedStep Clock.Step (fun _ _ => True)
    (fun _ l => l.mark? i) (fun x c => c = x.clock i ∧ x.sys.WF) where
  visible := by
    rintro x x' _ l k ⟨rfl, hwf⟩ - hstep hk
    refine ⟨_, ?_, rfl, hstep.wf hwf⟩
    cases hstep with
    | usb => simp [TimedLabel.mark?] at hk
    | @gpt j c r x' hrun =>
      obtain ⟨rfl, rfl⟩ := TimedStep.gpt_eq (.gpt hrun)
      by_cases hij : j = i
      · subst hij
        obtain rfl := Option.some.inj ((if_pos rfl).symm.trans hk)
        exact c.step_clock j x
      · exact absurd ((if_neg hij).symm.trans hk) (by simp)
    | tick =>
      obtain rfl := Option.some.inj hk
      rw [TimedSys.clock_tick]
      exact .op .tick
  silent := by
    rintro x x' _ l ⟨rfl, hwf⟩ - hstep hk
    refine ⟨?_, hstep.wf hwf⟩
    cases hstep with
    | @usb l s' hstep =>
      -- the USB side leaves the flags of the timers
      obtain ⟨hsts, hintr⟩ := hstep.timer_bits hwf i
      simp only [TimedSys.clock, hsts, hintr]
    | @gpt j c r x' hrun =>
      obtain ⟨rfl, rfl⟩ := TimedStep.gpt_eq (.gpt hrun)
      have hij : i ≠ j := by
        rintro rfl
        exact absurd ((if_pos rfl).symm.trans hk) (by simp)
      exact (c.clock_other hij x).symm
    | tick => simp [TimedLabel.mark?] at hk

theorem clock_run (h : x.sys.WF) (hrun : Run TimedStep x tr x') :
    Run Clock.Step (x.clock i) (tr.clock i) (x'.clock i) :=
  ((timer_refines i).run_shadow hrun (fun _ _ _ _ _ => trivial) h).1

/-- In every run each timer is an interval timer: a call on it does to it what
    its name says, every answer is right, a tick counts down, and nothing else,
    USB or the other timer, has a part in it. -/
theorem timer_is_clock (hb : Booted x.sys.untimed) (hrun : Run TimedStep x tr x') :
    Run Clock.Step (x.clock i) (tr.clock i) (x'.clock i) :=
  clock_run (wf_of_untimed hb.idle.wf) hrun

theorem timer_is_clock_device : ∃ (x' : TimedSys) (tr : TimedTrace),
    Run Clock.Step (timedDevice.clock .Gpt1) (tr.clock .Gpt1) (x'.clock .Gpt1) ∧
      (tr.clock .Gpt1).length = 6 ∧ (x'.clock .Gpt1).elapsed = true := by
  obtain ⟨tr, x', hrun, hp⟩ := exists_performed timedPerform_sound
    (p := fun tr x' => (TimedTrace.clock .Gpt1 tr).length = 6 ∧
      (TimedSys.clock .Gpt1 x').elapsed = true) timedDevice
    [.gpt .Gpt1 (.setLoad 2), .gpt .Gpt1 .reset, .gpt .Gpt0 .run, .usb (.call .enable),
      .gpt .Gpt1 .run, .tick, .gpt .Gpt0 .clearElapsed, .tick, .gpt .Gpt1 .isElapsed]
    (by decide +kernel)
  exact ⟨x', tr, timer_is_clock timedDevice_booted hrun, hp⟩

end Runs

/-! ## Elapsing -/

def TimedLabel.isTick : TimedLabel → Bool
  | .tick => true
  | _ => false

/-- How many microseconds passed. -/
def TimedTrace.ticks (tr : TimedTrace) : Nat := tr.countP fun y => y.2.isTick

/-- How often the timer elapsed. -/
def TimedTrace.elapses (i : Instance) (tr : TimedTrace) : Nat :=
  tr.countP fun y => y.2.isTick && decide (y.1.timer i).Due

/-- The call changes neither the counting of a timer nor what happens at its end. -/
def GptCall.Leaves : GptCall → Prop
  | .stop | .reset | .setMode _ | .setLoad _ => False
  | .run | .isRunning | .mode | .load | .isElapsed | .clearElapsed | .setInterruptEnabled _
  | .isInterruptEnabled => True

/-- The step leaves the timer alone in that sense. -/
def TimedLabel.Leaves (i : Instance) : TimedLabel → Prop
  | .gpt j c _ => j = i → c.Leaves
  | .usb _ | .tick => True

instance (c : GptCall) : Decidable c.Leaves := by
  unfold GptCall.Leaves
  split <;> infer_instance

instance (i : Instance) (l : TimedLabel) : Decidable (l.Leaves i) := by
  unfold TimedLabel.Leaves
  split <;> infer_instance

section Elapsing

variable {x y z : TimedSys} {tr : TimedTrace} {i : Instance} {us : Word} {m : Mode}

/-- Only a tick is one to the clock. -/
theorem GptCall.mark_ne_tick (c : GptCall) (r : GptRet) : c.mark r ≠ .op .tick := by
  cases c <;> simp [mark]

/-- A property of the marks, counted in the history of the timer. -/
theorem countP_clock (i : Instance) (tr : TimedTrace) (φ : Clock → Clock.Mark → Bool)
    (ψ : TimedSys × TimedLabel → Bool)
    (h : ∀ x l, ψ (x, l) = ((l.mark? i).map fun k => φ (x.clock i) k).getD false) :
    (tr.clock i).countP (fun y => φ y.1 y.2) = tr.countP ψ := by
  rw [TimedTrace.clock, shadow, List.countP_filterMap]
  refine List.countP_congr fun y _ => ?_
  rw [h y.1 y.2, Option.map_map]
  exact Iff.rfl

theorem ticks_clock (i : Instance) (tr : TimedTrace) : Clock.ticks (tr.clock i) = tr.ticks := by
  refine countP_clock i tr (fun _ k => k == .op .tick) (fun y => y.2.isTick) fun x l => ?_
  cases l with
  | usb | tick => rfl
  | gpt j c r =>
    show false = ((if j = i then some (c.mark r) else none).map _).getD false
    split
    · exact (beq_eq_false_iff_ne.mpr (c.mark_ne_tick r)).symm
    · rfl

theorem elapses_clock (i : Instance) (tr : TimedTrace) :
    Clock.elapses (tr.clock i) = tr.elapses i := by
  refine countP_clock i tr (fun d k => k == .op .tick && decide d.Due)
    (fun y => y.2.isTick && decide (y.1.timer i).Due) fun x l => ?_
  cases l with
  | usb => rfl
  | tick => exact decide_eq_decide.mpr (x.due_iff i)
  | gpt j c r =>
    show false = ((if j = i then some (c.mark r) else none).map _).getD false
    split
    · have hne := beq_eq_false_iff_ne.mpr (c.mark_ne_tick r)
      show false = (c.mark r == .op .tick && _)
      rw [hne, Bool.false_and]
    · rfl

theorem leaves_clock (h : Always (fun _ _ l => l.Leaves i) tr) :
    Always (fun _ _ k => k.Leaves) (tr.clock i) := by
  refine h.shadow fun _ l k hl hk => ?_
  cases l with
  | usb => simp [TimedLabel.mark?] at hk
  | tick =>
    obtain rfl := Option.some.inj hk
    trivial
  | gpt j c r =>
    have hk : (if j = i then some (c.mark r) else none) = some k := hk
    split at hk
    · rename_i hji
      obtain rfl := Option.some.inj hk
      have hc : c.Leaves := hl hji
      cases c with
      | stop | reset | setMode | setLoad => exact hc.elim
      | run | isRunning | mode | load | isElapsed | clearElapsed | setInterruptEnabled
      | isInterruptEnabled => trivial
    · simp at hk

/-- A method whose result is not used. -/
theorem runGpt_method {p : GptM Unit} {r : GptRet} {y : TimedSys}
    (h : runGpt (do p; pure r) x = ⟨.ok r, y, []⟩) : runGpt p x = ⟨.ok (), y, []⟩ := by
  obtain ⟨a, x', o₁, o₂, hp, hr, ho⟩ := exec_bind_ok gptMachine 1 h
  obtain ⟨-, rfl, -⟩ := Out.mk.inj hr
  obtain rfl : o₁ = [] := (List.append_eq_nil_iff.mp ho.symm).1
  exact hp

/-- The timer, set up and started. -/
theorem timer_start (us : Word) (m : Mode) (i : Instance) (x : TimedSys) :
    runGpt (Driver.gptMut i fun gpt => do
      gpt.setLoad us
      gpt.setMode m
      gpt.reset
      gpt.run) x =
    ⟨.ok (), x.setTimer i ⟨true, m == .Repeat, (Gpt.count us).setWidth 24,
      (Gpt.count us).setWidth 24, false⟩, []⟩ := by
  have hload : ∀ x, runGpt (Gpt.setLoad ⟨i⟩ us) x = _ := fun x =>
    runGpt_method (run_gptCall i (.setLoad us) x)
  have hmode : ∀ x, runGpt (Gpt.setMode ⟨i⟩ m) x = _ := fun x =>
    runGpt_method (run_gptCall i (.setMode m) x)
  have hreset : ∀ x, runGpt (Gpt.reset ⟨i⟩) x = _ := fun x =>
    runGpt_method (run_gptCall i .reset x)
  have hstart : ∀ x, runGpt (Gpt.run ⟨i⟩) x = _ := fun x =>
    runGpt_method (run_gptCall i .run x)
  show runGpt (do
      Gpt.setLoad ⟨i⟩ us
      Gpt.setMode ⟨i⟩ m
      Gpt.reset ⟨i⟩
      Gpt.run ⟨i⟩) x = _
  rw [runGpt_bind, hload, Out.andThen_ok, runGpt_bind, hmode, Out.andThen_ok, runGpt_bind, hreset,
    Out.andThen_ok, hstart]
  simp [GptCall.apply, TimedSys.setTimer]

/-- A timer that was started for `us` microseconds elapses once in every such
    period, or in one shot mode once, as long as its settings are left alone:
    whatever else is done to it, to the other timer and to the USB side. -/
theorem timer_elapses (hb : Booted x.sys.untimed)
    (hstart : runGpt (Driver.gptMut i fun gpt => do
      gpt.setLoad us
      gpt.setMode m
      gpt.reset
      gpt.run) x = ⟨.ok (), y, []⟩)
    (hrun : Run TimedStep y tr z) (hl : Always (fun _ _ l => l.Leaves i) tr) :
    tr.elapses i = if m = .Repeat then tr.ticks / Gpt.delay us
      else if Gpt.delay us ≤ tr.ticks then 1 else 0 := by
  rw [timer_start] at hstart
  obtain ⟨-, hy, -⟩ := Out.mk.inj hstart
  have htimer : y.timer i = ⟨true, m == .Repeat, (Gpt.count us).setWidth 24,
      (Gpt.count us).setWidth 24, false⟩ := by
    rw [← hy]
    exact Function.update_self _ _ _
  have hwf : y.sys.WF := by
    rw [← hy]
    exact wf_of_untimed hb.idle.wf
  -- the run of the clock, started with the whole delay to go
  have hclock := clock_run (i := i) hwf hrun
  have hperiod : (y.clock i).period = Gpt.delay us := by
    rw [TimedSys.clock, htimer]
    exact toNat_count us
  have hleft : (y.clock i).left = some (Gpt.delay us - 1) := by
    rw [TimedSys.clock, htimer, ← toNat_count us]
    rfl
  have hrunning : (y.clock i).running = true := by rw [TimedSys.clock, htimer]
  have hrep : (y.clock i).repeats = (m == .Repeat) := by rw [TimedSys.clock, htimer]
  have hpos : 0 < Gpt.delay us := by unfold Gpt.delay; omega
  -- the rest is about clocks
  rw [← elapses_clock, ← ticks_clock i]
  cases m with
  | Repeat =>
    rw [if_pos rfl, ← hperiod]
    refine Clock.repeats_elapses hclock (leaves_clock hl) hrunning hrep ?_ ?_
    · rw [hperiod]
      exact hpos
    · rw [hperiod]
      exact hleft
  | OneShot =>
    rw [if_neg (by simp), Clock.once_elapses hclock (leaves_clock hl) hrunning hrep hleft]
    exact if_congr (by omega) rfl rfl

end Elapsing

/-- A timer of three microseconds, while the other one is used and the device polls. -/
theorem timer_elapses_device : ∃ (y z : TimedSys) (tr : TimedTrace),
    Run TimedStep y tr z ∧ tr.ticks = 7 ∧ tr.elapses .Gpt0 = 2 := by
  have hstart := timer_start 3 .Repeat .Gpt0 timedDevice
  obtain ⟨tr, z, hrun, hl, hticks⟩ := exists_performed timedPerform_sound
    (p := fun tr _ => Always (fun _ _ l => l.Leaves .Gpt0) tr ∧ TimedTrace.ticks tr = 7)
    (timedDevice.setTimer .Gpt0 ⟨true, true, 2, 2, false⟩)
    [.tick, .gpt .Gpt1 .reset, .tick, .tick, .gpt .Gpt0 .clearElapsed, .tick,
      .usb (.call .poll), .tick, .tick, .tick] (by decide +kernel)
  have h := timer_elapses timedDevice_booted hstart hrun hl
  rw [if_pos rfl, hticks] at h
  exact ⟨_, z, tr, hrun, hticks, h⟩

/-! ## The flag -/

/-- The step clears the flag of the timer. -/
def TimedLabel.Clears (i : Instance) : TimedLabel → Prop
  | .gpt j .clearElapsed _ => j = i
  | _ => False

section Flag

variable {x x' : TimedSys} {tr : TimedTrace} {i : Instance}

instance (i : Instance) (l : TimedLabel) : Decidable (l.Clears i) := by
  unfold TimedLabel.Clears
  split <;> infer_instance

theorem TimedLabel.isTick_iff {l : TimedLabel} : l.isTick = true ↔ l = .tick := by
  cases l <;> simp [isTick]

theorem GptCall.mark_eq_clear {c : GptCall} {r : GptRet} :
    c.mark r = .op .clear ↔ c = .clearElapsed := by
  cases c <;> simp [mark]

theorem clock_elapsed (h : x.sys.WF) (hrun : Run TimedStep x tr x') :
    (x'.clock i).elapsed = Clock.latch (fun y => y.2.isTick && decide (y.1.timer i).Due)
      (fun y => decide (y.2.Clears i)) (x.clock i).elapsed tr := by
  rw [Clock.elapsed_eq (clock_run h hrun), TimedTrace.clock, shadow, Clock.latch,
    List.foldl_filterMap, Clock.latch]
  congr 1
  funext b y
  obtain ⟨y, l⟩ := y
  cases l with
  | usb l =>
    have hclears : decide ((TimedLabel.usb l).Clears i) = false := decide_eq_false id
    simp [TimedLabel.mark?, TimedLabel.isTick, hclears]
  | tick =>
    have hclears : decide (TimedLabel.tick.Clears i) = false := decide_eq_false id
    simp [TimedLabel.mark?, TimedLabel.isTick, hclears, y.due_iff i]
  | gpt j c r =>
    have hclears : decide ((TimedLabel.gpt j c r).Clears i) =
        decide (j = i ∧ c = .clearElapsed) := by
      refine decide_eq_decide.mpr ?_
      cases c <;> simp [TimedLabel.Clears]
    rw [hclears]
    by_cases hji : j = i
    · simp [TimedLabel.mark?, TimedLabel.isTick, hji, c.mark_ne_tick r, GptCall.mark_eq_clear]
    · simp [TimedLabel.mark?, TimedLabel.isTick, hji]

/-- `is_elapsed` says that the timer elapsed, and that its flag was not cleared
    since. -/
theorem elapsed_flag (hb : Booted x.sys.untimed)
    (hclear : runGpt (GptCall.isElapsed.prog i) x = ⟨.ok (.bool false), x, []⟩)
    (hrun : Run TimedStep x tr x') :
    runGpt (GptCall.isElapsed.prog i) x' = ⟨.ok (.bool true), x', []⟩ ↔
      ∃ pre y post, tr = pre ++ (y, .tick) :: post ∧ (y.timer i).Due ∧
        ∀ z ∈ post, ¬ z.2.Clears i := by
  -- `is_elapsed` reads the flag of the clock
  have hread : ∀ (x : TimedSys) (b : Bool),
      runGpt (GptCall.isElapsed.prog i) x = ⟨.ok (.bool b), x, []⟩ ↔ (x.clock i).elapsed = b := by
    intro x b
    rw [run_gptCall]
    constructor
    · intro h
      obtain ⟨hres, -, -⟩ := Out.mk.inj h
      exact GptRet.bool.inj (Res.ok.inj hres)
    · intro h
      exact congrArg (fun b => Out.mk (.ok (GptRet.bool b)) x []) h
  rw [hread, clock_elapsed (wf_of_untimed hb.idle.wf) hrun, (hread x false).mp hclear,
    Clock.latch_iff]
  constructor
  · rintro ⟨pre, ⟨y, l⟩, post, rfl, hset, hkept⟩
    obtain ⟨htick, hdue⟩ := Bool.and_eq_true_iff.mp hset
    obtain rfl := TimedLabel.isTick_iff.mp htick
    exact ⟨pre, y, post, rfl, of_decide_eq_true hdue,
      fun z hz => of_decide_eq_false (hkept z (List.mem_cons_of_mem _ hz))⟩
  · rintro ⟨pre, y, post, rfl, hdue, hkept⟩
    refine ⟨pre, (y, .tick), post, rfl, decide_eq_true hdue, fun z hz => ?_⟩
    rcases List.mem_cons.mp hz with rfl | hz
    · exact decide_eq_false id
    · exact decide_eq_false (hkept z hz)

theorem elapsed_flag_device : ∃ (x' : TimedSys) (tr : TimedTrace),
    runGpt (GptCall.isElapsed.prog .Gpt0) x' = ⟨.ok (.bool true), x', []⟩ ∧
      ∃ pre y post, tr = pre ++ (y, .tick) :: post ∧ (y.timer .Gpt0).Due ∧
        ∀ z ∈ post, ¬ z.2.Clears .Gpt0 := by
  obtain ⟨tr, x', hrun, hp⟩ := exists_performed timedPerform_sound
    (p := fun _ x' => (x'.clock .Gpt0).elapsed = true) timedDevice
    [.gpt .Gpt0 .run, .tick, .gpt .Gpt0 .clearElapsed, .gpt .Gpt0 .reset, .tick,
      .gpt .Gpt1 .clearElapsed, .usb (.call .poll)] (by decide +kernel)
  have hread : runGpt (GptCall.isElapsed.prog .Gpt0) x' = ⟨.ok (.bool true), x', []⟩ := by
    rw [run_gptCall]
    exact congrArg (fun b => Out.mk (.ok (GptRet.bool b)) x' []) hp
  refine ⟨x', tr, hread, (elapsed_flag timedDevice_booted ?_ hrun).mp hread⟩
  rw [run_gptCall]
  exact congrArg (fun b => Out.mk (.ok (GptRet.bool b)) timedDevice [])
    (show (timedDevice.clock .Gpt0).elapsed = false by decide +kernel)

end Flag

/-! ## The interrupt -/

section Interrupt

variable {s : Sys} {x x' : TimedSys} {speed : Speed} {requests : List Request} {tr : TimedTrace}

/-- Two words have a bit in common. -/
theorem and_ne_zero_iff {v w : Word} :
    v &&& w ≠ 0 ↔ ∃ j, j < 32 ∧ v.getLsbD j = true ∧ w.getLsbD j = true := by
  have hz : ∀ j, (0 : Word).getLsbD j = false := fun _ => BitVec.getLsbD_zero
  constructor
  · intro h
    by_contra hnone
    refine h (BitVec.eq_of_getLsbD_eq fun j hj => ?_)
    rw [BitVec.getLsbD_and, hz, Bool.and_eq_false_iff]
    by_contra hbits
    simp only [not_or, Bool.not_eq_false] at hbits
    exact hnone ⟨j, hj, hbits⟩
  · rintro ⟨j, -, hv, hw⟩ h
    have hand : (v &&& w).getLsbD j = true := by rw [BitVec.getLsbD_and, hv, hw]; rfl
    rw [h, hz] at hand
    exact Bool.false_ne_true hand

/-- Only the bits of the timers, and with interrupts enabled those of `poll`,
    can be set in `USBINTR`. -/
theorem getLsbD_usbintr {g : Config} {qhList : Nat}
    (hg : x.sys.untimed.HasConfig speed qhList g) {j : Nat} (hj : j < 32) (h24 : j ≠ 24)
    (h25 : j ≠ 25) :
    (x.sys.reg .USBINTR).getLsbD j = (g.interrupts && (decide (j = 0) || decide (j = 6))) := by
  have hword : x.sys.reg .USBINTR &&& ~~~ timerBits =
      if g.interrupts then USBINTR.UE.put 1 ||| USBINTR.URE.put 1 else 0 :=
    hg.word .USBINTR _ rfl
  have hbit := congrArg (fun v => BitVec.getLsbD v j) hword
  rw [BitVec.getLsbD_and, BitVec.getLsbD_not, getLsbD_timerBits hj, decide_eq_false h24,
    decide_eq_false h25, decide_eq_true hj, Bool.or_false, Bool.not_false, Bool.and_true,
    Bool.and_true] at hbit
  rw [hbit]
  cases g.interrupts with
  | false => exact BitVec.getLsbD_zero
  | true =>
    have hue : (USBINTR.UE.put 1 : Word) = 1#32 <<< 0 := by decide
    have hure : (USBINTR.URE.put 1 : Word) = 1#32 <<< 6 := by decide
    show (USBINTR.UE.put 1 ||| USBINTR.URE.put 1 : Word).getLsbD j = _
    rw [hue, hure, BitVec.getLsbD_or, Field.getLsbD_bit, Field.getLsbD_bit, decide_eq_true hj]
    rfl

/-- `poll` has something to report if one of its two flags is set. -/
theorem poll_ne_none (s : Sys) :
    (run Driver.poll s).res ≠ .ok .None ↔ s.usbInterrupt = true ∨ s.resetReceived = true := by
  rw [run_poll]
  cases s.resetReceived with
  | true => simp
  | false =>
    cases s.usbInterrupt with
    | true => simp [Sys.pollData]
    | false => simp

/-- The controller asks for an interrupt if interrupts are enabled and `poll`
    has something to report, or if a timer elapsed whose interrupt is enabled;
    and for no other reason. -/
theorem interrupt_line (h : s.PowerOn) (hboot : bootWith s speed requests = some x.sys.untimed)
    (hrun : Run TimedStep x tr x') :
    x'.sys.reg .USBSTS &&& x'.sys.reg .USBINTR ≠ 0 ↔
      (Config.boot.after tr.untimed).interrupts = true ∧
          (run Driver.poll x'.sys).res ≠ .ok .None ∨
        ∃ i, (x'.clock i).elapsed = true ∧ (x'.clock i).alarm = true := by
  have hb : Booted x.sys.untimed := bootWith_booted h hboot
  have huntimed := (timers_refine.run_shadow hrun (fun _ _ _ _ _ => trivial)
    (wf_of_untimed hb.idle.wf)).1
  -- `USBINTR` holds what the calls made of it, timer bits apart
  have hg := hasConfig_run hb.idle.wf (hasConfig_boot h hboot) huntimed
  rw [and_ne_zero_iff, poll_ne_none]
  constructor
  · rintro ⟨j, hj, hsts, hintr⟩
    by_cases h24 : j = 24
    · subst h24
      exact Or.inr ⟨.Gpt0, hsts, hintr⟩
    by_cases h25 : j = 25
    · subst h25
      exact Or.inr ⟨.Gpt1, hsts, hintr⟩
    rw [getLsbD_usbintr hg hj h24 h25, Bool.and_eq_true, Bool.or_eq_true, decide_eq_true_eq,
      decide_eq_true_eq] at hintr
    obtain ⟨hinterrupts, rfl | rfl⟩ := hintr
    · exact Or.inl ⟨hinterrupts, Or.inl hsts⟩
    · exact Or.inl ⟨hinterrupts, Or.inr hsts⟩
  · rintro (⟨hinterrupts, hui | huri⟩ | ⟨i, helapsed, halarm⟩)
    · refine ⟨0, by omega, hui, ?_⟩
      rw [getLsbD_usbintr hg (by omega) (by omega) (by omega)]
      exact (Bool.and_true _).trans hinterrupts
    · refine ⟨6, by omega, huri, ?_⟩
      rw [getLsbD_usbintr hg (by omega) (by omega) (by omega)]
      exact (Bool.and_true _).trans hinterrupts
    · exact ⟨i.bit, i.bit_lt, helapsed, halarm⟩

/-- A packet arrives while interrupts are enabled. -/
theorem interrupt_line_device : ∃ (x' : TimedSys) (tr : TimedTrace),
    (Config.boot.after tr.untimed).interrupts = true ∧
      x'.sys.reg .USBSTS &&& x'.sys.reg .USBINTR ≠ 0 := by
  have hboot : bootWith (powerOn 16 2048) .High deviceRequests = some timedDevice.sys.untimed := by
    rw [timedDevice_untimed]
    exact device_boots
  obtain ⟨tr, x', hrun, hg, hpoll⟩ := exists_performed timedPerform_sound
    (p := fun tr x' => (Config.boot.after (TimedTrace.untimed tr)).interrupts = true ∧
      (run Driver.poll x'.sys).res ≠ .ok .None) timedDevice
    [.usb (.call (.setInterrupts true)), .usb (.call .enable), .tick,
      .usb (.hw (.setup 0)), .gpt .Gpt0 .run] (by decide +kernel)
  exact ⟨x', tr, hg, (interrupt_line (powerOn_ok 16 (by omega)) hboot hrun).mpr
    (Or.inl ⟨hg, hpoll⟩)⟩

end Interrupt

end ImxrtUsbd
