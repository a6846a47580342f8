/-
  ImxrtUsbd.Configuration

  How the controller is configured.  `Driver::initialize` sets it up, and
  afterwards `set_interrupts`, `set_address` and `attach` are all that changes:
  after any run the configuration registers hold what the history says was
  asked for last (`registers_as_configured`).
-/
import ImxrtUsbd.Moves
import ImxrtUsbd.Replay

namespace ImxrtUsbd

open Lib

/-- What the driver was asked for. -/
structure Config where
  interrupts : Bool
  attached : Bool
  /-- The address, unless the host reset the bus since it was set. -/
  address : Option (BitVec 8)
  deriving DecidableEq, Repr

namespace Config

/-- Interrupts are disabled by default. -/
def boot : Config := ⟨false, false, none⟩

def next (g : Config) : Label → Config
  | .call (.setInterrupts interrupts) _ _ => { g with interrupts }
  | .call .enable _ _ => { g with attached := true }
  | .call (.setDeviceAddress addr) _ _ => { g with address := some addr }
  | .hw .resetBegin => { g with address := none }
  | _ => g

/-- What the history asks for. -/
def after (g : Config) (tr : Trace) : Config := tr.foldl (fun g x => g.next x.2) g

theorem after_snoc (g : Config) (tr : Trace) (s : Sys) (l : Label) :
    g.after (tr ++ [(s, l)]) = (g.after tr).next l := by
  rw [after, List.foldl_append, List.foldl_cons, List.foldl_nil, after]

/-- The words that belong into the configuration registers.  `PORTSC1` is not
    among them, which also holds the state of the port. -/
def word (g : Config) (qhList : Nat) : Reg → Option Word
  | .USBCMD => some (if g.attached then USBCMD.RS.put 1 else 0)
  | .USBMODE => some (USBMODE.CM.put USBMODE.CM_2 ||| USBMODE.SLOM.put 1)
  | .USBINTR => some (if g.interrupts then USBINTR.UE.put 1 ||| USBINTR.URE.put 1 else 0)
  | .DEVICEADDR => some (match g.address with
    | some addr => DEVICEADDR.USBADR.put (addr.setWidth 32) ||| DEVICEADDR.USBADRA.put 1
    | none => 0)
  | .ASYNCLISTADDR => some (BitVec.ofNat 32 qhList)
  | .ENDPTNAKEN | .PHY_PWD => some 0
  | _ => none

end Config

/-- The registers hold the configuration. -/
structure Sys.HasConfig (s : Sys) (speed : Speed) (qhList : Nat) (g : Config) : Prop where
  word : ∀ r v, g.word qhList r = some v → s.reg r = v
  pfsc : PORTSC1.PFSC.get (s.reg .PORTSC1) = if speed = .LowFull then 1 else 0

/-! ## Initialization -/

section Initialize

variable {s s' : Sys} {speed : Speed} {o : List Obs}

theorem hasConfig_initialize
    (hrun : run (Driver.initializeDriver speed) s = ⟨.ok (), s', o⟩) :
    s'.HasConfig speed s.driver.epAllocator.qhList .boot := by
  have hloop : ∀ t : Sys,
      run (.repeatUntil do
        let rst ← readField .USBCMD USBCMD.RST
        return if rst == 1 then none else some ()) t.controllerReset =
        ⟨.ok (), t.controllerReset, []⟩ := by
    intro t
    apply run_repeatUntil_some
    have h0 : t.controllerReset.reg .USBCMD = 0 := rfl
    simp [h0]
  have hcmd : ∀ t : Sys, t.writeReg .USBCMD (USBCMD.ITC.put 0) = t.setReg .USBCMD 0 :=
    fun t => t.writeReg_usbcmd (v := 0) (by decide)
  have hw : ∀ (t : Sys) (r : Reg) (f : Field) (v : Word), r ≠ .ENDPTPRIME →
      run (writeField r f v) t = ⟨.ok (), t.writeReg r (f.put v), []⟩ :=
    fun t r f v hr => run_writeReg r (f.put v) t hr
  rw [Driver.initializeDriver, run_bind, hw _ _ _ _ (by simp), Out.andThen_ok, run_bind,
    hw _ _ _ _ (by simp), Out.andThen_ok, run_bind, hw _ _ _ _ (by simp), Out.andThen_ok,
    run_bind, run_writeReg _ _ _ (by simp), Out.andThen_ok, run_bind, hw _ _ _ _ (by simp),
    Out.andThen_ok, writeReg_reset, run_bind, hloop, Out.andThen_ok, run_bind,
    hw _ _ _ _ (by simp), hcmd, Out.andThen_ok, run_bind, run_writeReg _ _ _ (by simp),
    Out.andThen_ok, run_bind, run_modifyReg _ _ _ (by simp), Out.andThen_ok, run_bind,
    run_writeBack _ _ (by simp), Out.andThen_ok, run_bind, run_writeReg _ _ _ (by simp),
    Out.andThen_ok, run_bind, run_getDriver, Out.andThen_ok, run_writeReg _ _ _ (by simp)] at hrun
  obtain ⟨-, rfl, -⟩ := Out.mk.inj hrun
  refine ⟨fun r v hv => ?_, ?_⟩
  · cases r <;> first | exact Option.some.inj hv | simp [Config.word] at hv
  show PORTSC1.PFSC.get (PORTSC1.PFSC.set (if speed = .LowFull then 1 else 0) 0) = _
  cases speed <;> decide

/-- Requests for endpoints leave the registers alone. -/
theorem request_kept {q : Request} {r : Except UsbError EndpointAddress} (h : s.WF)
    (hrun : run q.prog s = ⟨.ok r, s', o⟩) :
    s'.reg = s.reg := by
  rcases Request.cases h hrun with ⟨rfl, -⟩ | ⟨e, -, rfl, -⟩
  · rfl
  · rfl

/-- What every step of a fold keeps, its result has. -/
theorem foldlM_invariant {α β : Type} {I : α → Prop} {f : α → β → Option α}
    (hf : ∀ a b a', I a → f a b = some a' → I a') {l : List β} {a a' : α} (ha : I a)
    (h : l.foldlM f a = some a') : I a' := by
  induction l generalizing a with
  | nil =>
    obtain rfl := Option.some.inj h
    exact ha
  | cons b l ih =>
    rw [List.foldlM_cons] at h
    obtain ⟨a₁, hb, h⟩ := Option.bind_eq_some_iff.mp h
    exact ih (hf a b a₁ ha hb) h

theorem hasConfig_boot {requests : List Request} (h : s.PowerOn)
    (hboot : bootWith s speed requests = some s') :
    s'.HasConfig speed s.driver.epAllocator.qhList .boot := by
  refine (foldlM_invariant
    (I := fun t => Booted t ∧ t.HasConfig speed s.driver.epAllocator.qhList .boot)
    (fun t q t' ht hq => ?_) ⟨started_booted h speed, ?_⟩ hboot).2
  · split at hq
    · rename_i r t₂ obs hrun
      obtain rfl := Option.some.inj hq
      have hreg := request_kept ht.1.idle.wf hrun
      refine ⟨ht.1.alloc hrun, fun r v hv => ?_, ?_⟩
      · rw [hreg]
        exact ht.2.word r v hv
      · rw [hreg]
        exact ht.2.pfsc
    · simp at hq
  · obtain ⟨reg, hrun, -⟩ := run_initializeDriver speed s
    rw [started, hrun]
    exact hasConfig_initialize hrun

end Initialize

/-! ## Steps -/

section Steps

variable {s s' : Sys} {l : Label} {speed : Speed} {qhList : Nat} {g : Config}

/-- Taking a SETUP packet leaves the tripwire down. -/
theorem usbcmd_read {addr : EndpointAddress} {buf : List Byte} {r : Ret} {obs : List Obs}
    (h : s.WF) (hcmd : (s.reg .USBCMD).getLsbD 13 = false)
    (hrun : run (Call.read addr buf).prog s = ⟨.ok r, s', obs⟩) :
    s'.reg .USBCMD = s.reg .USBCMD := by
  have htake : s.takeSetup.reg .USBCMD = s.reg .USBCMD := by
    show USBCMD.SUTW.set 0 (s.reg .USBCMD) = s.reg .USBCMD
    apply BitVec.eq_of_getLsbD_eq
    intro j hj
    rw [Field.getLsbD_set _ _ _ hj]
    split
    · -- the field is bit 13 alone
      rename_i hhas
      have hj13 : j = 13 := by
        have h1 : 13 ≤ j := hhas.1
        have h2 : j < 13 + 1 := hhas.2
        omega
      rw [hj13, hcmd]
      exact BitVec.getLsbD_zero
    · rfl
  obtain ⟨-, rfl, -⟩ | ⟨e, ep, -, -, hcases⟩ := read_leaves h hrun
  · rfl
  · obtain ⟨-, ⟨-, rfl, -⟩ | ⟨-, -, rfl⟩⟩ | ⟨-, ⟨-, rfl, -⟩ | ⟨-, rfl, -⟩⟩ := hcases
    · exact htake
    · rw [Sys.reg_arm_of_ne _ _ _ _ (by simp), Sys.reg_lower_of_ne _ _ (by simp)]
      exact htake
    · rw [Sys.rearm, Sys.reg_arm_of_ne _ _ _ _ (by simp), Sys.reg_lower_of_ne _ _ (by simp),
        Sys.reg_lower_of_ne _ _ (by simp)]
    · rfl

/-- A register that a call does not write is not one whose word it changes. -/
theorem Config.word_next {c : Call} {x : Reg} (hx : ¬ c.writes x) (g : Config) (r : Ret)
    (obs : List Obs) : (g.next (.call c r obs)).word qhList x = g.word qhList x := by
  cases c with
  | setDeviceAddress | enable | setInterrupts =>
    cases x <;> first | rfl | exact absurd rfl hx
  | poll | read | write | setStalled | isStalled | reset | configure | enableZlt => rfl

/-- The control registers of the endpoints are not among them. -/
theorem Config.word_ctrl {x : Reg} (hx : x.isCtrl = true) : g.word qhList x = none := by
  cases x with
  | ENDPTCTRL0 | ENDPTCTRL => rfl
  | _ => simp [Reg.isCtrl] at hx

/-- A bus reset switches the NAK interrupts off. -/
theorem nakEnable_reset (s : Sys) : s.reset.reg .ENDPTNAKEN = 0 := by
  refine Sys.pass_invariant (I := fun t => t.reg .ENDPTNAKEN = 0) (fun t e ep _ ht => ?_) rfl
  rw [Sys.disableEp, Sys.modifyCtrl, Sys.reg_setReg_of_ne _ _ ?_]
  · exact ht
  · rcases e.ctrlReg_cases with hc | ⟨i, hc⟩ <;> rw [hc] <;> simp

/-- A call that returns does to the configuration what its label says. -/
theorem hasConfig_call {c : Call} {r : Ret} {obs : List Obs} (h : s.WF)
    (hg : s.HasConfig speed qhList g) (hrun : run c.prog s = ⟨.ok r, s', obs⟩) :
    s'.HasConfig speed qhList (g.next (.call c r obs)) := by
  -- a call keeps what it does not write
  have hkept : ∀ x, ¬ c.writes x → x ≠ .ENDPTSTAT → s'.reg x = s.reg x :=
    fun x hx hstat => Call.reg_kept h hx hstat hrun
  refine ⟨fun x v hv => ?_, ?_⟩
  · by_cases hx : c.writes x
    · cases c with
      | poll => rcases hx with rfl | rfl <;> simp [Config.word] at hv
      | write => rcases hx with rfl | rfl <;> simp [Config.word] at hv
      | setStalled | configure =>
        rw [Config.word_ctrl hx] at hv
        simp at hv
      | isStalled | enableZlt => exact hx.elim
      | read addr buf =>
        rcases hx with rfl | rfl | rfl | rfl
        · simp [Config.word] at hv
        -- the tripwire is down before, so taking a packet leaves the register
        · have hcmd := hg.word .USBCMD _ rfl
          have hsutw : (s.reg .USBCMD).getLsbD 13 = false := by
            rw [hcmd]
            cases g.attached <;> decide
          exact (usbcmd_read h hsutw hrun).trans (hg.word .USBCMD v hv)
        · simp [Config.word] at hv
        · simp [Config.word] at hv
      | reset debugAssertions =>
        obtain ⟨rfl, -⟩ := reset_leaves h hrun
        rcases hx with rfl | rfl | rfl | hctrl
        · simp [Config.word] at hv
        · simp [Config.word] at hv
        · obtain rfl := Option.some.inj hv
          exact nakEnable_reset s
        · rw [Config.word_ctrl hctrl] at hv
          simp at hv
      | setDeviceAddress addr =>
        obtain ⟨rfl, -⟩ := setDeviceAddress_leaves hrun
        obtain rfl : x = .DEVICEADDR := hx
        exact Option.some.inj hv
      | enable =>
        obtain ⟨rfl, -⟩ := enable_leaves h hrun
        obtain rfl : x = .USBCMD := hx
        obtain rfl := Option.some.inj hv
        show USBCMD.RS.set 1 (s.reg .USBCMD) = USBCMD.RS.put 1
        rw [hg.word .USBCMD _ rfl]
        cases g.attached <;> decide
      | setInterrupts interrupts =>
        obtain ⟨rfl, -⟩ := setInterrupts_leaves hrun
        obtain rfl : x = .USBINTR := hx
        obtain rfl := Option.some.inj hv
        rw [Sys.reg_setReg_self, hg.word .USBINTR _ rfl]
        show _ = if interrupts then USBINTR.UE.put 1 ||| USBINTR.URE.put 1 else 0
        cases interrupts <;> cases g.interrupts <;> decide
    · rw [Config.word_next hx] at hv
      refine (hkept x hx ?_).trans (hg.word x v hv)
      rintro rfl
      simp [Config.word] at hv
  · rw [hkept .PORTSC1 (by cases c <;> simp [Call.writes, Reg.isCtrl]) (by simp)]
    exact hg.pfsc

theorem hasConfig_hw (hg : s.HasConfig speed qhList g) (ev : HwEvent) :
    (ev.apply s).HasConfig speed qhList (g.next (.hw ev)) := by
  obtain ⟨hword, hpfsc⟩ := hg
  have hport : ∀ t : Sys, PORTSC1.PFSC.get (t.reg .PORTSC1) = PORTSC1.PFSC.get (s.reg .PORTSC1) →
      PORTSC1.PFSC.get (t.reg .PORTSC1) = if speed = .LowFull then 1 else 0 :=
    fun t ht => ht.trans hpfsc
  cases ev with
  | outDone | inDone | error | nak =>
    refine ⟨fun r v hv => ?_, hpfsc⟩
    cases r <;> first | exact hword _ v hv | simp [Config.word] at hv
  | setup packet =>
    refine ⟨fun r v hv => ?_, hpfsc⟩
    cases r with
    | USBCMD =>
      -- the tripwire is down already
      have hcmd := hword .USBCMD v hv
      show s.reg .USBCMD &&& ~~~ USBCMD.SUTW.put 1 = v
      rw [hcmd]
      obtain rfl := Option.some.inj hv
      show (if g.attached then USBCMD.RS.put 1 else 0) &&& _ =
        if g.attached then USBCMD.RS.put 1 else 0
      cases g.attached <;> decide
    | _ => first | exact hword _ v hv | simp [Config.word] at hv
  | resetBegin =>
    refine ⟨fun r v hv => ?_, hport _ ?_⟩
    · cases r with
      | DEVICEADDR => exact Option.some.inj hv
      | _ => first | exact hword _ v hv | simp [Config.word] at hv
    · show PORTSC1.PFSC.get (s.reg .PORTSC1 ||| PORTSC1.PR.put 1) = _
      apply BitVec.eq_of_getLsbD_eq
      intro j _
      rw [Field.getLsbD_get, Field.getLsbD_get, BitVec.getLsbD_or]
      by_cases hj : j < PORTSC1.PFSC.width
      · obtain rfl : j = 0 := Nat.lt_one_iff.mp hj
        have hpr : (PORTSC1.PR.put (1 : Word)).getLsbD (PORTSC1.PFSC.offset + 0) = false := by
          decide
        rw [hpr, Bool.or_false]
      · rw [decide_eq_false hj, Bool.false_and, Bool.false_and]
  | resetEnd =>
    refine ⟨fun r v hv => ?_, hport _ ?_⟩
    · cases r <;> first | exact hword _ v hv | simp [Config.word] at hv
    · refine Field.get_and_not _ (fun j hj => ?_) (s.reg .PORTSC1)
      obtain rfl : j = 24 := by
        have h1 : 24 ≤ j := hj.1
        have h2 : j < 24 + 1 := hj.2
        omega
      decide

theorem Step.hasConfig (h : s.WF) (hg : s.HasConfig speed qhList g) (hstep : Step s l s') :
    s'.HasConfig speed qhList (g.next l) := by
  cases hstep with
  | call hrun => exact hasConfig_call h hg hrun
  | hw hev => exact hasConfig_hw hg _

end Steps

/-! ## Runs -/

theorem hasConfig_run {s s' : Sys} {tr : Trace} {speed : Speed} {qhList : Nat} {g : Config}
    (h : s.WF) (hg : s.HasConfig speed qhList g) (hrun : Run Step s tr s') :
    s'.HasConfig speed qhList (g.after tr) := by
  induction hrun with
  | nil => exact hg
  | snoc hr hstep ih =>
    rw [Config.after_snoc]
    exact hstep.hasConfig (h.run hr) ih

theorem device_boots : bootWith (powerOn 16 2048) .High deviceRequests = some device := by
  obtain ⟨s, hs⟩ := Option.isSome_iff_exists.mp
    (show (bootWith (powerOn 16 2048) .High deviceRequests).isSome = true by decide +kernel)
  rw [device, hs, Option.getD_some]

end ImxrtUsbd
