/-
  ImxrtUsbd.BusySystem

  The system with a controller that does not wait for a call to end: between
  any two accesses of a call, the controller may take steps.  `usbBusy` runs
  driver code in this way, and shows the steps of the controller among the
  register writes and setup loads of the driver.

  `BusyStep I` lets the calls that satisfy `I` be interrupted, under any
  schedule.
-/
import ImxrtUsbd.Replay
import ImxrtUsbd.Lib.Interleave
import ImxrtUsbd.Lib.Replay

namespace ImxrtUsbd

open Lib

/-! ## The machine -/

/-- What is observed of an access. -/
inductive Seen where
  /-- A register was written. -/
  | wrote (r : Reg) (v : Word)
  /-- A half of the setup buffer was loaded. -/
  | loadedSetup (high : Bool) (v : Word)
  deriving DecidableEq, Repr

def see : {β : Type} → Access β → Sys → List Seen
  | _, .writeReg r v, _ => [.wrote r v]
  | _, .loadSetup i high, s => [.loadedSetup high (usbAct (.loadSetup i high) s).1]
  | _, .readReg _, _ | _, .loadTd _ _, _ | _, .storeTd _ _ _, _ | _, .loadCapabilities _, _
  | _, .storeCapabilities _ _, _ | _, .loadByte _, _ | _, .storeByte _ _, _ | _, .dccimvac _, _
  | _, .addrOfSelf, _ | _, .getDriver, _ | _, .setDriver _, _ => []

/-- A step of the controller, if it is possible. -/
def HwEvent.occur (event : HwEvent) (s : Sys) : Option Sys :=
  if event.Enabled s then some (event.apply s) else none

/-- Driver code with the controller at work. -/
def usbBusy : Machine Access (Sys × List (List HwEvent)) (Moment HwEvent Seen) :=
  (usb.showing see).interleaved HwEvent.occur

/-- What happens during a call. -/
abbrev Moments := List (Moment HwEvent Seen)

theorem HwEvent.occur_eq_some {event : HwEvent} {s s' : Sys} (h : event.occur s = some s') :
    event.Enabled s ∧ s' = event.apply s := by
  unfold occur at h
  split at h
  · rename_i he
    exact ⟨he, (Option.some.inj h).symm⟩
  · simp at h

section Accesses

variable {α : Type} {R : Sys → Moments → Sys → Prop} {n : Nat} {s : Sys}
  {σ : List (List HwEvent)} {x : Sys × List (List HwEvent)} {a : α} {ms : Moments}

/-- The first access of a call that returns is a register read. -/
theorem busy_read (hR : Composes R)
    (hev : ∀ (ev : HwEvent) s s', ev.occur s = some s' → R s [.event ev] s') {r : Reg}
    {f : Word → UsbM α}
    (h : exec usbBusy n (Prog.access (.readReg r) >>= f) (s, σ) = ⟨.ok a, x, ms⟩) :
    ∃ (s₁ : Sys) (es : List HwEvent) (σ' : List (List HwEvent)) (ms' : Moments),
      R s (es.map .event) s₁ ∧ ms = es.map .event ++ ms' ∧
      exec usbBusy n (f (s₁.reg r)) (s₁, σ') = ⟨.ok a, x, ms'⟩ :=
  interleaved_ok hR (M := usb.showing see) hev h

/-- It is a register write. -/
theorem busy_write (hR : Composes R)
    (hev : ∀ (ev : HwEvent) s s', ev.occur s = some s' → R s [.event ev] s') {r : Reg} {v : Word}
    {f : Unit → UsbM α}
    (h : exec usbBusy n (Prog.access (.writeReg r v) >>= f) (s, σ) = ⟨.ok a, x, ms⟩) :
    ∃ (s₁ : Sys) (es : List HwEvent) (σ' : List (List HwEvent)) (ms' : Moments),
      R s (es.map .event) s₁ ∧ ms = es.map .event ++ (.access (.wrote r v) :: ms') ∧
      exec usbBusy n (f ()) (s₁.writeReg r v, σ') = ⟨.ok a, x, ms'⟩ :=
  interleaved_ok hR (M := usb.showing see) hev h

/-- It reads the driver's fields. -/
theorem busy_getDriver (hR : Composes R)
    (hev : ∀ (ev : HwEvent) s s', ev.occur s = some s' → R s [.event ev] s')
    {f : Driver → UsbM α}
    (h : exec usbBusy n (Prog.access .getDriver >>= f) (s, σ) = ⟨.ok a, x, ms⟩) :
    ∃ (s₁ : Sys) (es : List HwEvent) (σ' : List (List HwEvent)) (ms' : Moments),
      R s (es.map .event) s₁ ∧ ms = es.map .event ++ ms' ∧
      exec usbBusy n (f s₁.driver) (s₁, σ') = ⟨.ok a, x, ms'⟩ :=
  interleaved_ok hR (M := usb.showing see) hev h

/-- It writes them. -/
theorem busy_setDriver (hR : Composes R)
    (hev : ∀ (ev : HwEvent) s s', ev.occur s = some s' → R s [.event ev] s') {d : Driver}
    {f : Unit → UsbM α}
    (h : exec usbBusy n (Prog.access (.setDriver d) >>= f) (s, σ) = ⟨.ok a, x, ms⟩) :
    ∃ (s₁ : Sys) (es : List HwEvent) (σ' : List (List HwEvent)) (ms' : Moments),
      R s (es.map .event) s₁ ∧ ms = es.map .event ++ ms' ∧
      exec usbBusy n (f ()) ({ s₁ with driver := d }, σ') = ⟨.ok a, x, ms'⟩ :=
  interleaved_ok hR (M := usb.showing see) hev h

end Accesses

/-! ## The system -/

/-- A step of the system: a step with nothing in between, or a call and what
    happened while it ran. -/
inductive BusyLabel where
  | step (l : Label)
  | busy (c : Call) (r : Ret) (ms : Moments)

/-- A call in `I`. -/
def Label.IsCall (I : Call → Prop) : Label → Prop
  | .call c _ _ => I c
  | .hw _ => False

instance (I : Call → Prop) [DecidablePred I] (l : Label) : Decidable (l.IsCall I) :=
  match l with
  | .call c _ _ => inferInstanceAs (Decidable (I c))
  | .hw _ => inferInstanceAs (Decidable False)

/-- The calls in `I` are interleaved with the controller, the others are not. -/
inductive BusyStep (I : Call → Prop) (s : Sys) : BusyLabel → Sys → Prop where
  | step {l : Label} {s' : Sys} : Step s l s' → ¬ l.IsCall I → BusyStep I s (.step l) s'
  | busy {c : Call} {r : Ret} {n : Nat} {schedule rest : List (List HwEvent)} {s' : Sys}
      {ms : Moments} :
      I c → exec usbBusy n c.prog (s, schedule) = ⟨.ok r, (s', rest), ms⟩ →
        BusyStep I s (.busy c r ms) s'

/-- What has happened so far. -/
abbrev BusyTrace := Hist Sys BusyLabel

/-! ## Replay -/

/-- What there is to do: a command with nothing in between, or a call under a
    schedule, with a number of passes for its loops. -/
inductive BusyCmd where
  | step (c : Cmd)
  | busy (c : Call) (passes : Nat) (schedule : List (List HwEvent))

/-- Perform it, if that is possible. -/
def performBusy (I : Call → Prop) [DecidablePred I] (s : Sys) :
    BusyCmd → Option (BusyLabel × Sys)
  | .step c =>
    match perform s c with
    | some (l, s') => if l.IsCall I then none else some (.step l, s')
    | none => none
  | .busy c n schedule =>
    if I c then
      match exec usbBusy n c.prog (s, schedule) with
      | ⟨.ok r, (s', _), ms⟩ => some (.busy c r ms, s')
      | _ => none
    else none

theorem performBusy_sound (I : Call → Prop) [DecidablePred I] (s : Sys) (c : BusyCmd)
    (l : BusyLabel) (s' : Sys) (h : performBusy I s c = some (l, s')) : BusyStep I s l s' := by
  cases c with
  | step c =>
    rw [performBusy] at h
    split at h
    · rename_i hp
      split at h
      · simp at h
      · rename_i hI
        obtain ⟨rfl, rfl⟩ := Prod.mk.inj (Option.some.inj h)
        exact .step (perform_iff.mp hp).2 hI
    · simp at h
  | busy c n schedule =>
    rw [performBusy] at h
    split at h
    · rename_i hI
      split at h
      · rename_i hrun
        obtain ⟨rfl, rfl⟩ := Prod.mk.inj (Option.some.inj h)
        exact .busy hI hrun
      · simp at h
    · simp at h

end ImxrtUsbd
