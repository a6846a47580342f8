/-
  ImxrtUsbd.System

  The system that runs: `usb-device` calls the bus adapter, one call after the
  other, and the controller takes its steps between the calls.
-/
import ImxrtUsbd.Calls
import ImxrtUsbd.Lib.Run

namespace ImxrtUsbd

open Lib

/-- A step of the system: a call that returned `r` and showed `obs`, or a step
    of the controller. -/
inductive Label where
  | call (c : Call) (r : Ret) (obs : List Obs)
  | hw (ev : HwEvent)

inductive Step (s : Sys) : Label → Sys → Prop where
  | call {c : Call} {r : Ret} {s' : Sys} {obs : List Obs} :
      run c.prog s = ⟨.ok r, s', obs⟩ → Step s (.call c r obs) s'
  | hw {ev : HwEvent} : ev.Enabled s → Step s (.hw ev) (ev.apply s)

/-- The state a step leads to. -/
def Sys.after (s : Sys) : Label → Sys
  | .call c _ _ => (run c.prog s).post
  | .hw ev => ev.apply s

/-- What has happened so far. -/
abbrev Trace := Hist Sys Label

/-- What a step does to every endpoint. -/
def Sys.acts (s : Sys) : Label → EpId → List EpAct
  | .call c _ _ => s.callActs c
  | .hw ev => ev.acts

theorem Sys.acts_call {s : Sys} {e : EpId} {ep : Endpoint} (hep : s.ep e = some ep) (c : Call)
    (r : Ret) (obs : List Obs) : s.acts (.call c r obs) e = c.acts s e ep := by
  rw [Sys.acts, Sys.callActs, hep]

/-- The endpoint is primed here. -/
def Obs.primes (e : EpId) : Obs → Bool
  | .prime bits _ => bits.getLsbD e.bit
  | .setup _ _ => false

/-- What it shows. -/
def Label.obs : Label → List Obs
  | .call _ _ obs => obs
  | .hw _ => []

/-- A transfer is armed on the endpoint: its bit is written to `ENDPTPRIME`. -/
def Label.Arms (l : Label) (e : EpId) : Prop := ∃ o ∈ l.obs, o.primes e = true

instance (l : Label) (e : EpId) : Decidable (l.Arms e) :=
  inferInstanceAs (Decidable (∃ o ∈ l.obs, o.primes e = true))

/-- A bus reset is handled. -/
def Label.isReset : Label → Bool
  | .call (.reset _) _ _ => true
  | _ => false

/-- The driver is configured. -/
def Label.isConfigure : Label → Bool
  | .call .configure _ _ => true
  | _ => false

/-- A poll asks for a bus reset. -/
def Label.reportsReset : Label → Bool
  | .call .poll (.poll .Reset) _ => true
  | _ => false

theorem Label.isReset_eq {l : Label} (h : l.isReset = true) :
    ∃ dbg r obs, l = .call (.reset dbg) r obs := by
  unfold isReset at h
  split at h
  · exact ⟨_, _, _, rfl⟩
  · simp at h

theorem Label.isConfigure_eq {l : Label} (h : l.isConfigure = true) :
    ∃ r obs, l = .call .configure r obs := by
  unfold isConfigure at h
  split at h
  · exact ⟨_, _, rfl⟩
  · simp at h

/-- No bus reset is handled. -/
def NoReset (tr : Trace) : Prop := Always (fun _ _ l => l.isReset = false) tr

instance (tr : Trace) : Decidable (NoReset tr) :=
  inferInstanceAs (Decidable (Always _ tr))

section Steps

variable {s s' : Sys} {l : Label} {e : EpId} {ep : Endpoint}

theorem Step.run_eq {c : Call} {r : Ret} {obs : List Obs} (h : Step s (.call c r obs) s') :
    run c.prog s = ⟨.ok r, s', obs⟩ := by
  cases h with
  | call hrun => exact hrun

theorem Step.enabled {ev : HwEvent} (h : Step s (.hw ev) s') : ev.Enabled s ∧ s' = ev.apply s := by
  cases h with
  | hw hev => exact ⟨hev, rfl⟩

theorem Step.after_eq (h : Step s l s') : s.after l = s' := by
  cases h with
  | call hrun => exact congrArg Out.post hrun
  | hw => rfl

theorem Step.effect (h : s.WF) (hstep : Step s l s') : Effect s (s.acts l) s' l.obs := by
  cases hstep with
  | call hrun => exact Call.effect h hrun
  | hw hev => exact HwEvent.effect h hev

theorem Step.wf (h : s.WF) (hstep : Step s l s') : s'.WF := (hstep.effect h).wf

theorem Step.ep_eq (h : s.WF) (hstep : Step s l s') (e : EpId) : s'.ep e = s.ep e :=
  (hstep.effect h).frame.ep e

theorem Step.view_eq (h : s.WF) (hep : s.ep e = some ep) (hstep : Step s l s') :
    s'.view e ep = (s.view e ep).acts (s.acts l e) :=
  (hstep.effect h).view e ep hep

/-- What is armed is what is seen to be armed. -/
theorem Step.arms_iff (h : s.WF) (hep : s.ep e = some ep) (hstep : Step s l s') :
    l.Arms e ↔ ∃ size, .schedule size ∈ s.acts l e := by
  have heff := hstep.effect h
  constructor
  · rintro ⟨o, ho, hp⟩
    cases o with
    | prime bits stat =>
      obtain ⟨f, fp, pre, size, post, rfl, hfp, hacts, -⟩ := heff.prime bits stat ho
      have hbit : f.mask.getLsbD e.bit = true := hp
      rw [EpId.getLsbD_mask, decide_eq_true_eq, EpId.bit_inj] at hbit
      subst hbit
      exact ⟨size, by rw [hacts]; simp⟩
    | setup high v => simp [Obs.primes] at hp
  · rintro ⟨size, hmem⟩
    obtain ⟨stat, ho⟩ := heff.armed e ep size hep hmem
    refine ⟨_, ho, ?_⟩
    show e.mask.getLsbD e.bit = true
    rw [EpId.getLsbD_mask, decide_eq_true_eq]

end Steps

end ImxrtUsbd
