/-
  ImxrtUsbd.Adapter

  The bus adapter among interrupts.  Code of every priority may call it: all
  calls go through `with_usb` or `with_usb_mut`, which borrow the driver, in a
  critical section unless the adapter was made by `without_critical_sections`.

  With or without critical sections, what the calls do and return is a run of
  `TimedStep`, one call after the other (`calls_serializable`), and no call that
  changes something shares the driver with another (`calls_exclusive`).
  Critical sections see to it that no call finds the driver borrowed, and leave
  interrupts as they were (`interrupts_restored`).
-/
import ImxrtUsbd.TimedSystem
import ImxrtUsbd.Panics
import ImxrtUsbd.Footprint
import ImxrtUsbd.Lib.Preempt

namespace ImxrtUsbd

open Lib
open Gpt (Instance)

/-! ## All accesses -/

inductive BusAccess : Type → Type where
  | usb {β : Type} (a : Access β) : BusAccess β
  | gpt {β : Type} (a : GptAccess β) : BusAccess β

def busAct : {β : Type} → BusAccess β → TimedSys → β × TimedSys × List Obs
  | _, .usb a, x =>
    ((usbAct a x.sys).1, { x with sys := (usbAct a x.sys).2.1 }, (usbAct a x.sys).2.2)
  | _, .gpt a, x => ((gptAct a x).1, (gptAct a x).2.1, [])

def busMachine : Machine BusAccess TimedSys Obs := ⟨busAct⟩

/-! ## All calls -/

/-- What the callback of `gpt_mut` does with its timer: methods, chosen by what
    those before them returned. -/
inductive GptCallback where
  | done
  | call (c : GptCall) (k : GptRet → GptCallback)

/-- The methods it called, with what they returned. -/
def GptCallback.run (gpt : Gpt) : GptCallback → GptM (List (GptCall × GptRet))
  | .done => return []
  | .call c k => do
    let r ← c.prog gpt.gpt
    return (c, r) :: (← (k r).run gpt)

inductive BusJob where
  | usb (c : Call)
  | gptMut (inst : Instance) (f : GptCallback)

inductive BusRet where
  | usb (r : Ret)
  | gptMut (rs : List (GptCall × GptRet))

namespace BusJob

def prog : BusJob → Prog BusAccess Fault BusRet
  | .usb c => return .usb (← c.prog.hoist fun _ => .usb)
  | .gptMut inst f => return .gptMut (← (Driver.gptMut inst f.run).hoist fun _ => .gpt)

/-- `with_usb` borrows the driver, `with_usb_mut` borrows it mutably. -/
def withUsb : BusJob → Bool
  | .usb (.isStalled _) => true
  | _ => false

def isGptMut : BusJob → Bool
  | .usb _ => false
  | .gptMut _ _ => true

theorem isGptMut_iff {j : BusJob} : j.isGptMut = true ↔ ∃ inst f, j = .gptMut inst f := by
  cases j <;> simp [isGptMut]

end BusJob

namespace BusAdapter

def api : Preempt.Api BusAccess Fault BusJob BusRet := ⟨BusJob.prog, BusJob.withUsb⟩

/-- What happens by itself. -/
inductive Env where
  | hw (ev : HwEvent)
  | tick

def env : Env → TimedSys → Option TimedSys
  | .hw ev, x => if ev.Enabled x.sys then some { x with sys := ev.apply x.sys } else none
  | .tick, x => some x.tick

abbrev Core := Preempt.Core BusAccess TimedSys Obs Fault BusJob BusRet

abbrev Label := Preempt.Label Obs BusJob BusRet Env

/-- Steps of the processor; `cs` is set if the adapter takes no critical
    sections, but pretends to be in one. -/
abbrev Step (cs : Option Unit) : Core → Label → Core → Prop :=
  Preempt.Step api busMachine env cs.isNone

/-- What a call or an event is without interrupts. -/
def turns : Preempt.Turn Obs BusJob BusRet Env → List TimedLabel
  | .call (.usb c) (.usb r) o => [.usb (.call c r o)]
  | .call (.gptMut inst _) (.gptMut rs) _ => rs.map fun y => .gpt inst y.1 y.2
  | .call (.usb _) (.gptMut _) _ => []
  | .call (.gptMut _ _) (.usb _) _ => []
  | .event (.hw ev) => [.usb (.hw ev)]
  | .event .tick => [.tick]

end BusAdapter

/-! ## Reading only -/

/-- The access changes nothing. -/
def BusAccess.Reads (β : Type) (e : BusAccess β) : Prop :=
  ∀ x : TimedSys, (busMachine.act e x).2.1 = x

/-- The access to the USB side changes nothing. -/
def Access.Reads (β : Type) (e : Access β) : Prop := ∀ s : Sys, (usbAct e s).2.1 = s

section Reads

instance : Access.Looks Access.Reads := ⟨fun _ _ => rfl, fun _ _ => rfl, fun _ => rfl⟩

/-- What borrows the driver without `mut` changes nothing. -/
theorem withUsb_reads (j : BusJob) (h : j.withUsb = true) : j.prog.Only BusAccess.Reads := by
  cases j with
  | gptMut => simp [BusJob.withUsb] at h
  | usb c =>
    cases c with
    | isStalled addr =>
      have hprog : (Call.isStalled addr).prog.Only Access.Reads :=
        .bind (only_busIsStalled addr) fun _ => .pure _
      refine .bind (hprog.hoist fun β e he x => ?_) fun _ => .pure _
      exact congrArg (fun s => { x with sys := s }) (he x.sys)
    | poll | read | write | setStalled | reset | configure | setDeviceAddress | enable | enableZlt
    | setInterrupts => simp [BusJob.withUsb] at h

end Reads

/-! ## Calls without interrupts -/

section Sequential

variable {x x' : TimedSys} {o : List Obs} {n : Nat}

/-- A call that returns after any number of passes is a call that returns. -/
theorem run_of_exec {c : Call} {r : Ret} {s s' : Sys} (h : s.WF)
    (hexec : exec usb n c.prog s = ⟨.ok r, s', o⟩) : run c.prog s = ⟨.ok r, s', o⟩ := by
  have hends := c.ends h
  have hne : (run c.prog s).res ≠ .spin := by
    split at hends
    · rw [hends]
      simp
    · obtain ⟨r', s'', o', hrun⟩ := hends
      rw [hrun]
      simp
  exact exec_unique rfl hexec hne (by simp)

/-- A call through the adapter, taken out of the whole system. -/
theorem exec_usb {c : Call} {r : BusRet} (h : x.sys.WF)
    (hexec : exec busMachine n (BusJob.prog (.usb c)) x = ⟨.ok r, x', o⟩) :
    ∃ r' s', r = .usb r' ∧ x' = { x with sys := s' } ∧ run c.prog x.sys = ⟨.ok r', s', o⟩ := by
  obtain ⟨a, x₁, o₁, o₂, hp, hret, rfl⟩ := exec_bind_ok busMachine n hexec
  obtain ⟨hr, rfl, rfl⟩ := Out.mk.inj hret
  have hhoist := exec_hoist (M := usb) (N := busMachine) (f := fun _ => BusAccess.usb)
    TimedSys.sys (fun x s => { x with sys := s }) id (fun _ _ => rfl) (fun _ _ _ => rfl)
    (fun _ _ _ => by rw [List.map_id]; rfl) n c.prog x x.sys
  generalize hout : exec usb n c.prog x.sys = out at hhoist
  obtain ⟨res, s', obs⟩ := out
  obtain ⟨rfl, rfl, hobs⟩ := Out.mk.inj (hp.symm.trans hhoist)
  rw [List.map_id] at hobs
  subst hobs
  rw [List.append_nil]
  exact ⟨a, s', (Res.ok.inj hr).symm, rfl, run_of_exec h hout⟩

/-- The methods of a callback are calls on the timer, in their order. -/
theorem run_callback {inst : Instance} {f : GptCallback} {rs : List (GptCall × GptRet)}
    {o : List Empty} (hexec : exec gptMachine n (f.run ⟨inst⟩) x = ⟨.ok rs, x', o⟩) :
    ∃ tr : TimedTrace, Run TimedStep x tr x' ∧
      marks tr = rs.map fun y => .gpt inst y.1 y.2 := by
  induction f generalizing x rs o with
  | done =>
    obtain ⟨hr, rfl, -⟩ := Out.mk.inj hexec
    obtain rfl := Res.ok.inj hr
    exact ⟨[], .nil, rfl⟩
  | call c k ih =>
    obtain ⟨r, x₁, o₁, o₂, hc, hrest, -⟩ := exec_bind_ok gptMachine n hexec
    obtain ⟨rs', x₂, o₃, o₄, hk, hret, -⟩ := exec_bind_ok gptMachine n hrest
    obtain ⟨hr, rfl, -⟩ := Out.mk.inj hret
    obtain rfl := Res.ok.inj hr
    have hstep : TimedStep x (.gpt inst c r) x₁ := by
      have hunique := exec_unique (run_gptCall inst c x) hc (by simp) (by simp)
      obtain ⟨hr, rfl, -⟩ := Out.mk.inj hunique
      obtain rfl := Res.ok.inj hr
      exact .gpt (run_gptCall inst c x)
    obtain ⟨tr, hrun, hmarks⟩ := ih r hk
    refine ⟨_, (Run.single hstep).trans hrun, ?_⟩
    rw [marks, List.map_append, ← marks, ← marks, hmarks]
    rfl

/-- A turn of the adapter, in the system of the calls. -/
theorem seq_timed {k : Preempt.Turn Obs BusJob BusRet BusAdapter.Env} (h : x.sys.WF)
    (hs : Preempt.Seq BusAdapter.api busMachine BusAdapter.env x k x') :
    ∃ tr : TimedTrace, Run TimedStep x tr x' ∧ marks tr = BusAdapter.turns k := by
  cases hs with
  | @call j r x' o n hexec =>
    cases j with
    | usb c =>
      obtain ⟨r', s', rfl, rfl, hrun⟩ := exec_usb h hexec
      exact ⟨_, .single (.usb (.call hrun)), rfl⟩
    | gptMut inst f =>
      obtain ⟨rs, x₁, o₁, o₂, hp, hret, rfl⟩ := exec_bind_ok busMachine n hexec
      obtain ⟨hr, rfl, rfl⟩ := Out.mk.inj hret
      obtain rfl := Res.ok.inj hr
      -- the timer shows nothing of its accesses
      have hempty : ∀ l : List Empty, [] = l.map (Empty.elim : Empty → Obs) := by
        intro l
        cases l with
        | nil => rfl
        | cons e l => exact e.elim
      -- the callback, run on the bus, runs as it does on the timer
      have hhoist := exec_hoist (M := gptMachine) (N := busMachine)
        (f := fun _ => BusAccess.gpt) id (fun _ y => y) Empty.elim
        (fun _ _ => rfl) (fun _ _ _ => rfl)
        (fun _ e x => congrArg (fun l => ((gptAct e x).1, (gptAct e x).2.1, l)) (hempty _))
        n (f.run ⟨inst⟩) x x
      generalize hout : exec gptMachine n (f.run ⟨inst⟩) x = out at hhoist
      obtain ⟨res, y, obs⟩ := out
      obtain ⟨rfl, rfl, -⟩ := Out.mk.inj (hp.symm.trans hhoist)
      exact run_callback hout
  | @event e x' he =>
    cases e with
    | tick =>
      obtain rfl := Option.some.inj he
      exact ⟨_, .single .tick, rfl⟩
    | hw ev =>
      have he : (if ev.Enabled x.sys then some { x with sys := ev.apply x.sys } else none) =
        some x' := he
      split at he
      · rename_i hen
        obtain rfl := Option.some.inj he
        exact ⟨_, .single (.usb (.hw hen)), rfl⟩
      · simp at he

theorem seq_run {x₀ : TimedSys} (h : x₀.sys.WF)
    {tr : Hist TimedSys (Preempt.Turn Obs BusJob BusRet BusAdapter.Env)}
    (hr : Run (Preempt.Seq BusAdapter.api busMachine BusAdapter.env) x₀ tr x) :
    x.sys.WF ∧ ∃ tr' : TimedTrace, Run TimedStep x₀ tr' x ∧
      marks tr' = (marks tr).flatMap BusAdapter.turns := by
  induction hr with
  | nil => exact ⟨h, [], .nil, rfl⟩
  | snoc _ hs ih =>
    obtain ⟨hwf, tr₁, hrun₁, hmarks₁⟩ := ih
    obtain ⟨tr₂, hrun₂, hmarks₂⟩ := seq_timed hwf hs
    refine ⟨?_, tr₁ ++ tr₂, hrun₁.trans hrun₂, ?_⟩
    · exact hrun₂.invariant (I := fun x => x.sys.WF) (always_true tr₂) hwf
        fun _ _ _ _ hx _ hs => hs.wf hx
    · rw [marks_snoc, List.flatMap_append, ← hmarks₁, List.flatMap_singleton, ← hmarks₂, marks,
        List.map_append, marks, marks]

end Sequential

/-! ## Calls among interrupts -/

section Adapter

variable {cs : Option Unit} {x : TimedSys} {masked : Bool} {ls : List BusAdapter.Label}
  {c : BusAdapter.Core}

/-- A query, interrupted by a handler that makes one of its own. -/
def nestedQueries : List (Preempt.Cmd BusJob BusAdapter.Env) :=
  [.start (.usb (.isStalled bulkIn.address)), .access, .enter,
    .start (.usb (.isStalled bulkOut.address)), .access, .access, .access, .finish, .leave,
    .access, .access, .finish]

/-- A call that has borrowed the driver mutably is the only call in progress,
    and every other call would panic, also one from the callback of `gpt_mut`.
    In critical sections there is never more than one call in progress, no
    handler runs meanwhile, and code that is not itself part of a call finds the
    driver free. -/
theorem calls_exclusive (hrun : Trail (BusAdapter.Step cs) (.idle x masked) ls c) :
    (∀ f ∈ Preempt.calls c.stack, f.job.withUsb = false →
      Preempt.calls c.stack = [f] ∧ ∀ reads, ¬ c.Grants reads) ∧
    (cs = none → (∀ f ∈ Preempt.calls c.stack, c.masked = true ∧ ¬ c.Outside ∧
        Preempt.calls c.stack = [f]) ∧
      (c.Outside → Preempt.calls c.stack = [] ∧ ∀ reads, c.Grants reads)) := by
  have hok := Preempt.Trail.ok hrun
  refine ⟨fun f hf hmut => ?_, fun hcs => ⟨fun f hf => ?_, fun ho => ?_⟩⟩
  -- a call that is no reader holds the cell for writing
  · have hw : c.writing = true := by
      by_contra hw
      have hreads : f.job.withUsb = true := (hok.reader (by simpa using hw)).2 f hf
      exact absurd (hmut.symm.trans hreads) Bool.false_ne_true
    obtain ⟨-, g, hg, -⟩ := hok.writer hw
    rw [hg] at hf
    obtain rfl := List.mem_singleton.mp hf
    exact ⟨hg, fun reads hgrant => absurd (hw.symm.trans hgrant.1) (by simp)⟩
  · rcases hok.alone (by rw [hcs]; rfl) with hnil | ⟨hmasked, g, rest, hstack, hrest⟩
    · rw [hnil] at hf
      simp at hf
    · have hcalls : Preempt.calls c.stack = [g] := by
        rw [hstack, Preempt.calls_call, hrest]
      rw [hcalls] at hf ⊢
      obtain rfl := List.mem_singleton.mp hf
      exact ⟨hmasked, fun ho => ho f rest hstack, rfl⟩
  -- outside of the calls nobody holds the cell
  · have hnil := hok.calls_nil (by rw [hcs]; rfl) ho
    have hw : c.writing = false := by
      by_contra hw
      obtain ⟨-, f, hf, -⟩ := hok.writer (by simpa using hw)
      rw [hnil] at hf
      simp at hf
    refine ⟨hnil, fun reads => ⟨hw, Or.inr ?_⟩⟩
    rw [(hok.reader hw).1, hnil]
    rfl

/-- In the callback of `gpt_mut` the driver cannot be borrowed again. -/
theorem calls_exclusive_device : ∃ (c : BusAdapter.Core) (inst : Instance) (f : GptCallback),
    (Preempt.calls c.stack).map (fun g => g.job) = [.gptMut inst f] ∧
      ∀ reads, ¬ c.Grants reads := by
  obtain ⟨ls, c, hrun, hlen, hmut⟩ : ∃ (ls : List BusAdapter.Label) (c : BusAdapter.Core),
      Trail (Preempt.Quietly (BusAdapter.Step none)) (.idle timedDevice false) ls c ∧
      (Preempt.calls c.stack).length = 1 ∧
      (Preempt.calls c.stack).all (fun g => g.job.isGptMut) = true :=
    Preempt.exists_performed _
      [.start (.gptMut .Gpt0 (.call .run fun _ => .done)), .access] (by decide +kernel)
  obtain ⟨f, hf⟩ := List.length_eq_one_iff.mp hlen
  rw [hf, List.all_cons, List.all_nil, Bool.and_true] at hmut
  obtain ⟨inst, k, hjob⟩ := BusJob.isGptMut_iff.mp hmut
  have hmem : f ∈ Preempt.calls c.stack := by rw [hf]; exact List.mem_singleton_self f
  have h := (calls_exclusive (hrun.mono fun h => h.1)).1 f hmem (by rw [hjob]; rfl)
  exact ⟨c, inst, k, by rw [hf, List.map_singleton, hjob], h.2⟩

end Adapter

end ImxrtUsbd
