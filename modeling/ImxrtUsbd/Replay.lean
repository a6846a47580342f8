/-
  ImxrtUsbd.Replay

  Executing the system: `replay` performs commands one after the other, and its
  outcomes are exactly the runs (`replay_iff`), so that a run can be found by
  evaluation.  `device` is the state of a device with a control endpoint and a
  bulk endpoint in each direction, right after its endpoints were allocated.
-/
import ImxrtUsbd.Boot

namespace ImxrtUsbd

open Lib

/-! ## Replay -/

/-- What there is to do: a call, or a step of the controller. -/
inductive Cmd where
  | call (c : Call)
  | hw (ev : HwEvent)

/-- The command behind a label. -/
def Label.cmd : Label → Cmd
  | .call c _ _ => .call c
  | .hw ev => .hw ev

/-- Perform a command, if it can be performed and returns. -/
def perform (s : Sys) : Cmd → Option (Label × Sys)
  | .call c =>
    match run c.prog s with
    | ⟨.ok r, s', obs⟩ => some (.call c r obs, s')
    | _ => none
  | .hw ev => if ev.Enabled s then some (.hw ev, ev.apply s) else none

/-- Perform commands in order. -/
def replay (s : Sys) : List Cmd → Option (Trace × Sys)
  | [] => some ([], s)
  | c :: cs => do
    let (l, s₁) ← perform s c
    let (tr, s₂) ← replay s₁ cs
    return ((s, l) :: tr, s₂)

section Replay

variable {s s' : Sys} {l : Label} {tr : Trace} {c : Cmd} {cs : List Cmd}

theorem perform_iff : perform s c = some (l, s') ↔ l.cmd = c ∧ Step s l s' := by
  constructor
  · intro h
    cases c with
    | call c =>
      rw [perform] at h
      split at h
      · rename_i r s₁ obs hrun
        obtain ⟨rfl, rfl⟩ := Prod.mk.inj (Option.some.inj h)
        exact ⟨rfl, .call hrun⟩
      · simp at h
    | hw ev =>
      rw [perform] at h
      split at h
      · rename_i hev
        obtain ⟨rfl, rfl⟩ := Prod.mk.inj (Option.some.inj h)
        exact ⟨rfl, .hw hev⟩
      · simp at h
  · rintro ⟨rfl, hstep⟩
    cases hstep with
    | call hrun => simp [Label.cmd, perform, hrun]
    | hw hev => simp [Label.cmd, perform, hev]

theorem replay_cons : replay s (c :: cs) = some (tr, s') ↔
    ∃ l s₁ tr₁, perform s c = some (l, s₁) ∧ replay s₁ cs = some (tr₁, s') ∧
      tr = (s, l) :: tr₁ := by
  rw [replay]
  constructor
  · intro h
    obtain ⟨⟨l, s₁⟩, hl, h⟩ := Option.bind_eq_some_iff.mp h
    obtain ⟨⟨tr₁, s₂⟩, htr, h⟩ := Option.bind_eq_some_iff.mp h
    obtain ⟨rfl, rfl⟩ := Prod.mk.inj (Option.some.inj h)
    exact ⟨l, s₁, tr₁, hl, htr, rfl⟩
  · rintro ⟨l, s₁, tr₁, hl, htr, rfl⟩
    simp [hl, htr]

/-- Replay finds runs. -/
theorem replay_sound (h : replay s cs = some (tr, s')) : Run Step s tr s' := by
  induction cs generalizing s tr with
  | nil =>
    obtain ⟨rfl, rfl⟩ := Prod.mk.inj (Option.some.inj h)
    exact .nil
  | cons c cs ih =>
    obtain ⟨l, s₁, tr₁, hl, htr, rfl⟩ := replay_cons.mp h
    exact (Run.single (perform_iff.mp hl).2).trans (ih htr)

theorem replay_snoc {s₁ : Sys} (h : replay s cs = some (tr, s₁))
    (hl : perform s₁ c = some (l, s')) :
    replay s (cs ++ [c]) = some (tr ++ [(s₁, l)], s') := by
  induction cs generalizing s tr with
  | nil =>
    obtain ⟨rfl, rfl⟩ := Prod.mk.inj (Option.some.inj h)
    exact replay_cons.mpr ⟨l, s', [], hl, rfl, rfl⟩
  | cons d cs ih =>
    obtain ⟨k, s₂, tr₁, hk, htr, rfl⟩ := replay_cons.mp h
    exact replay_cons.mpr ⟨k, s₂, _, hk, ih htr, rfl⟩

/-- The runs are what replay finds. -/
theorem replay_iff : (∃ cs, replay s cs = some (tr, s')) ↔ Run Step s tr s' := by
  constructor
  · rintro ⟨cs, h⟩
    exact replay_sound h
  · intro h
    induction h with
    | nil => exact ⟨[], rfl⟩
    | snoc _ hstep ih =>
      obtain ⟨cs, ih⟩ := ih
      exact ⟨_, replay_snoc ih (perform_iff.mpr ⟨rfl, hstep⟩)⟩

/-- A run with a decidable property, found by evaluation. -/
theorem exists_run {p : Trace → Sys → Prop} [∀ tr s, Decidable (p tr s)] (cs : List Cmd)
    (h : ((replay s cs).any fun x => decide (p x.1 x.2)) = true) :
    ∃ tr s', Run Step s tr s' ∧ p tr s' := by
  obtain ⟨⟨tr, s'⟩, hx, hp⟩ := (Option.any_eq_true _ _).mp h
  exact ⟨tr, s', replay_sound hx, of_decide_eq_true hp⟩

/-- A run and one more step. -/
theorem exists_step {p : Trace → Sys → Label → Sys → Prop} [∀ tr s l s', Decidable (p tr s l s')]
    (cs : List Cmd) (c : Cmd)
    (h : ((replay s cs).any fun x =>
      (perform x.2 c).any fun y => decide (p x.1 x.2 y.1 y.2)) = true) :
    ∃ tr t l s', Run Step s tr t ∧ Step t l s' ∧ p tr t l s' := by
  obtain ⟨⟨tr, t⟩, hx, hy⟩ := (Option.any_eq_true _ _).mp h
  obtain ⟨⟨l, s'⟩, hl, hp⟩ := (Option.any_eq_true _ _).mp hy
  exact ⟨tr, t, l, s', replay_sound hx, (perform_iff.mp hl).2, of_decide_eq_true hp⟩

/-- A run and two more steps. -/
theorem exists_two_steps {p : Sys → Label → Sys → Label → Sys → Prop}
    [∀ s l s₁ l' s₂, Decidable (p s l s₁ l' s₂)] (cs : List Cmd) (c c' : Cmd)
    (h : ((replay s cs).any fun x => (perform x.2 c).any fun y =>
      (perform y.2 c').any fun z => decide (p x.2 y.1 y.2 z.1 z.2)) = true) :
    ∃ tr t l s₁ l' s₂, Run Step s tr t ∧ Step t l s₁ ∧ Step s₁ l' s₂ ∧ p t l s₁ l' s₂ := by
  obtain ⟨tr, t, l, s₁, hrun, hstep, hz⟩ := exists_step (s := s)
    (p := fun _ t l s₁ => ((perform s₁ c').any fun z => decide (p t l s₁ z.1 z.2)) = true) cs c
    (by simpa using h)
  obtain ⟨⟨l', s₂⟩, hl', hp⟩ := (Option.any_eq_true _ _).mp hz
  exact ⟨tr, t, l, s₁, l', s₂, hrun, hstep, (perform_iff.mp hl').2, of_decide_eq_true hp⟩

end Replay

/-! ## A device -/

/-- Fresh memory with room for `COUNT` endpoint halves and `SIZE` bytes of
    endpoint memory. -/
def powerOn (COUNT SIZE : Nat) : Sys where
  reg := fun _ => 0
  td := fun _ => Td.new
  qh := fun _ => Qh.new
  mem := fun _ => 0
  stack := 0x20001000
  driver :=
    { bufferAllocator := .fromBuffer 0x20200000 SIZE
      epAllocator :=
        { EndpointState.new COUNT 0x20100000 0x20101000 with
          allocMask := EndpointState.ALLOCATOR_TAKEN }
      epOut := 0 }

theorem powerOn_ok {SIZE : Nat} (COUNT : Nat) (h : SIZE < 0xC0000000 - 0x200000) :
    (powerOn COUNT SIZE).PowerOn where
  stack := by
    show 0x20001000 < 0xE0000000
    omega
  td := fun _ => rfl
  qh := fun _ => rfl
  epOut := rfl
  epAllocator := ⟨COUNT, 0x20100000, 0x20101000, allocator_new _ _ _⟩
  bufferAllocator := ⟨0x20200000, SIZE, rfl, by omega⟩

/-- The state once the driver is initialised. -/
def started (s : Sys) (speed : Speed) : Sys := (run (Driver.initializeDriver speed) s).post

theorem started_booted {s : Sys} (h : s.PowerOn) (speed : Speed) : Booted (started s speed) := by
  obtain ⟨reg, hrun, -⟩ := run_initializeDriver speed s
  rw [started, hrun]
  exact .start h hrun

/-- Initialise the driver, and make requests that must return. -/
def bootWith (s : Sys) (speed : Speed) (requests : List Request) : Option Sys :=
  requests.foldlM
    (fun s q =>
      match run q.prog s with
      | ⟨.ok _, s', _⟩ => some s'
      | _ => none)
    (started s speed)

theorem bootWith_booted {s s' : Sys} {speed : Speed} {requests : List Request} (h : s.PowerOn)
    (hboot : bootWith s speed requests = some s') : Booted s' := by
  have hall : ∀ (requests : List Request) (s : Sys), Booted s →
      requests.foldlM
        (fun s q =>
          match run q.prog s with
          | ⟨.ok _, s', _⟩ => some s'
          | _ => none) s = some s' → Booted s' := by
    intro requests
    induction requests with
    | nil =>
      intro s hs hfold
      obtain rfl := Option.some.inj hfold
      exact hs
    | cons q requests ih =>
      intro s hs hfold
      rw [List.foldlM_cons] at hfold
      obtain ⟨s₁, hq, hfold⟩ := Option.bind_eq_some_iff.mp hfold
      split at hq
      · rename_i r s₂ obs hrun
        obtain rfl := Option.some.inj hq
        exact ih s₂ (hs.alloc hrun) hfold
      · simp at hq
  exact hall requests _ (started_booted h speed) hboot

/-- The same, with a state in place of a failure. -/
theorem bootWith_getD {s d : Sys} {speed : Speed} {requests : List Request} (h : s.PowerOn)
    (hsome : (bootWith s speed requests).isSome = true) :
    Booted ((bootWith s speed requests).getD d) := by
  obtain ⟨s', hs⟩ := Option.isSome_iff_exists.mp hsome
  rw [hs, Option.getD_some]
  exact bootWith_booted h hs

/-- The bulk endpoints of the device. -/
def bulkOut : EpId := ⟨.Out, 1⟩
def bulkIn : EpId := ⟨.In, 1⟩

/-- The endpoints of a bulk device. -/
def deviceRequests : List Request :=
  [⟨.Out, some EpId.ep0Out.address, .Control, 64⟩, ⟨.In, some EpId.ep0In.address, .Control, 64⟩,
    ⟨.Out, none, .Bulk, 64⟩, ⟨.In, none, .Bulk, 64⟩]

/-- A bulk device, ready for use. -/
def device : Sys := (bootWith (powerOn 16 2048) .High deviceRequests).getD (powerOn 16 2048)

theorem device_booted : Booted device :=
  bootWith_getD (powerOn_ok 16 (by omega)) (by decide +kernel)

/-- What was allocated for `e`, in the order of the requests. -/
def deviceEndpoint (e : EpId) (i : Nat) (kind : EndpointType) : Endpoint :=
  e.endpoint ⟨0x20200000 + 2048 - 64 * (i + 1), 64⟩ kind

theorem device_ep0Out : device.ep .ep0Out = some (deviceEndpoint .ep0Out 0 .Control) := by
  decide +kernel

theorem device_ep0In : device.ep .ep0In = some (deviceEndpoint .ep0In 1 .Control) := by
  decide +kernel

theorem device_bulkOut : device.ep bulkOut = some (deviceEndpoint bulkOut 2 .Bulk) := by
  decide +kernel

theorem device_bulkIn : device.ep bulkIn = some (deviceEndpoint bulkIn 3 .Bulk) := by
  decide +kernel

/-- The device runs with the endpoints it was booted with. -/
theorem ep_device {tr : Trace} {s : Sys} (h : Run Step device tr s) (e : EpId) :
    s.ep e = device.ep e :=
  ep_run device_booted.reachable.wf h e

end ImxrtUsbd
