/-
  ImxrtUsbd.Panics

  How the calls end.  None of them waits forever, none but the four named in
  `Call.Panics` ever panics, and these panic in just the states that are
  described there (`call_ends`).
-/
import ImxrtUsbd.HostAddress

namespace ImxrtUsbd

open Lib

/-- The states in which a call panics: number 0 stands for the control endpoint,
    of which a half may be missing. -/
def Call.Panics (s : Sys) : Call → Prop
  | .read addr _ => (s.lookup addr).isSome = true ∧ addr.index = 0 ∧ s.ep .ep0Out = none
  | .write addr _ => (s.lookup addr).isSome = true ∧ addr.index = 0 ∧
      (s.ep .ep0In = none ∨ s.ep .ep0Out = none ∧ s.Writable .ep0In)
  | .isStalled addr => s.lookup addr = none
  | .reset debugAssertions => debugAssertions = true ∧ s.portReset = false
  | .poll | .setStalled _ _ | .configure | .setDeviceAddress _ | .enable | .enableZlt _
  | .setInterrupts _ => False

section Panics

variable {s s' : Sys} {c : Call}

instance (s : Sys) (c : Call) : Decidable (c.Panics s) := by
  unfold Call.Panics
  split <;> infer_instance

/-- The call returns. -/
def Call.Returns (s : Sys) (c : Call) : Prop := ∃ r s' o, run c.prog s = ⟨.ok r, s', o⟩

theorem Call.Returns.of_run {α : Type} {p : UsbM α} {f : α → Ret} {a : α} {o : List Obs}
    (hprog : c.prog = p >>= fun a => pure (f a)) (h : run p s = ⟨.ok a, s', o⟩) : c.Returns s := by
  refine ⟨f a, s', o, ?_⟩
  rw [hprog, run_bind, h, Out.andThen_ok_obs, run_pure, List.append_nil]

/-- A call whose code panics, panics. -/
theorem run_map_fail {α β : Type} {p : UsbM α} (f : α → β) {e : Fault}
    (h : (run p s).res = .fail e) : (run (p >>= fun a => pure (f a)) s).res = .fail e := by
  rw [run_bind]
  generalize run p s = x at h ⊢
  obtain ⟨res, post, obs⟩ := x
  obtain rfl : res = .fail e := h
  rfl

theorem read_ends (h : s.WF) (addr : EndpointAddress) (buf : List Byte) :
    if (Call.read addr buf).Panics s then (run (Call.read addr buf).prog s).res = .fail .panic
    else (Call.read addr buf).Returns s := by
  split
  · rename_i hp
    exact run_map_fail Ret.read (by rw [run_busRead_panic h hp.1 hp.2.1 hp.2.2])
  · rename_i hp
    cases hl : s.lookup addr with
    | none => exact .of_run rfl (run_busRead_none h hl buf)
    | some ep =>
      have hsome : (s.lookup addr).isSome = true := by rw [hl]; rfl
      obtain ⟨e, he, -, hep | ⟨h0, hnone⟩⟩ := Sys.exists_readsFrom hsome
      · obtain ⟨ep, hep⟩ := Option.isSome_iff_exists.mp hep
        have hrun := run_busRead h he hep buf
        split at hrun
        · split at hrun <;> exact .of_run rfl hrun
        · split at hrun <;> exact .of_run rfl hrun
      · exact absurd ⟨hsome, h0, hnone⟩ hp

theorem write_ends (h : s.WF) (addr : EndpointAddress) (buf : List Byte) :
    if (Call.write addr buf).Panics s then (run (Call.write addr buf).prog s).res = .fail .panic
    else (Call.write addr buf).Returns s := by
  split
  · rename_i hp
    exact run_map_fail Ret.write (run_busWrite_fails h hp.1 hp.2.1 hp.2.2 buf)
  · rename_i hp
    cases hl : s.lookup addr with
    | none => exact .of_run rfl (run_busWrite_none h hl buf)
    | some ep =>
      have hsome : (s.lookup addr).isSome = true := by rw [hl]; rfl
      by_cases h0 : addr.index = 0
      · cases hepi : s.ep .ep0In with
        | none => exact absurd ⟨hsome, h0, Or.inl hepi⟩ hp
        | some epi =>
          by_cases hw : s.Writable .ep0In
          · cases hepo : s.ep .ep0Out with
            | none => exact absurd ⟨hsome, h0, Or.inr ⟨hepo, hw⟩⟩ hp
            | some epo =>
              have hrun := run_busWrite_zero h hsome h0 hepi hepo hw buf
              split at hrun <;> exact .of_run rfl hrun
          · exact .of_run rfl (run_busWrite_refused h hsome h0 hepi hw buf)
      · obtain ⟨e, rfl, hep⟩ := Sys.lookup_eq_some hl
        rw [EpId.address_index] at h0
        have hrun := run_busWrite h h0 hep buf
        split at hrun <;> exact .of_run rfl hrun

/-- A call in a well formed state panics where that is said, and returns
    everywhere else. -/
theorem Call.ends (h : s.WF) (c : Call) :
    if c.Panics s then (run c.prog s).res = .fail .panic else c.Returns s := by
  have hreturns : ¬ c.Panics s → c.Returns s →
      if c.Panics s then (run c.prog s).res = .fail .panic else c.Returns s := by
    intro hp hr
    rw [if_neg hp]
    exact hr
  cases c with
  -- what follows a lookup panics where there is no endpoint
  | read addr buf => exact read_ends h addr buf
  | write addr buf => exact write_ends h addr buf
  | poll =>
    refine hreturns id ?_
    have hrun := run_poll s
    split at hrun
    · exact .of_run rfl hrun
    · split at hrun <;> exact .of_run rfl hrun
  | setStalled addr stalled =>
    refine hreturns id ?_
    cases hl : s.lookup addr with
    | none => exact .of_run (f := fun _ => .unit) rfl (run_setStalled_none h hl stalled)
    | some ep =>
      obtain ⟨e, rfl, hep⟩ := Sys.lookup_eq_some hl
      have hrun := run_busSetStalled h hep stalled
      split at hrun <;> exact .of_run (f := fun _ => .unit) rfl hrun
  | isStalled addr =>
    cases hl : s.lookup addr with
    | none =>
      have hp : (Call.isStalled addr).Panics s := hl
      rw [if_pos hp]
      exact run_map_fail Ret.bool (by rw [run_isStalled_none h hl])
    | some ep =>
      obtain ⟨e, rfl, hep⟩ := Sys.lookup_eq_some hl
      exact hreturns (by simp [Panics, hl]) (.of_run rfl (run_busIsStalled h hep))
  | reset debugAssertions =>
    have hrun := run_busReset h debugAssertions
    split at hrun
    -- the assertion on `PORTSC1.PR`, checked only with debug assertions
    · rename_i hfail
      have hp : (Call.reset debugAssertions).Panics s := by simpa [Panics] using hfail
      rw [if_pos hp]
      exact run_map_fail (fun _ => Ret.unit) (by rw [hrun])
    · rename_i hok
      have hp : ¬ (Call.reset debugAssertions).Panics s := by simpa [Panics] using hok
      exact hreturns hp (.of_run (f := fun _ => .unit) rfl hrun)
  | configure => exact hreturns id (.of_run (f := fun _ => .unit) rfl (run_onConfigured h))
  | setDeviceAddress addr =>
    exact hreturns id (.of_run (f := fun _ => .unit) rfl (run_writeReg _ _ s (by simp)))
  | enable => exact hreturns id (.of_run (f := fun _ => .unit) rfl (run_attach h))
  | enableZlt addr =>
    obtain ⟨s', hrun⟩ := run_enableZlt h addr
    exact hreturns id (.of_run (f := fun _ => .unit) rfl hrun)
  | setInterrupts interrupts =>
    refine hreturns id ?_
    cases interrupts <;>
      exact .of_run (f := fun _ => .unit) rfl (run_modifyReg .USBINTR _ s (by simp))

/-- In every reachable state every call ends: it panics in the states described,
    and returns in all others. -/
theorem call_ends (h : Reachable s) (c : Call) :
    if c.Panics s then (run c.prog s).res = .fail .panic
    else ∃ r s' o, run c.prog s = ⟨.ok r, s', o⟩ := c.ends h.wf

end Panics

/-- A reset outside of a bus reset, with and without debug assertions. -/
theorem call_ends_device : (run (Call.reset true).prog device).res = .fail .panic ∧
    ∃ r s' o, run (Call.reset false).prog device = ⟨.ok r, s', o⟩ := by
  have hp : (Call.reset true).Panics device := ⟨rfl, by decide +kernel⟩
  have hr : ¬ (Call.reset false).Panics device := by rintro ⟨⟨⟩, -⟩
  have h1 := call_ends device_booted.reachable (.reset true)
  have h2 := call_ends device_booted.reachable (.reset false)
  rw [if_pos hp] at h1
  rw [if_neg hr] at h2
  exact ⟨h1, h2⟩

end ImxrtUsbd
