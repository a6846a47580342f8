/-
  ImxrtUsbd.HostAddress

  Calls with an endpoint address that the host chose.  `address_handled_iff`
  says for every reachable state, every address byte and every call that takes
  one, that the call returns, and answers for an address that is not allocated
  without doing anything, unless it asks whether such an address is stalled.
-/
import ImxrtUsbd.ControlEndpoint
import ImxrtUsbd.Replay

namespace ImxrtUsbd

open Lib

/-- The call is about the address. -/
def Call.About (addr : EndpointAddress) : Call → Prop
  | .read a _ | .write a _ | .setStalled a _ | .isStalled a => a = addr
  | _ => False

/-- What a call about an address that is not allocated should return. -/
def Call.unallocatedRet : Call → Ret
  | .read _ _ => .read (.error .InvalidEndpoint)
  | .write _ _ => .write (.error .InvalidEndpoint)
  | .isStalled _ => .bool false
  | _ => .unit

/-- The call returns; for an address that is not allocated it changes nothing,
    and returns what it should. -/
def Call.Handled (c : Call) (addr : EndpointAddress) (s : Sys) : Prop :=
  ∃ r s' obs, run c.prog s = ⟨.ok r, s', obs⟩ ∧
    (s.lookup addr = none → r = c.unallocatedRet ∧ s' = s ∧ obs = [])

/-- The call asks whether the address is stalled. -/
def Call.AsksStalled (addr : EndpointAddress) (c : Call) : Prop := c = .isStalled addr

section Handled

variable {s : Sys} {addr : EndpointAddress} {epo epi : Endpoint}

/-- A call whose driver code returns. -/
theorem Call.Handled.of_run {α : Type} {c : Call} {p : UsbM α} {f : α → Ret} {a : α} {s' : Sys}
    {o : List Obs} (hprog : c.prog = (p >>= fun a => pure (f a))) (hrun : run p s = ⟨.ok a, s', o⟩)
    (hnone : s.lookup addr = none → f a = c.unallocatedRet ∧ s' = s ∧ o = []) :
    c.Handled addr s := by
  refine ⟨f a, s', o, ?_, hnone⟩
  rw [hprog, run_bind, hrun, Out.andThen_ok_obs, run_pure, List.append_nil]

theorem read_handled (h : s.WF) (hepo : s.ep .ep0Out = some epo) (buf : List Byte) :
    (Call.read addr buf).Handled addr s := by
  cases hl : s.lookup addr with
  | none => exact .of_run rfl (run_busRead_none h hl buf) fun _ => ⟨rfl, rfl, rfl⟩
  | some ep =>
    have hsome : (s.lookup addr).isSome = true := by rw [hl]; rfl
    obtain ⟨e, haddr, -, hor⟩ := Sys.exists_readsFrom hsome
    obtain ⟨ep', hep⟩ : ∃ ep', s.ep e = some ep' := by
      rcases hor with he | ⟨-, hno⟩
      · exact Option.isSome_iff_exists.mp he
      · rw [hepo] at hno
        simp at hno
    have hrun := run_busRead h haddr hep buf
    have hfull : ∃ a s' o, run (BusAdapter.read addr buf) s = ⟨.ok a, s', o⟩ := by
      rw [hrun]
      split
      · split <;> exact ⟨_, _, _, rfl⟩
      · split <;> exact ⟨_, _, _, rfl⟩
    obtain ⟨a, s', o, hok⟩ := hfull
    exact .of_run rfl hok fun hnone => by rw [hl] at hnone; simp at hnone

theorem write_handled (h : s.WF) (hepo : s.ep .ep0Out = some epo) (hepi : s.ep .ep0In = some epi)
    (buf : List Byte) : (Call.write addr buf).Handled addr s := by
  cases hl : s.lookup addr with
  | none => exact .of_run rfl (run_busWrite_none h hl buf) fun _ => ⟨rfl, rfl, rfl⟩
  | some ep =>
    have hsome : (s.lookup addr).isSome = true := by rw [hl]; rfl
    have hfull : ∃ a s' o, run (BusAdapter.write addr buf) s = ⟨.ok a, s', o⟩ := by
      by_cases h0 : addr.index = 0
      · by_cases hw : s.Writable .ep0In
        · rw [run_busWrite_zero h hsome h0 hepi hepo hw]
          split <;> exact ⟨_, _, _, rfl⟩
        · exact ⟨_, _, _, run_busWrite_refused h hsome h0 hepi hw buf⟩
      · obtain ⟨e, rfl, hep⟩ := Sys.lookup_eq_some hl
        rw [EpId.address_index] at h0
        rw [run_busWrite h h0 hep]
        split <;> exact ⟨_, _, _, rfl⟩
    obtain ⟨a, s', o, hok⟩ := hfull
    exact .of_run rfl hok fun hnone => by rw [hl] at hnone; simp at hnone

theorem setStalled_handled (h : s.WF) (stalled : Bool) :
    (Call.setStalled addr stalled).Handled addr s := by
  cases hl : s.lookup addr with
  | none =>
    exact .of_run (f := fun _ => .unit) rfl (run_setStalled_none h hl stalled)
      fun _ => ⟨rfl, rfl, rfl⟩
  | some ep =>
    obtain ⟨e, rfl, hep⟩ := Sys.lookup_eq_some hl
    have hfull : ∃ s' o, run (BusAdapter.setStalled e.address stalled) s = ⟨.ok (), s', o⟩ := by
      rw [run_busSetStalled h hep]
      split <;> exact ⟨_, _, rfl⟩
    obtain ⟨s', o, hok⟩ := hfull
    exact .of_run (f := fun _ => .unit) rfl hok fun hnone => by rw [hl] at hnone; simp at hnone

theorem isStalled_handled_iff (h : s.WF) :
    (Call.isStalled addr).Handled addr s ↔ (s.lookup addr).isSome = true := by
  cases hl : s.lookup addr with
  | none =>
    refine iff_of_false ?_ (by simp)
    rintro ⟨r, s', o, hrun, -⟩
    obtain ⟨a, hrun, -⟩ := run_map_ok hrun
    rw [run_isStalled_none h hl] at hrun
    simp at hrun
  | some ep =>
    obtain ⟨e, rfl, hep⟩ := Sys.lookup_eq_some hl
    refine iff_of_true ?_ rfl
    exact .of_run (f := Ret.bool) rfl (run_busIsStalled h hep)
      fun hnone => by rw [hl] at hnone; simp at hnone

/-- In every reachable state of a system whose control endpoint is allocated,
    a call about any address is handled if and only if it does not ask whether
    an address that is not allocated is stalled. -/
theorem address_handled_iff {c : Call} (hs : Reachable s) (hepo : s.ep .ep0Out = some epo)
    (hepi : s.ep .ep0In = some epi) (hc : c.About addr) :
    c.Handled addr s ↔ ¬ (c.AsksStalled addr ∧ s.lookup addr = none) := by
  have hwf := hs.wf
  cases c with
  | read a buf =>
    obtain rfl := hc
    exact iff_of_true (read_handled hwf hepo buf) (by rintro ⟨⟨⟩, -⟩)
  | write a buf =>
    obtain rfl := hc
    exact iff_of_true (write_handled hwf hepo hepi buf) (by rintro ⟨⟨⟩, -⟩)
  | setStalled a stalled =>
    obtain rfl := hc
    exact iff_of_true (setStalled_handled hwf stalled) (by rintro ⟨⟨⟩, -⟩)
  | isStalled a =>
    obtain rfl := hc
    rw [isStalled_handled_iff hwf]
    constructor
    · rintro hsome ⟨-, hnone⟩
      rw [hnone] at hsome
      simp at hsome
    · intro hnot
      by_contra hnone
      exact hnot ⟨rfl, by simpa using hnone⟩
  | poll | reset | configure | setDeviceAddress | enable | enableZlt | setInterrupts =>
    exact hc.elim

end Handled

/-- A stall request for an address far beyond the endpoints. -/
theorem address_handled_device : (Call.setStalled ⟨0x7F⟩ true).Handled ⟨0x7F⟩ device :=
  (address_handled_iff (c := .setStalled ⟨0x7F⟩ true) device_booted.reachable device_ep0Out
    device_ep0In rfl).mpr (by rintro ⟨⟨⟩, -⟩)

/-- Asking whether an endpoint that was not allocated is stalled panics. -/
theorem address_not_handled : ¬ (Call.isStalled ⟨0x83⟩).Handled ⟨0x83⟩ device := by
  rw [isStalled_handled_iff device_booted.reachable.wf]
  decide +kernel

end ImxrtUsbd
