/-
  ImxrtUsbd.EndpointAllocation

  The endpoint allocator, over any sequence of calls.

  What was allocated is read off the history of the calls (`created`).  The
  mask and the lists are one representation of this finite map (`AllocInv`):
  lookups answer from it, and never read a cell that is not initialised; the
  iterators go through it by ascending number, OUT before IN
  (`endpoint_allocator_sound`).
-/
import ImxrtUsbd.Lib.Replay
import ImxrtUsbd.Replay

namespace ImxrtUsbd

open Lib
open EndpointAllocator (endpoint allocateEndpoint endpointsIterMut forNonzeroEndpoints)

/-! ## Calls -/

inductive AllocCall where
  | allocator
  | allocateEndpoint (addr : EndpointAddress) (buffer : Buffer) (kind : EndpointType)
  deriving DecidableEq

inductive AllocRet where
  | allocator (allocator : Option EndpointAllocator)
  | allocateEndpoint (ep : Option Endpoint)

/-- `EndpointState::allocator`, on the state in memory. -/
def takeAllocator : UsbM (Option EndpointAllocator) := do
  let d ← getDriver
  setDriver { d with epAllocator := d.epAllocator.allocator.2 }
  return d.epAllocator.allocator.1

def AllocCall.prog : AllocCall → UsbM AllocRet
  | .allocator => do
    return .allocator (← takeAllocator)
  | .allocateEndpoint addr buffer kind => do
    return .allocateEndpoint (← EndpointAllocator.allocateEndpoint addr buffer kind)

/-- A call and what it returned. -/
inductive AllocStep (s : Sys) : AllocCall × AllocRet → Sys → Prop where
  | call {c : AllocCall} {r : AllocRet} {s' : Sys} :
      run c.prog s = ⟨.ok r, s', []⟩ → AllocStep s (c, r) s'

/-! ## Iterators -/

/-- The endpoints found at the addresses, in order. -/
def yieldEndpoints : List EndpointAddress → UsbM (List Endpoint)
  | [] => return []
  | addr :: addrs => do
    let found ← endpoint addr
    let eps ← yieldEndpoints addrs
    return found.toList ++ eps

/-- What `endpoints_iter_mut` yields. -/
def endpointsYielded : UsbM (List Endpoint) := yieldEndpoints endpointsIterMut

/-- What `nonzero_endpoints_iter_mut` yields. -/
def nonzeroEndpointsYielded : UsbM (List Endpoint) := do
  return (← endpointsYielded).filter fun ep => ep.address.index != 0

/-! ## What was allocated -/

/-- The endpoint that a call created at the address. -/
def createdBy (a : EndpointAddress) : AllocCall × AllocRet → Option Endpoint
  | (.allocateEndpoint addr buffer kind, .allocateEndpoint (some _)) =>
    if addr = a then some ⟨addr, index addr, index addr, buffer, kind⟩ else none
  | _ => none

/-- The endpoint allocated at the address so far. -/
def created (tr : Hist Sys (AllocCall × AllocRet)) (a : EndpointAddress) : Option Endpoint :=
  tr.findSome? fun x => createdBy a x.2

/-- The call took the allocator. -/
def takes : AllocCall × AllocRet → Bool
  | (_, .allocator (some _)) => true
  | _ => false

/-- How often the allocator was taken. -/
def taken (tr : Hist Sys (AllocCall × AllocRet)) : Nat := tr.countP fun x => takes x.2

/-- The mask and the lists represent what was allocated. -/
structure AllocInv (COUNT : Nat) (tr : Hist Sys (AllocCall × AllocRet)) (s : Sys) : Prop where
  count : s.driver.epAllocator.COUNT = COUNT
  indexed : s.Indexed
  lookup : ∀ a, s.lookup a = created tr a
  /-- Bit 31 is the allocator's own. -/
  flag : s.driver.epAllocator.allocMask.getLsbD 31 = decide (0 < taken tr)
  once : taken tr ≤ 1

section Created

variable {tr : Hist Sys (AllocCall × AllocRet)} {s : Sys} {l : AllocCall × AllocRet}
  {a : EndpointAddress} {ep : Endpoint}

theorem created_snoc (a : EndpointAddress) :
    created (tr ++ [(s, l)]) a = (created tr a).or (createdBy a l) := by
  rw [created, List.findSome?_append]
  cases h : createdBy a l <;> simp [created, h]

theorem taken_snoc : taken (tr ++ [(s, l)]) = taken tr + if takes l then 1 else 0 := by
  rw [taken, List.countP_append, List.countP_singleton]
  rfl

/-- An endpoint is found under its own address. -/
theorem created_address (h : created tr a = some ep) : ep.address = a := by
  obtain ⟨x, -, hx⟩ := List.exists_of_findSome?_eq_some h
  unfold createdBy at hx
  split at hx
  · split at hx
    · rename_i haddr
      rw [← Option.some.inj hx]
      exact haddr
    · simp at hx
  · simp at hx

end Created

/-! ## One call -/

section Calls

variable {s : Sys}

/-- The flag is set whoever calls; the first caller gets the allocator. -/
theorem run_takeAllocator (s : Sys) :
    run takeAllocator s =
      ⟨.ok s.driver.epAllocator.allocator.1,
        { s with driver := { s.driver with epAllocator := s.driver.epAllocator.allocator.2 } },
        []⟩ := rfl

theorem flag_eq_zero (m : Word) : (m &&& EndpointState.ALLOCATOR_TAKEN == 0) = !m.getLsbD 31 := by
  have h31 : 31 < 32 := by omega
  have h : (m &&& EndpointState.ALLOCATOR_TAKEN != 0) = m.getLsbD 31 := Field.and_bit_ne_zero m h31
  rw [← h, bne, Bool.not_not]

theorem getLsbD_flag (m : Word) {i : Nat} (hi : i < 32) :
    (m ||| EndpointState.ALLOCATOR_TAKEN).getLsbD i = (m.getLsbD i || decide (i = 31)) := by
  rw [BitVec.getLsbD_or]
  show (_ || (1#32 <<< 31).getLsbD i) = _
  rw [Field.getLsbD_bit, decide_eq_true hi, Bool.true_and]

/-- What a call for an endpoint returns, and what it leaves. -/
theorem run_allocate_cases (h : s.Indexed) (addr : EndpointAddress) (buffer : Buffer)
    (kind : EndpointType) :
    (¬ (s.HasStorage addr ∧ s.lookup addr = none) ∧
      run (allocateEndpoint addr buffer kind) s = ⟨.ok none, s, []⟩) ∨
    ∃ e : EpId, addr = e.address ∧ s.HasStorage addr ∧ s.lookup addr = none ∧
      run (allocateEndpoint addr buffer kind) s =
        ⟨.ok (some (e.endpoint buffer kind)), s.adopt e (e.endpoint buffer kind), []⟩ := by
  by_cases hs : s.HasStorage addr
  · have hlt : index addr < 16 := Nat.lt_of_lt_of_le hs s.driver.epAllocator.len_le
    obtain ⟨e, rfl⟩ := EpId.exists_of_index_lt hlt
    cases hep : s.ep e with
    | none =>
      have hnone : s.lookup e.address = none := (s.lookup_address e).trans hep
      exact Or.inr ⟨e, rfl, hs, hnone, run_allocateEndpoint h hs hep buffer kind⟩
    | some ep =>
      have hsome : (s.lookup e.address).isSome = true := by rw [s.lookup_address, hep]; rfl
      refine Or.inl ⟨fun hno => ?_, run_allocateEndpoint_none h hsome buffer kind⟩
      rw [hno.2] at hsome
      simp at hsome
  · exact Or.inl ⟨fun hno => hs hno.1, run_allocateEndpoint_full hs buffer kind⟩

theorem lookup_adopt (s : Sys) (e : EpId) (ep : Endpoint) (a : EndpointAddress) :
    (s.adopt e ep).lookup a = if a = e.address then some ep else s.lookup a := by
  cases ha : a.epId? with
  | none =>
    have hne : a ≠ e.address := by
      rintro rfl
      rw [EpId.epId?_address] at ha
      simp at ha
    rw [if_neg hne, Sys.lookup, Sys.lookup, ha]
    rfl
  | some f =>
    obtain rfl := EndpointAddress.epId?_eq_some.mp ha
    rw [Sys.lookup_address, Sys.lookup_address, ep_adopt]
    simp only [EpId.address_inj]

theorem indexed_adopt (h : s.Indexed) {e : EpId} (hs : s.HasStorage e.address) (ep : Endpoint) :
    (s.adopt e ep).Indexed where
  mask := fun f => by
    rw [mask_adopt, ep_adopt, h.mask]
    by_cases hf : f = e <;> simp [hf]
  slot_lt := fun f fp hfp => by
    rw [ep_adopt] at hfp
    have hslot : e.slot < s.driver.epAllocator.len := e.index_address ▸ hs
    split at hfp
    · rename_i hf
      rwa [hf]
    · exact h.slot_lt f fp hfp

end Calls

/-! ## Any number of calls -/

section Runs

variable {COUNT : Nat} {s s' : Sys} {tr : Hist Sys (AllocCall × AllocRet)}
  {l : AllocCall × AllocRet}

/-- A fresh state has nothing in it. -/
theorem AllocInv.new {qhList tdList : Nat}
    (h : s.driver.epAllocator = EndpointState.new COUNT qhList tdList) : AllocInv COUNT [] s := by
  have hep : ∀ e, s.ep e = none := by
    intro e
    show s.driver.epAllocator.epList e.slot = none
    rw [h]
    rfl
  have hmask : ∀ i, s.driver.epAllocator.allocMask.getLsbD i = false := by
    intro i
    rw [h]
    exact BitVec.getLsbD_zero
  refine ⟨by rw [h]; rfl, ⟨fun e => ?_, fun e ep he => ?_⟩, fun a => ?_, hmask 31, Nat.zero_le 1⟩
  · rw [hmask, hep]
    rfl
  · rw [hep] at he
    simp at he
  · show a.epId?.bind s.ep = none
    cases a.epId? with
    | none => rfl
    | some e => exact hep e

/-- The first call takes the allocator, and no cell changes. -/
theorem AllocInv.allocator_step {r : AllocRet} {o : List Obs} (h : AllocInv COUNT tr s)
    (hrun : run AllocCall.allocator.prog s = ⟨.ok r, s', o⟩) :
    AllocInv COUNT (tr ++ [(s, (.allocator, r))]) s' := by
  rw [AllocCall.prog, run_bind, run_takeAllocator, Out.andThen_ok, run_pure] at hrun
  obtain ⟨hr, rfl, -⟩ := Out.mk.inj hrun
  obtain rfl := Res.ok.inj hr
  have hnone : ∀ a o, createdBy a (.allocator, .allocator o) = none := fun a o => rfl
  -- whether this call takes the allocator
  have htakes : takes (.allocator, .allocator s.driver.epAllocator.allocator.1) =
      !s.driver.epAllocator.allocMask.getLsbD 31 := by
    rw [EndpointState.allocator, flag_eq_zero]
    cases s.driver.epAllocator.allocMask.getLsbD 31 <;> rfl
  have honce := h.once
  refine ⟨h.count, ⟨fun e => ?_, h.indexed.slot_lt⟩, fun a => ?_, ?_, ?_⟩
  · have hlt := e.slot_lt
    have hne : e.slot ≠ 31 := by omega
    show (s.driver.epAllocator.allocMask ||| EndpointState.ALLOCATOR_TAKEN).getLsbD _ = _
    rw [getLsbD_flag _ (by omega), decide_eq_false hne, Bool.or_false]
    exact h.indexed.mask e
  · rw [created_snoc, hnone, Option.or_none, ← h.lookup]
    rfl
  · show (s.driver.epAllocator.allocMask ||| EndpointState.ALLOCATOR_TAKEN).getLsbD 31 = _
    rw [getLsbD_flag _ (by omega), taken_snoc, htakes, h.flag]
    by_cases h0 : 0 < taken tr <;> simp [h0]
  · rw [taken_snoc, htakes, h.flag]
    by_cases h0 : 0 < taken tr
    · simp [h0, honce]
    · have hzero : taken tr = 0 := by omega
      simp [hzero]

/-- A free cell is filled, or nothing happens. -/
theorem AllocInv.allocateEndpoint_step {addr : EndpointAddress} {buffer : Buffer}
    {kind : EndpointType} {r : AllocRet} {o : List Obs} (h : AllocInv COUNT tr s)
    (hrun : run (AllocCall.allocateEndpoint addr buffer kind).prog s = ⟨.ok r, s', o⟩) :
    AllocInv COUNT (tr ++ [(s, (.allocateEndpoint addr buffer kind, r))]) s' := by
  have hnever : ∀ r, takes (.allocateEndpoint addr buffer kind, .allocateEndpoint r) = false :=
    fun r => rfl
  rw [AllocCall.prog, run_bind] at hrun
  obtain ⟨-, hnone⟩ | ⟨e, rfl, hs, hfree, hsome⟩ :=
    run_allocate_cases h.indexed addr buffer kind
  · rw [hnone, Out.andThen_ok, run_pure] at hrun
    obtain ⟨hr, rfl, -⟩ := Out.mk.inj hrun
    obtain rfl := Res.ok.inj hr
    refine ⟨h.count, h.indexed, fun a => ?_, ?_, ?_⟩
    · rw [created_snoc, h.lookup]
      exact (Option.or_none).symm
    · rw [taken_snoc, hnever, h.flag]
      rfl
    · rw [taken_snoc, hnever]
      exact h.once
  · rw [hsome, Out.andThen_ok, run_pure] at hrun
    obtain ⟨hr, rfl, -⟩ := Out.mk.inj hrun
    obtain rfl := Res.ok.inj hr
    refine ⟨h.count, indexed_adopt h.indexed hs _, fun a => ?_, ?_, ?_⟩
    · rw [created_snoc, lookup_adopt]
      show _ = (created tr a).or (if e.address = a then some _ else none)
      by_cases ha : a = e.address
      · -- the cell was free, so nothing had been created at its address
        subst ha
        rw [if_pos rfl, if_pos rfl, ← h.lookup, hfree, EpId.index_address]
        rfl
      · rw [if_neg ha, if_neg (Ne.symm ha), Option.or_none, h.lookup]
    · -- the flag is bit 31, beside the bits of the cells
      rw [taken_snoc, hnever]
      show (_ ||| (1#16 <<< e.slot).setWidth 32).getLsbD 31 = _
      rw [BitVec.getLsbD_or, BitVec.getLsbD_setWidth, Field.getLsbD_bit, h.flag]
      simp
    · rw [taken_snoc, hnever]
      exact h.once

/-- One more call. -/
theorem AllocInv.step (h : AllocInv COUNT tr s) (hstep : AllocStep s l s') :
    AllocInv COUNT (tr ++ [(s, l)]) s' := by
  cases hstep with
  | @call c r _ hrun =>
    cases c with
    | allocator => exact h.allocator_step hrun
    | allocateEndpoint addr buffer kind => exact h.allocateEndpoint_step hrun

theorem AllocInv.of_run {s₀ : Sys} (h : AllocInv COUNT [] s₀) (hrun : Run AllocStep s₀ tr s) :
    AllocInv COUNT tr s := by
  induction hrun with
  | nil => exact h
  | snoc _ hstep ih => exact ih.step hstep

end Runs

/-! ## Iterating -/

/-- The endpoints an iterator over these addresses should yield. -/
def Sys.endpointsAt (s : Sys) (addrs : List EndpointAddress) : List Endpoint :=
  addrs.filterMap s.lookup

/-- By ascending number, OUT before IN. -/
def Endpoint.Precedes (ep fp : Endpoint) : Prop :=
  ep.address.index < fp.address.index ∨
    (ep.address.index = fp.address.index ∧ ep.address.direction = .Out ∧
      fp.address.direction = .In)

section Iterate

variable {s : Sys}

theorem run_yieldEndpoints (h : s.Indexed) (addrs : List EndpointAddress) :
    run (yieldEndpoints addrs) s = ⟨.ok (s.endpointsAt addrs), s, []⟩ := by
  induction addrs with
  | nil => rfl
  | cons addr addrs ih =>
    rw [yieldEndpoints, run_bind, h.run_endpoint, Out.andThen_ok, run_bind, ih, Out.andThen_ok,
      run_pure]
    show _ = Out.mk (.ok ((addr :: addrs).filterMap s.lookup)) s []
    rw [List.filterMap_cons]
    cases s.lookup addr <;> rfl

/-- Being indexed is a matter of the allocator alone. -/
theorem Sys.Indexed.of_eq {t : Sys} (h : s.Indexed)
    (ht : t.driver.epAllocator = s.driver.epAllocator) : t.Indexed ∧ t.lookup = s.lookup := by
  have hep : t.ep = s.ep := by
    funext e
    show t.driver.epAllocator.epList e.slot = s.driver.epAllocator.epList e.slot
    rw [ht]
  refine ⟨⟨fun e => ?_, fun e ep he => ?_⟩, ?_⟩
  · rw [ht, hep]
    exact h.mask e
  · rw [ht]
    exact h.slot_lt e ep (hep ▸ he)
  · funext a
    show a.epId?.bind t.ep = a.epId?.bind s.ep
    rw [hep]

/-- The driver's loops go through what the iterator yields, as long as nothing is
    allocated on the way. -/
theorem run_forNonzeroEndpoints_yielded {body : Endpoint → UsbM Unit} (h : s.Indexed)
    (hbody : ∀ ep s, (run (body ep) s).post.driver.epAllocator = s.driver.epAllocator) :
    run (forNonzeroEndpoints body) s =
      run (do Prog.each body (← nonzeroEndpointsYielded)) s := by
  -- an address without an endpoint is skipped, and so is number 0
  have hloop : ∀ k : Option Endpoint → UsbM Unit, k none = pure () →
      (∀ ep, k (some ep) = if ep.address.index ≠ 0 then body ep else pure ()) →
      ∀ (addrs : List EndpointAddress) (t : Sys),
      t.driver.epAllocator = s.driver.epAllocator →
      run (Prog.each (fun addr => endpoint addr >>= k) addrs) t =
        run (Prog.each body
          ((addrs.filterMap s.lookup).filter fun ep => ep.address.index != 0)) t := by
    intro k hnone hsome addrs
    induction addrs with
    | nil => exact fun t _ => rfl
    | cons addr addrs ih =>
      intro t ht
      obtain ⟨hidx, hlook⟩ := h.of_eq ht
      rw [Prog.each, run_bind, run_bind, hidx.run_endpoint, Out.andThen_ok, hlook]
      cases hfound : s.lookup addr with
      | none =>
        rw [List.filterMap_cons_none hfound, hnone]
        exact ih t ht
      | some ep =>
        rw [List.filterMap_cons_some hfound, hsome]
        by_cases h0 : ep.address.index = 0
        · simpa [h0] using ih t ht
        · have hkeep := hbody ep t
          have hne : (ep.address.index != 0) = true := by simpa using h0
          have hkept : ∀ eps : List Endpoint,
              (ep :: eps).filter (fun ep => ep.address.index != 0) =
                ep :: eps.filter fun ep => ep.address.index != 0 :=
            fun eps => List.filter_cons_of_pos hne
          rw [if_pos h0, hkept, Prog.each, run_bind]
          cases hb : run (body ep) t with
          | mk res post obs =>
            rw [hb] at hkeep
            cases res with
            | ok u => rw [Out.andThen_ok_obs, Out.andThen_ok_obs, ih post (hkeep.trans ht)]
            | fail f => rfl
            | spin => rfl
  rw [run_bind, nonzeroEndpointsYielded, run_bind, endpointsYielded, run_yieldEndpoints h]
  exact hloop _ rfl (fun ep => rfl) endpointsIterMut s rfl

/-- All addresses that can be allocated, in order. -/
theorem mem_endpointsIterMut (e : EpId) : e.address ∈ endpointsIterMut := by
  obtain ⟨dir, n⟩ := e
  refine List.mem_flatMap.mpr ⟨n.val, List.mem_range.mpr n.isLt, ?_⟩
  cases dir <;> simp [EpId.address]

theorem endpointsIterMut_sorted : endpointsIterMut.Pairwise fun a b =>
    a.index < b.index ∨ (a.index = b.index ∧ a.direction = .Out ∧ b.direction = .In) := by
  decide

end Iterate

section Sound

variable {COUNT : Nat} {s s' : Sys} {tr : Hist Sys (AllocCall × AllocRet)}

theorem AllocInv.run_endpoint (h : AllocInv COUNT tr s) (a : EndpointAddress) :
    run (endpoint a) s = ⟨.ok (created tr a), s, []⟩ := by
  rw [h.indexed.run_endpoint, h.lookup]

theorem AllocInv.takeAllocator_spec (h : AllocInv COUNT tr s) :
    ∃ r s', run takeAllocator s = ⟨.ok r, s', []⟩ ∧ (r.isSome = true ↔ taken tr = 0) ∧
      (r = none → s' = s) ∧ ∀ a, run (endpoint a) s' = ⟨.ok (created tr a), s', []⟩ := by
  refine ⟨_, _, run_takeAllocator s, ?_, fun hnone => ?_, fun a => ?_⟩
  · rw [EndpointState.allocator, flag_eq_zero, h.flag]
    by_cases h0 : 0 < taken tr
    · simp [h0]
      omega
    · have hzero : taken tr = 0 := by omega
      simp [hzero]
  · -- the flag was set already, so setting it changes nothing
    have hflag : s.driver.epAllocator.allocMask.getLsbD 31 = true := by
      rw [EndpointState.allocator, flag_eq_zero] at hnone
      cases hbit : s.driver.epAllocator.allocMask.getLsbD 31 with
      | true => rfl
      | false =>
        rw [hbit] at hnone
        simp at hnone
    have hsame : s.driver.epAllocator.allocMask ||| EndpointState.ALLOCATOR_TAKEN =
        s.driver.epAllocator.allocMask := by
      apply BitVec.eq_of_getLsbD_eq
      intro i hi
      rw [getLsbD_flag _ hi]
      by_cases h31 : i = 31
      · rw [h31, hflag, Bool.true_or]
      · simp [h31]
    rw [EndpointState.allocator]
    dsimp only
    rw [hsame]
  · have hstep : AllocStep s (.allocator, .allocator s.driver.epAllocator.allocator.1) _ :=
      .call (by rw [AllocCall.prog, run_bind, run_takeAllocator, Out.andThen_ok, run_pure])
    -- taking the allocator creates nothing
    have hcreated : ∀ r, created (tr ++ [(s, (.allocator, r))]) a = created tr a := by
      intro r
      rw [created_snoc]
      exact Option.or_none
    rw [(h.step hstep).run_endpoint, hcreated]

theorem AllocInv.allocateEndpoint_spec (h : AllocInv COUNT tr s) (addr : EndpointAddress)
    (buffer : Buffer) (kind : EndpointType) :
    ∃ r s', run (allocateEndpoint addr buffer kind) s = ⟨.ok r, s', []⟩ ∧
      (r.isSome = true ↔ index addr < min COUNT 16 ∧ created tr addr = none) ∧
      (r = none → s' = s) ∧
      (∀ ep, r = some ep → ep = ⟨addr, index addr, index addr, buffer, kind⟩) ∧
      ∀ a, run (endpoint a) s' =
        ⟨.ok (if a = addr then (created tr a).or r else created tr a), s', []⟩ := by
  have hroom : s.HasStorage addr ↔ index addr < min COUNT 16 := by
    rw [Sys.HasStorage, EndpointAllocator.len, h.count]
    rfl
  rw [← hroom, ← h.lookup]
  obtain ⟨hno, hrun⟩ | ⟨e, rfl, hs, hfree, hrun⟩ := run_allocate_cases h.indexed addr buffer kind
  · refine ⟨none, s, hrun, by simpa using hno, fun _ => rfl, by simp, fun a => ?_⟩
    rw [h.run_endpoint, Option.or_none, ite_self]
  · refine ⟨_, _, hrun, iff_of_true rfl ⟨hs, hfree⟩, by simp, fun ep hep => ?_, fun a => ?_⟩
    · rw [← Option.some.inj hep, EpId.index_address]
      rfl
    · rw [(indexed_adopt h.indexed hs _).run_endpoint, lookup_adopt, h.lookup]
      by_cases ha : a = e.address
      · subst ha
        rw [if_pos rfl, if_pos rfl, ← h.lookup, hfree]
        rfl
      · rw [if_neg ha, if_neg ha]

theorem AllocInv.yielded_spec (h : AllocInv COUNT tr s) :
    run endpointsYielded s = ⟨.ok (s.endpointsAt endpointsIterMut), s, []⟩ ∧
      (s.endpointsAt endpointsIterMut).Pairwise Endpoint.Precedes ∧
      (∀ ep, ep ∈ s.endpointsAt endpointsIterMut ↔ ∃ a, created tr a = some ep) ∧
      run nonzeroEndpointsYielded s =
        ⟨.ok ((s.endpointsAt endpointsIterMut).filter fun ep => ep.address.index != 0), s, []⟩ := by
  have hyield := run_yieldEndpoints h.indexed endpointsIterMut
  have haddr : ∀ a ep, ep ∈ s.lookup a → ep.address = a := fun a ep hep =>
    created_address ((h.lookup a).symm.trans hep)
  refine ⟨hyield, ?_, fun ep => ?_, ?_⟩
  · refine endpointsIterMut_sorted.filterMap s.lookup fun a a' hlt ep hep fp hfp => ?_
    rw [Endpoint.Precedes, haddr a ep hep, haddr a' fp hfp]
    exact hlt
  · rw [Sys.endpointsAt, List.mem_filterMap]
    constructor
    · rintro ⟨a, -, ha⟩
      exact ⟨a, (h.lookup a).symm.trans ha⟩
    · rintro ⟨a, ha⟩
      have hlook := (h.lookup a).trans ha
      obtain ⟨e, rfl, -⟩ := Sys.lookup_eq_some hlook
      exact ⟨_, mem_endpointsIterMut e, hlook⟩
  · rw [nonzeroEndpointsYielded, run_bind, endpointsYielded, hyield, Out.andThen_ok, run_pure]

end Sound

/-- For every COUNT and every sequence of calls: the allocator was taken at most
    once; every call returns, an endpoint exactly if there is room for it and it
    was not allocated before, and a refusal changes nothing; lookups find
    exactly what was allocated, as it was allocated, also after one more call;
    and the iterators yield all of it once, in order. -/
theorem endpoint_allocator_sound {COUNT qhList tdList : Nat} {s₀ s : Sys}
    {tr : Hist Sys (AllocCall × AllocRet)}
    (h₀ : s₀.driver.epAllocator = EndpointState.new COUNT qhList tdList)
    (hrun : Run AllocStep s₀ tr s) :
    taken tr ≤ 1 ∧
    (∃ r s', run takeAllocator s = ⟨.ok r, s', []⟩ ∧ (r.isSome = true ↔ taken tr = 0) ∧
      (r = none → s' = s) ∧ ∀ a, run (endpoint a) s' = ⟨.ok (created tr a), s', []⟩) ∧
    (∀ addr buffer kind, ∃ r s',
      run (allocateEndpoint addr buffer kind) s = ⟨.ok r, s', []⟩ ∧
      (r.isSome = true ↔ index addr < min COUNT 16 ∧ created tr addr = none) ∧
      (r = none → s' = s) ∧
      (∀ ep, r = some ep → ep = ⟨addr, index addr, index addr, buffer, kind⟩) ∧
      ∀ a, run (endpoint a) s' =
        ⟨.ok (if a = addr then (created tr a).or r else created tr a), s', []⟩) ∧
    (∀ a, run (endpoint a) s = ⟨.ok (created tr a), s, []⟩) ∧
    (∀ a ep, created tr a = some ep → ep.address = a) ∧
    ∃ eps, run endpointsYielded s = ⟨.ok eps, s, []⟩ ∧ eps.Pairwise Endpoint.Precedes ∧
      (∀ ep, ep ∈ eps ↔ ∃ a, created tr a = some ep) ∧
      run nonzeroEndpointsYielded s =
        ⟨.ok (eps.filter fun ep => ep.address.index != 0), s, []⟩ := by
  have hinv := (AllocInv.new h₀).of_run hrun
  exact ⟨hinv.once, hinv.takeAllocator_spec, hinv.allocateEndpoint_spec, hinv.run_endpoint,
    fun a ep => created_address, _, hinv.yielded_spec⟩

/-- Memory with an `EndpointState<3>` in it, untouched. -/
def untouched : Sys :=
  { powerOn 3 512 with
    driver := { (powerOn 3 512).driver with
      epAllocator := EndpointState.new 3 0x20100000 0x20101000 } }

/-- Perform a call, if it returns. -/
def performAlloc (s : Sys) (c : AllocCall) : Option ((AllocCall × AllocRet) × Sys) :=
  match run c.prog s with
  | ⟨.ok r, s', []⟩ => some ((c, r), s')
  | _ => none

theorem performAlloc_sound (s : Sys) (c : AllocCall) (l : AllocCall × AllocRet) (s' : Sys)
    (h : performAlloc s c = some (l, s')) : AllocStep s l s' := by
  unfold performAlloc at h
  split at h
  · rename_i hrun
    obtain ⟨rfl, rfl⟩ := Prod.mk.inj (Option.some.inj h)
    exact .call hrun
  · simp at h

/-- Two endpoints; one of them once more, with another buffer; an address beyond
    the storage; and the allocator twice. -/
def smallCalls : List AllocCall :=
  [.allocator,
    .allocateEndpoint EpId.ep0In.address (deviceEndpoint .ep0In 1 .Control).buffer .Control,
    .allocateEndpoint EpId.ep0Out.address (deviceEndpoint .ep0Out 0 .Control).buffer .Control,
    .allocateEndpoint EpId.ep0In.address (deviceEndpoint bulkIn 3 .Bulk).buffer .Bulk,
    .allocateEndpoint bulkIn.address (deviceEndpoint bulkIn 3 .Bulk).buffer .Bulk,
    .allocator]

theorem endpoint_allocator_sound_small : ∃ tr s, Run AllocStep untouched tr s ∧
    tr.map (fun x => x.2.1) = smallCalls ∧ taken tr = 1 ∧
    (∃ s', run takeAllocator s = ⟨.ok none, s', []⟩) ∧
    run (endpoint EpId.ep0Out.address) s =
      ⟨.ok (some (deviceEndpoint .ep0Out 0 .Control)), s, []⟩ ∧
    run (endpoint EpId.ep0In.address) s =
      ⟨.ok (some (deviceEndpoint .ep0In 1 .Control)), s, []⟩ ∧
    run (endpoint bulkIn.address) s = ⟨.ok none, s, []⟩ ∧
    ∃ eps, run endpointsYielded s = ⟨.ok eps, s, []⟩ ∧ eps.Pairwise Endpoint.Precedes ∧
      deviceEndpoint .ep0Out 0 .Control ∈ eps ∧ deviceEndpoint .ep0In 1 .Control ∈ eps := by
  obtain ⟨tr, s, hrun, hcalls, htaken, hout, hin, hbulk⟩ := exists_performed performAlloc_sound
    (p := fun tr _ => tr.map (fun x => x.2.1) = smallCalls ∧ taken tr = 1 ∧
      created tr EpId.ep0Out.address = some (deviceEndpoint .ep0Out 0 .Control) ∧
      created tr EpId.ep0In.address = some (deviceEndpoint .ep0In 1 .Control) ∧
      created tr bulkIn.address = none)
    untouched smallCalls (by decide +kernel)
  obtain ⟨-, ⟨r, s', htake, hfirst, -, -⟩, -, hfind, -, eps, hyield, hsorted, hmem, -⟩ :=
    endpoint_allocator_sound rfl hrun
  refine ⟨tr, s, hrun, hcalls, htaken, ⟨s', ?_⟩, ?_, ?_, ?_, eps, hyield, hsorted, ?_, ?_⟩
  -- one call before this one took the allocator
  · have hnone : r = none := by
      rw [← Option.not_isSome_iff_eq_none, hfirst, htaken]
      omega
    rw [htake, hnone]
  · rw [hfind, hout]
  · rw [hfind, hin]
  · rw [hfind, hbulk]
  · exact (hmem _).mpr ⟨_, hout⟩
  · exact (hmem _).mpr ⟨_, hin⟩

end ImxrtUsbd
