/-
  ImxrtUsbd.CachedDriver

  The driver on cached memory.  Polls and reads do there what they do on
  coherent memory, on the memory as the driver sees it (`simulates_poll`,
  `simulates_epRead`): cache maintenance of a descriptor or a queue head is
  given the address of the `self` reference, and cleans the stack.
-/
import ImxrtUsbd.CachedSystem
import ImxrtUsbd.Footprint
import ImxrtUsbd.SessionSpec

namespace ImxrtUsbd

open Lib
open EndpointAllocator (endpoint)

/-- The program has plain accesses only. -/
abbrev Plain {α : Type} (τ : Prop) (p : UsbM α) : Prop := p.Only (Access.Plain τ)

section Plain

variable {τ : Prop}

instance : Access.Looks (Access.Plain τ) := ⟨fun _ => trivial, fun _ => trivial, trivial⟩

theorem plain_uses (h : τ) (t : TdRef) : Uses (Access.Plain τ) t := ⟨fun _ => h, fun _ _ => h⟩

theorem plain_checkErrors (h : τ) (ep : Endpoint) : Plain τ ep.checkErrors :=
  only_checkErrors fun _ => h

theorem plain_read (h : τ) (ep : Endpoint) (buffer : List Byte) : Plain τ (ep.read buffer) :=
  only_read buffer (fun _ => h) (only_volatileRead (fun _ => trivial) ep.buffer)

theorem plain_clearComplete (ep : Endpoint) : Plain τ ep.clearComplete :=
  only_clearComplete fun _ => trivial

theorem plain_clearNack (ep : Endpoint) : Plain τ ep.clearNack := only_clearNack fun _ => trivial

theorem plain_poll : Plain τ Driver.poll :=
  only_poll ⟨fun _ => trivial, fun _ => trivial, fun _ => trivial⟩

end Plain

/-! ## Maintenance -/

/-- Rounding down to a line does not leave the line. -/
theorem div_and_line {a : Nat} (h : a < 2 ^ 32) : (a &&& 0xFFFFFFE0) / 32 = a / 32 := by
  have hand : (a &&& 0xFFFFFFE0) / 2 ^ 5 = a / 2 ^ 5 &&& 2 ^ 27 - 1 := Nat.and_div_two_pow
  have hmod : a / 2 ^ 5 &&& 2 ^ 27 - 1 = a / 2 ^ 5 % 2 ^ 27 := Nat.and_two_pow_sub_one_eq_mod _ 27
  omega

section Maintenance

variable {L : Layout} {α : Type}

theorem simulates_plain {p : UsbM α} (h : Plain True p) : (cacheView L).Simulates p :=
  .of_only (fun _ _ he => simulates_access he) h

/-- The driver does not miss a line without descriptors or endpoint memory. -/
theorem simulates_dccimvac {addr : Word} (h : L.cacheable (addr.toNat / 32) = false) :
    (cacheView L).Simulates (dccimvac addr) := by
  have hline : ∀ p, L.line p ≠ some (addr.toNat / 32) := by
    intro p hp
    rw [L.cacheable_of_line hp] at h
    simp at h
  refine Simulation.Simulates.access fun c hc => ⟨rfl, ?_, rfl, hc, rfl, fun l hl hv => ?_⟩
  · exact congrArg c.core.withMemory
      (Cache.view_cleanInvalidate fun p hp => absurd hp (hline p)).symm
  · have hne : l ≠ addr.toNat / 32 := by
      rintro rfl
      rw [h] at hl
      simp at hl
    exact (Function.update_of_ne hne _ _).trans hv

theorem simulates_addUsize {a b : Nat} {f : Nat → UsbM α}
    (h : a + b < 2 ^ 32 → (cacheView L).Simulates (f (a + b))) :
    (cacheView L).Simulates (addUsize a b >>= f) := by
  unfold addUsize Prog.require
  split
  · rename_i hlt
    exact h hlt
  · exact Simulation.Simulates.fail Fault.panic

theorem simulates_lines (n : Nat) : ∀ addr, addr < 2 ^ 32 →
    (∀ i, i < n → L.cacheable (addr / 32 + i) = false) →
      (cacheView L).Simulates (cleanInvalidateLines n addr) := by
  induction n with
  | zero => exact fun _ _ _ => .pure _
  | succ n ih =>
    intro addr hlt h
    refine .bind (simulates_dccimvac ?_) fun _ => simulates_addUsize fun hnext => ih _ hnext ?_
    · rw [BitVec.toNat_ofNat, Nat.mod_eq_of_lt hlt]
      exact h 0 (Nat.succ_pos n)
    · intro i hi
      have := h (i + 1) (by omega)
      rwa [show (addr + 32) / 32 + i = addr / 32 + (i + 1) by omega]

/-- The stack slot of `self` is what is maintained. -/
theorem simulates_self {n : Nat} (hn : n ≤ 64) :
    (cacheView L).Simulates (do cleanInvalidateDcacheByAddress (← addrOfSelf) n) := by
  intro k c hc
  have hself : (cacheView L).Simulates (cleanInvalidateDcacheByAddress c.core.stack n) := by
    unfold cleanInvalidateDcacheByAddress
    split
    · exact .pure _
    · have hlt : c.core.stack < 2 ^ 32 := hc.2
      have hround := div_and_line hlt
      have hle : c.core.stack &&& 0xFFFFFFE0 ≤ c.core.stack := Nat.and_le_left
      refine simulates_lines _ _ (by omega) fun i hi => ?_
      rw [hround]
      -- at most two lines
      have hi2 : i = 0 ∨ i = 1 := by omega
      obtain rfl | rfl := hi2
      · exact hc.1.1
      · exact hc.1.2
  rw [exec_bind, exec_bind, addrOfSelf, exec_access, exec_access]
  exact hself k c hc

theorem simulates_scheduleTransfer (ep : Endpoint) (size : Nat) :
    (cacheView L).Simulates (ep.scheduleTransfer size) := by
  refine .bind (simulates_plain (.access trivial)) fun _ =>
    .bind (simulates_plain (only_setBuffer (plain_uses trivial _) _ _)) fun _ =>
    .bind (simulates_plain (only_modifyTd (plain_uses trivial _) _ _ _)) fun _ =>
    .bind (simulates_plain (only_modifyTd (plain_uses trivial _) _ _ _)) fun _ =>
    .bind (simulates_self (by omega)) fun _ =>
    .bind (simulates_plain (.access trivial)) fun _ =>
    .bind (simulates_plain (.access trivial)) fun _ =>
    .bind (simulates_plain (only_modifyTd (plain_uses trivial _) _ _ _)) fun _ =>
    .bind (simulates_self (by omega)) fun _ =>
    .bind (simulates_plain (only_bit32 _)) fun _ => simulates_plain ?_
  dsimp only
  split <;> exact .bind (.access trivial) fun _ => only_waitZero _

theorem simulates_poll : (cacheView L).Simulates Driver.poll := simulates_plain plain_poll

/-- What `ep_read` does after the look at the descriptor. -/
theorem simulates_readUnlessPrimed (ep : Endpoint) (buffer : List Byte) :
    (cacheView L).Simulates (do
      let primed ← ep.isPrimed
      let epOut := (← getDriver).epOut
      let bit ← bit16 ep.address.index
      if primed || epOut &&& bit == 0 then
        return .error .WouldBlock
      else
        ep.clearComplete
        ep.clearNack
        let read ← ep.read buffer
        let maxPacketLen ← ep.maxPacketLen
        ep.scheduleTransfer maxPacketLen
        return (.ok read : Except UsbError (Nat × List Byte)) : UsbM _) := by
  refine .bind (simulates_plain (only_isPrimed ep)) fun primed =>
    .bind (simulates_plain (.access trivial)) fun d =>
    .bind (simulates_plain (only_bit16 _)) fun bit => ?_
  show (cacheView L).Simulates (if _ then _ else _)
  split
  · exact .pure _
  · exact .bind (simulates_plain (plain_clearComplete ep)) fun _ =>
      .bind (simulates_plain (plain_clearNack ep)) fun _ =>
      .bind (simulates_plain (plain_read trivial ep buffer)) fun _ =>
      .bind (simulates_plain (only_maxPacketLen ep)) fun _ =>
      .bind (simulates_scheduleTransfer ep _) fun _ => .pure _

theorem simulates_epRead (buffer : List Byte) (addr : EndpointAddress) :
    (cacheView L).Simulates (Driver.epRead buffer addr) := by
  refine .bind (simulates_plain (only_endpoint addr)) fun found =>
    .bind (simulates_plain (.getOr _ found)) fun ep =>
    .bind (simulates_plain (plain_checkErrors trivial ep)) fun errors => ?_
  cases errors with
  | error e => exact .pure _
  | ok _ => exact simulates_readUnlessPrimed ep buffer

end Maintenance

end ImxrtUsbd
