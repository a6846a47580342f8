/-
  ImxrtUsbd.BusyCalls

  Triples for driver code with the controller at work between any two of its
  accesses, whatever the ghost: what only looks keeps what events keep, and a
  lookup finds the endpoint in its place.
-/
import ImxrtUsbd.Lib.Rely
import ImxrtUsbd.BusySystem
import ImxrtUsbd.Footprint

namespace ImxrtUsbd

open Lib
open EndpointAllocator (endpoint)

/-- Driver code among the events of the controller, with a ghost. -/
def watching {G : Type} (ghost : G → Moment HwEvent Seen → G) :
    World Access Sys Seen HwEvent G :=
  ⟨usb.showing see, HwEvent.occur, ghost⟩

/-- The access changes nothing, and nothing is shown of it. -/
def Access.Looking : (β : Type) → Access β → Prop
  | _, .readReg _ | _, .loadTd _ _ | _, .loadCapabilities _ | _, .loadByte _ | _, .addrOfSelf
  | _, .getDriver => True
  | _, .writeReg _ _ | _, .storeTd _ _ _ | _, .storeCapabilities _ _ | _, .loadSetup _ _
  | _, .storeByte _ _ | _, .dccimvac _ | _, .setDriver _ => False

instance : Access.Looks Access.Looking := ⟨fun _ => trivial, fun _ => trivial, trivial⟩

/-- Every endpoint sits at its place. -/
def EndpointAllocator.InPlace (A : EndpointAllocator) : Prop :=
  ∀ e ep, A.epList e.slot = some ep → ep.At e

section Lookups

variable {G α : Type} {ghost : G → Moment HwEvent Seen → G} {P : G → Sys → Prop}
  {A : EndpointAllocator} {ep : Endpoint} {e : EpId}

/-- Code that only looks keeps what events keep. -/
theorem looking_triple {p : UsbM α} (hP : (watching ghost).Stable P)
    (hp : p.Only Access.Looking) : (watching ghost).Triple P p fun _ => P := by
  refine .only hP (fun β a g s ha h => ?_) hp
  cases a with
  | readReg | loadTd | loadCapabilities | loadByte | addrOfSelf | getDriver => exact h
  | writeReg | storeTd | storeCapabilities | loadSetup | storeByte | dccimvac | setDriver =>
    exact ha.elim

theorem bit32_triple (i : Nat) :
    (watching ghost).Triple P (bit32 i) fun v g s => v = 1#32 <<< i ∧ P g s :=
  .bind (.require _ _) fun _ => .ret fun _ _ h => ⟨rfl, h.2⟩

/-- A lookup finds what the allocator has. -/
theorem endpoint_triple (hP : (watching ghost).Stable P)
    (hA : ∀ g s, P g s → s.driver.epAllocator = A) (addr : EndpointAddress) :
    (watching ghost).Triple P (endpoint addr) fun found g s =>
      (∀ ep, found = some ep → ∃ e : EpId, addr = e.address ∧ A.epList e.slot = some ep) ∧
        P g s := by
  have hcheck : (watching ghost).Triple P (EndpointAllocator.checkAllocated (index addr))
      fun found g s => (found = some () → index addr < 16) ∧ P g s := by
    refine .bind (R := fun _ => P) (looking_triple hP (.access trivial)) fun dr => ?_
    show (watching ghost).Triple P (if _ then _ else _) _
    split
    · rename_i hlt
      have h16 : index addr < 16 := lt_of_lt_of_le hlt dr.epAllocator.len_le
      exact (looking_triple hP (.bind (only_bit16 _) fun _ => .pure _)).weaken (fun _ _ h => h)
        fun _ _ _ h => ⟨fun _ => h16, h⟩
    · exact .pure fun g s h => ⟨by rintro ⟨⟩, h⟩
  refine .bind hcheck fun found => ?_
  cases found with
  | none => exact .pure fun g s h => ⟨by rintro _ ⟨⟩, h.2⟩
  | some _ =>
    refine .assume fun hlt => ?_
    obtain ⟨e, rfl⟩ := EpId.exists_of_index_lt (hlt rfl)
    refine .bind (R := fun (dr : Driver) g s => dr.epAllocator = A ∧ P g s)
      (.access hP fun g s h => ⟨hA g s h, h⟩) fun dr => .assume fun hdr => ?_
    refine .bind (R := fun ep g s => A.epList e.slot = some ep ∧ P g s)
      (.getOr _ fun ep g s hep h => ⟨?_, h⟩) fun ep => ?_
    · rwa [EpId.index_address, hdr] at hep
    · exact .pure fun g s h => ⟨fun ep' hep => ⟨e, rfl, by rw [← Option.some.inj hep, h.1]⟩, h.2⟩

/-- What follows the lookup of an endpoint. -/
theorem lookup_triple {f : Endpoint → UsbM α} {Q : α → G → Sys → Prop}
    {addr : EndpointAddress} (hP : (watching ghost).Stable P)
    (hA : ∀ g s, P g s → s.driver.epAllocator = A) (hin : A.InPlace)
    (hf : ∀ ep e, addr = e.address → ep.At e → (watching ghost).Triple P (f ep) Q) :
    (watching ghost).Triple P (endpoint addr >>= fun found => unwrap found >>= f) Q := by
  refine .bind (endpoint_triple hP hA addr) fun found => .assume fun hfound => ?_
  refine .bind (R := fun ep g s => found = some ep ∧ P g s)
    (.getOr _ fun ep g s hep h => ⟨hep, h⟩) fun ep => .assume fun hep => ?_
  obtain ⟨e, haddr, hcell⟩ := hfound ep hep
  exact hf ep e haddr (hin e ep hcell)

theorem readReg_triple (hP : (watching ghost).Stable P) (r : Reg) :
    (watching ghost).Triple P (readReg r) fun v g s => v = s.reg r ∧ P g s :=
  .access hP fun _ _ h => ⟨rfl, h⟩

theorem isPrimed_triple (hP : (watching ghost).Stable P) (hat : ep.At e) :
    (watching ghost).Triple P ep.isPrimed fun b g s => b = s.primed e ∧ P g s := by
  obtain ⟨dir, m⟩ := e
  have hm := m.isLt
  -- one half of the register, whichever the direction names
  have hread : ∀ f : Field, m.val < f.width → f.offset + f.width ≤ 32 →
      (watching ghost).Triple P (do
      let primed ← readField .ENDPTSTAT f
      let bit ← bit32 m.val
      return primed &&& bit != 0)
      fun b g s => b = (s.reg .ENDPTSTAT).getLsbD (f.offset + m.val) ∧ P g s := by
    intro f hf hw
    refine .bind (.bind (readReg_triple hP .ENDPTSTAT) fun v =>
      .pure (Q := fun x g s => x = f.get (s.reg .ENDPTSTAT) ∧ P g s)
        fun g s h => ⟨by rw [h.1], h.2⟩) fun x => .bind (bit32_triple _) fun bit => ?_
    refine .assume fun hbit => .pure fun g s h => ⟨?_, h.2⟩
    rw [hbit, h.1, Field.get_and_bit_ne_zero f _ hf hw]
  rw [Endpoint.isPrimed, hat.address, EpId.address_direction, EpId.address_index]
  cases dir with
  | Out =>
    refine (hread rxHalf hm (by decide)).weaken (fun _ _ h => h) fun b g s h => ⟨?_, h.2⟩
    rw [h.1, Sys.primed]
    exact congrArg _ (Nat.add_comm 0 m.val)
  | In =>
    refine (hread txHalf hm (by decide)).weaken (fun _ _ h => h) fun b g s h => ⟨?_, h.2⟩
    rw [h.1, Sys.primed]
    exact congrArg _ (Nat.add_comm 16 m.val)

end Lookups

end ImxrtUsbd
