/-
  ImxrtUsbd.SetupOnce

  How often a SETUP packet is returned, with the controller at work between any
  two accesses of any call.

  `ctrl0_read` clears the latch before it copies the packet.  A packet that
  arrives in between is copied, but stays flagged, and the next `ctrl0_read`
  returns it again (`setup_returned_twice`).  This is the only way for a packet
  to be returned twice, and none is returned three times (`setup_returned`).

  Packets are told apart by counting them.  Every packet overwrites the setup
  buffer, so what is loaded from it is the packet that arrived last; that a read
  returns the bytes of the packet it is counted for is `setup_returned_bytes`.
-/
import ImxrtUsbd.BusReset
import ImxrtUsbd.BusySystem
import ImxrtUsbd.Footprint

namespace ImxrtUsbd

open Lib

/-! ## Packets -/

/-- A SETUP packet arrives. -/
def setupArrives : Moment HwEvent Seen → Bool
  | .event (.setup _) => true
  | .event _ | .access _ => false

/-- The setup buffer is loaded. -/
def loadsSetup : Moment HwEvent Seen → Bool
  | .access (.loadedSetup _ _) => true
  | .access (.wrote _ _) | .event _ => false

/-- The latch is cleared. -/
def clearsLatch : Moment HwEvent Seen → Bool
  | .access (.wrote .ENDPTSETUPSTAT _) => true
  | .access _ | .event _ => false

/-- Neither happens. -/
def Away (ms : Moments) : Prop := ∀ m ∈ ms, loadsSetup m = false ∧ clearsLatch m = false

theorem Away.append {ms ms' : Moments} (h : Away ms) (h' : Away ms') : Away (ms ++ ms') :=
  fun m hm => (List.mem_append.mp hm).elim (h m) (h' m)

theorem away_events (es : List HwEvent) : Away (es.map .event) := by
  intro m hm
  obtain ⟨ev, -, rfl⟩ := List.mem_map.mp hm
  exact ⟨rfl, rfl⟩

/-- Follow the packets. -/
structure Delivery where
  /-- How many have arrived, so the number of the last one. -/
  arrived : Nat
  /-- The same, when this call cleared the latch. -/
  cleared : Option Nat
  /-- The packet that this call loaded last. -/
  loaded : Option Nat
  /-- The packets that were returned. -/
  returned : List Nat
  /-- Those of them that arrived after the call that returned them had cleared
      the latch. -/
  late : List Nat

namespace Delivery

def see (d : Delivery) (m : Moment HwEvent Seen) : Delivery :=
  if setupArrives m then { d with arrived := d.arrived + 1 }
  else if loadsSetup m then { d with loaded := some d.arrived }
  else if clearsLatch m then { d with cleared := d.cleared.or (some d.arrived) }
  else d

/-- A read that returns has returned the packet that it loaded. -/
def finish (d : Delivery) : Call → Ret → Delivery
  | .read _ _, .read (.ok _) =>
    match d.loaded with
    | some j =>
      { d with
        returned := j :: d.returned
        late := if d.cleared.any (· < j) then j :: d.late else d.late }
    | none => d
  | _, _ => d

def step (d : Delivery) : BusyLabel → Delivery
  | .step (.hw event) => d.see (.event event)
  | .step (.call _ _ _) => d
  | .busy c r ms => (ms.foldl see { d with cleared := none, loaded := none }).finish c r

end Delivery

/-- The packets so far. -/
def delivery (tr : BusyTrace) : Delivery :=
  tr.foldl (fun d x => d.step x.2) ⟨0, none, none, [], []⟩

theorem delivery_snoc (tr : BusyTrace) (s : Sys) (l : BusyLabel) :
    delivery (tr ++ [(s, l)]) = (delivery tr).step l := by
  rw [delivery, List.foldl_append]
  rfl

/-- The number of packets that arrive. -/
def arrivals (ms : Moments) : Nat := ms.countP setupArrives

section Packets

variable {d : Delivery} {ms : Moments}

theorem arrivals_append (ms ms' : Moments) : arrivals (ms ++ ms') = arrivals ms + arrivals ms' :=
  List.countP_append

theorem arrivals_cons (m : Moment HwEvent Seen) (ms : Moments) :
    arrivals (m :: ms) = arrivals ms + if setupArrives m then 1 else 0 := List.countP_cons

theorem Delivery.arrived_see_one (d : Delivery) (m : Moment HwEvent Seen) :
    (d.see m).arrived = d.arrived + if setupArrives m then 1 else 0 := by
  unfold see
  split_ifs <;> rfl

theorem Delivery.arrived_see (d : Delivery) (ms : Moments) :
    (ms.foldl see d).arrived = d.arrived + arrivals ms := by
  induction ms generalizing d with
  | nil => rfl
  | cons m ms ih =>
    rw [List.foldl_cons, ih, arrived_see_one, arrivals_cons]
    omega

/-- Only a read that returns adds to these. -/
theorem Delivery.returned_see (d : Delivery) (ms : Moments) :
    (ms.foldl see d).returned = d.returned ∧ (ms.foldl see d).late = d.late := by
  induction ms generalizing d with
  | nil => exact ⟨rfl, rfl⟩
  | cons m ms ih =>
    have hd : (d.see m).returned = d.returned ∧ (d.see m).late = d.late := by
      unfold see
      split_ifs <;> exact ⟨rfl, rfl⟩
    rw [List.foldl_cons]
    exact ⟨(ih _).1.trans hd.1, (ih _).2.trans hd.2⟩

theorem Delivery.see_of_away (h : Away ms) :
    (ms.foldl see d).loaded = d.loaded ∧ (ms.foldl see d).cleared = d.cleared := by
  induction ms generalizing d with
  | nil => exact ⟨rfl, rfl⟩
  | cons m ms ih =>
    obtain ⟨hm, hms⟩ := List.forall_mem_cons.mp h
    have hd : (d.see m).loaded = d.loaded ∧ (d.see m).cleared = d.cleared := by
      simp only [see, hm.1, hm.2, Bool.false_eq_true, if_false]
      split_ifs <;> exact ⟨rfl, rfl⟩
    rw [List.foldl_cons]
    exact ⟨(ih hms).1.trans hd.1, (ih hms).2.trans hd.2⟩

/-- The first clear of a call counts. -/
theorem Delivery.cleared_see {c : Nat} (h : d.cleared = some c) :
    (ms.foldl see d).cleared = some c := by
  induction ms generalizing d with
  | nil => exact h
  | cons m ms ih =>
    refine ih ?_
    unfold see
    split_ifs <;> simp [h]

/-- What is loaded last had arrived by then, and is the newest packet at that time. -/
theorem Delivery.loaded_see {j : Nat} (hj : (ms.foldl see d).loaded = some j) :
    d.loaded = some j ∨ d.arrived ≤ j ∧ j ≤ d.arrived + arrivals ms := by
  induction ms generalizing d with
  | nil => exact Or.inl hj
  | cons m ms ih =>
    rcases ih hj with hd | hd
    · -- it was loaded by now: before, or at this moment
      unfold see at hd
      split_ifs at hd
      · exact Or.inl hd
      · obtain rfl := Option.some.inj hd
        exact Or.inr ⟨le_rfl, Nat.le_add_right _ _⟩
      · exact Or.inl hd
      · exact Or.inl hd
    · rw [arrived_see_one] at hd
      rw [arrivals_cons]
      right
      omega

/-- A call that clears the latch, in the middle of what it shows. -/
theorem Delivery.see_clear {pre post : Moments} {m : Moment HwEvent Seen} (haway : Away pre)
    (hm : clearsLatch m = true) (hload : d.loaded = none) (hclear : d.cleared = none) :
    ((pre ++ m :: post).foldl see d).cleared = some (d.arrived + arrivals pre) ∧
      ((pre ++ m :: post).foldl see d).arrived = d.arrived + arrivals pre + arrivals post ∧
      ∀ j, ((pre ++ m :: post).foldl see d).loaded = some j →
        d.arrived + arrivals pre ≤ j ∧ j ≤ d.arrived + arrivals pre + arrivals post := by
  have hother : setupArrives m = false ∧ loadsSetup m = false := by
    cases m with
    | event ev => simp [clearsLatch] at hm
    | access o =>
      cases o with
      | wrote r v => exact ⟨rfl, rfl⟩
      | loadedSetup high v => simp [clearsLatch] at hm
  have hpre := see_of_away (d := d) haway
  have harr := arrived_see d pre
  rw [List.foldl_append, List.foldl_cons]
  generalize pre.foldl see d = d₁ at hpre harr ⊢
  have hsee : d₁.see m = { d₁ with cleared := some d₁.arrived } := by
    simp [see, hother, hm, hpre.2, hclear]
  rw [hsee, ← harr]
  refine ⟨cleared_see rfl, arrived_see _ _, fun j hj => ?_⟩
  refine (loaded_see hj).resolve_left ?_
  show d₁.loaded ≠ some j
  rw [hpre.1, hload]
  simp

theorem Delivery.finish_none (h : d.loaded = none) (addr : EndpointAddress) (buf : List Byte)
    (x : Nat × List Byte) : d.finish (.read addr buf) (.read (.ok x)) = d := by
  rw [finish, h]

theorem Delivery.finish_some {j c : Nat} (h : d.loaded = some j) (hc : d.cleared = some c)
    (addr : EndpointAddress) (buf : List Byte) (x : Nat × List Byte) :
    d.finish (.read addr buf) (.read (.ok x)) =
      { d with
        returned := j :: d.returned
        late := if c < j then j :: d.late else d.late } := by
  simp [finish, h, hc]

end Packets

/-! ## The latch -/

/-- Latch bits only fall, but for the bit of the control endpoint, which a
    packet sets. -/
def LatchFalls (s : Sys) (ms : Moments) (s' : Sys) : Prop :=
  ∀ j, (s'.reg .ENDPTSETUPSTAT).getLsbD j = true →
    (s.reg .ENDPTSETUPSTAT).getLsbD j = true ∨ j = 0 ∧ 0 < arrivals ms

theorem latchFalls_composes : Composes LatchFalls where
  refl := fun _ _ h => Or.inl h
  trans := by
    intro s s' s'' o o' h h' j hj
    rw [arrivals_append]
    rcases h' j hj with hj | ⟨h0, hpos⟩
    · rcases h j hj with hj | ⟨h0, hpos⟩
      · exact Or.inl hj
      · exact Or.inr ⟨h0, by omega⟩
    · exact Or.inr ⟨h0, by omega⟩

theorem latchFalls_occur (ev : HwEvent) (s s' : Sys) (h : ev.occur s = some s') :
    LatchFalls s [.event ev] s' := by
  obtain ⟨-, rfl⟩ := HwEvent.occur_eq_some h
  intro j hj
  cases ev with
  | setup packet =>
    have hreg : ((HwEvent.setup packet).apply s).reg .ENDPTSETUPSTAT =
        s.reg .ENDPTSETUPSTAT ||| 1 := rfl
    rw [hreg, BitVec.getLsbD_or, Bool.or_eq_true] at hj
    rcases hj with hj | hj
    · exact Or.inl hj
    · have hone : (1#32).getLsbD j = true := hj
      rw [BitVec.getLsbD_one] at hone
      exact Or.inr ⟨by simpa using hone, Nat.one_pos⟩
  | outDone | inDone | error | nak | resetBegin | resetEnd => exact Or.inl hj

/-- No access raises a latch bit. -/
theorem latch_usbAct {β : Type} (a : Access β) (s : Sys) {j : Nat}
    (hj : ((usbAct a s).2.1.reg .ENDPTSETUPSTAT).getLsbD j = true) :
    (s.reg .ENDPTSETUPSTAT).getLsbD j = true := by
  cases a with
  | writeReg r v =>
    have hj' : ((s.writeReg r v).reg .ENDPTSETUPSTAT).getLsbD j = true := hj
    cases r with
    | ENDPTSETUPSTAT =>
      rw [Sys.writeReg_w1c _ _ (by simp), Sys.getLsbD_lower _ _ _ (v.getLsbD j = true)
        fun _ => Iff.rfl, Bool.and_eq_true] at hj'
      exact hj'.1
    | USBCMD =>
      unfold Sys.writeReg at hj'
      dsimp only at hj'
      split at hj'
      · -- a controller reset clears them all
        have h0 : (0 : Word).getLsbD j = false := BitVec.getLsbD_zero
        rw [show ((0 : Word).getLsbD j = true) from hj'] at h0
        simp at h0
      · exact hj'
    | _ => exact hj'
  | storeTd t w v =>
    have hreg : (s.setTdAt t ((s.tdAt t).put w v)).reg = s.reg := Sys.reg_setTdAt _ _ _
    have hj' : ((s.setTdAt t ((s.tdAt t).put w v)).reg .ENDPTSETUPSTAT).getLsbD j = true := hj
    rwa [hreg] at hj'
  | readReg | loadTd | loadCapabilities | storeCapabilities | loadSetup | loadByte | storeByte
    | dccimvac | addrOfSelf | getDriver | setDriver => exact hj

theorem latchFalls {α : Type} (p : UsbM α) : Keeps usbBusy (Shared LatchFalls) p := by
  refine .of_act latchFalls_composes.shared (fun β a x => ?_) p
  exact interleaved_act (M := usb.showing see) latchFalls_composes latchFalls_occur
    (fun s j hj => Or.inl (latch_usbAct a s hj)) x

theorem latchFalls_of_exec {α : Type} {p : UsbM α} {n : Nat} {s : Sys}
    {σ : List (List HwEvent)} {res : Res Fault α} {y : Sys × List (List HwEvent)} {ms : Moments}
    (h : exec usbBusy n p (s, σ) = ⟨res, y, ms⟩) : LatchFalls s ms y.1 := by
  have hkept := latchFalls p n (s, σ)
  rw [h] at hkept
  exact hkept

namespace LatchFalls

variable {s s' : Sys} {ms : Moments}

theorem latchOnly0 (h : LatchFalls s ms s') (h0 : s.LatchOnly0) : s'.LatchOnly0 := by
  intro i hi
  rw [Bool.eq_false_iff]
  intro hb
  rcases h i hb with hb | ⟨rfl, -⟩
  · rw [h0 i hi] at hb
    simp at hb
  · exact hi rfl

theorem setupPending (h : LatchFalls s ms s') (hp : s'.setupPending = true) :
    s.setupPending = true ∨ 0 < arrivals ms :=
  (h 0 hp).imp_right And.right

end LatchFalls

/-! ## Reads and their interruptions -/

/-- A part of an execution that is away from the latch. -/
def Sys.AwayTo (_ : Sys) (ms : Moments) (_ : Sys) : Prop := Away ms

theorem away_composes : Composes Sys.AwayTo where
  refl := fun _ _ hm => by simp at hm
  trans := fun h h' => Away.append h h'

theorem away_of_exec {α : Type} {p : UsbM α} (hp : Within (· ≠ .ENDPTSETUPSTAT) p) {n : Nat}
    {s : Sys} {σ : List (List HwEvent)} {res : Res Fault α} {y : Sys × List (List HwEvent)}
    {ms : Moments} (h : exec usbBusy n p (s, σ) = ⟨res, y, ms⟩) : Away ms := by
  have hkept : Keeps usbBusy (Shared Sys.AwayTo) p := by
    refine Keeps.interleaved away_composes (M := usb.showing see)
      (fun ev s s' _ => away_events [ev]) (fun β a s ha m hm => ?_) hp
    cases a with
    | writeReg r v =>
      obtain rfl := List.mem_singleton.mp hm
      refine ⟨rfl, ?_⟩
      unfold clearsLatch
      split
      · rename_i heq
        obtain ⟨rfl, -⟩ := Seen.wrote.inj (Moment.access.inj heq)
        exact absurd rfl ha
      · rfl
      · rfl
    | loadSetup => exact absurd rfl ha
    | readReg | loadTd | storeTd | loadCapabilities | storeCapabilities | loadByte | storeByte
      | dccimvac | addrOfSelf | getDriver | setDriver => exact absurd hm List.not_mem_nil
  have hout := hkept n (s, σ)
  rw [h] at hout
  exact hout

/-- Data transfers are away from the latch. -/
theorem transfers_away (ep : Endpoint) : Transfers (Access.Within (· ≠ .ENDPTSETUPSTAT)) ep :=
  within_transfers (by simp) (by simp) (by simp) ep

/-- A read that takes a packet: the latch was set, or a packet arrived, before
    it is cleared (in `pre`); and if the latch is set at the end, a packet
    arrived after it was cleared (in `post`). -/
structure Takes (s : Sys) (pre post : Moments) (s' : Sys) : Prop where
  away : Away pre
  before : s.setupPending = true ∨ 0 < arrivals pre
  after : s'.setupPending = true → 0 < arrivals post

/-- A read, without a packet or taking one. -/
def SetupRead (s : Sys) (ms : Moments) (s' : Sys) : Prop :=
  Away ms ∨ ∃ pre m post, ms = pre ++ m :: post ∧ clearsLatch m = true ∧ Takes s pre post s'

/-- Before the latch is read, there is time for packets. -/
theorem SetupRead.prepend {s s₁ s' : Sys} {ms₀ ms : Moments} (h : SetupRead s₁ ms s')
    (haway : Away ms₀) (hfall : LatchFalls s ms₀ s₁) :
    SetupRead s (ms₀ ++ ms) s' := by
  rcases h with h | ⟨pre, m, post, rfl, hm, ht⟩
  · exact Or.inl (haway.append h)
  · refine Or.inr ⟨ms₀ ++ pre, m, post, by simp, hm, haway.append ht.away, ?_, ht.after⟩
    · rw [arrivals_append]
      rcases ht.before with hp | hpos
      · refine (hfall.setupPending hp).imp_right fun hpos => ?_
        omega
      · right
        omega

section Reads

variable {s s' : Sys} {σ τ : List (List HwEvent)} {ms : Moments} {n : Nat}

/-- The latch is only read for the endpoint it belongs to. -/
theorem latch_index (h0 : s.LatchOnly0) {i : Nat} (hi : i < 32)
    (h : (s.reg .ENDPTSETUPSTAT &&& 1#32 <<< i != 0) = true) : i = 0 ∧ s.setupPending = true := by
  rw [Field.and_bit_ne_zero _ hi] at h
  by_cases hz : i = 0
  · subst hz
    exact ⟨rfl, h⟩
  · rw [h0 i hz] at h
    simp at h

theorem busy_bit32 {i : Nat} {w : Word} {x y : Sys × List (List HwEvent)}
    (h : exec usbBusy n (bit32 i) x = ⟨.ok w, y, ms⟩) :
    i < 32 ∧ w = 1#32 <<< i ∧ y = x ∧ ms = [] := by
  unfold bit32 Prog.require at h
  split at h
  · rename_i hi
    obtain ⟨hw, rfl, rfl⟩ := Out.mk.inj h
    exact ⟨hi, (Res.ok.inj hw).symm, rfl, rfl⟩
  · exact absurd (Out.mk.inj h).1 (by simp)

theorem busy_hasSetup {ep : Endpoint} {b : Bool} {y : Sys × List (List HwEvent)}
    (h : exec usbBusy n ep.hasSetup (s, σ) = ⟨.ok b, y, ms⟩) :
    ∃ es : List HwEvent, ms = es.map .event ∧ LatchFalls s ms y.1 ∧ ep.address.index < 32 ∧
      b = (y.1.reg .ENDPTSETUPSTAT &&& 1#32 <<< ep.address.index != 0) := by
  obtain ⟨s₁, es, σ₁, ms₁, hfall, rfl, hrun⟩ :=
    busy_read latchFalls_composes latchFalls_occur h
  obtain ⟨bit, x, o₁, o₂, hbit, hret, rfl⟩ := exec_bind_ok _ _ hrun
  obtain ⟨hi, rfl, rfl, rfl⟩ := busy_bit32 hbit
  rw [exec_pure] at hret
  obtain ⟨hb, rfl, rfl⟩ := Out.mk.inj hret
  rw [List.append_nil, List.append_nil]
  exact ⟨es, rfl, hfall, hi, (Res.ok.inj hb).symm⟩

/-- The latch of the control endpoint is cleared, and the rest follows. -/
theorem busy_readSetup {ep : Endpoint} {v : BitVec 64} {y : Sys × List (List HwEvent)}
    (hi : ep.address.index = 0)
    (h : exec usbBusy n ep.readSetup (s, σ) = ⟨.ok v, y, ms⟩) :
    ∃ (es : List HwEvent) (m : Moment HwEvent Seen) (post : Moments) (s₁ : Sys),
      ms = es.map .event ++ m :: post ∧ clearsLatch m = true ∧ s₁.setupPending = false ∧
      LatchFalls s₁ post y.1 := by
  obtain ⟨bit, x, o₁, o₂, hbit, hclear, rfl⟩ := exec_bind_ok _ _ h
  obtain ⟨-, rfl, rfl, rfl⟩ := busy_bit32 hbit
  obtain ⟨s₂, es, σ₂, ms₂, -, rfl, hloop⟩ :=
    busy_write latchFalls_composes latchFalls_occur hclear
  rw [List.nil_append]
  refine ⟨es, _, ms₂, s₂.writeReg .ENDPTSETUPSTAT (1#32 <<< ep.address.index), rfl, rfl, ?_, ?_⟩
  · have hbit : (s₂.reg .ENDPTSETUPSTAT).getLsbD 0 = true →
        ((1#32 <<< ep.address.index).getLsbD 0 = true ↔ True) := by
      rw [hi]
      exact fun _ => iff_of_true rfl trivial
    rw [Sys.setupPending, Sys.writeReg_w1c _ _ (by simp), Sys.getLsbD_lower _ _ _ True hbit]
    simp
  · exact latchFalls_of_exec hloop

/-- The control endpoint's read: without a packet, or taking one. -/
theorem busy_takeSetup {α : Type} {ep : Endpoint} {f : BitVec 64 → UsbM α} {g : UsbM α} {a : α}
    {len : Nat} (h0 : s.LatchOnly0) (hg : Within (· ≠ .ENDPTSETUPSTAT) g)
    (h : exec usbBusy n
      (ep.hasSetup >>= fun b => if b && 8 ≤ len then ep.readSetup >>= f else g) (s, σ) =
      ⟨.ok a, (s', τ), ms⟩) :
    SetupRead s ms s' := by
  obtain ⟨b, ⟨s₁, σ₁⟩, o₁, o₂, hb, hrun, rfl⟩ := exec_bind_ok _ _ h
  obtain ⟨es, rfl, hfall, hi, rfl⟩ := busy_hasSetup hb
  split at hrun
  · rename_i hset
    rw [Bool.and_eq_true] at hset
    obtain ⟨hidx, hp⟩ := latch_index (hfall.latchOnly0 h0) hi hset.1
    obtain ⟨v, ⟨s₂, σ₂⟩, o₃, o₄, hv, htail, rfl⟩ := exec_bind_ok _ _ hrun
    obtain ⟨es', m, post, s₃, rfl, hm, hclear, hpost⟩ := busy_readSetup hidx hv
    have hrest := latchFalls_of_exec htail
    refine Or.inr ⟨es.map .event ++ es'.map .event, m, post ++ o₄, by simp, hm,
      (away_events es).append (away_events es'), ?_, ?_⟩
    · -- a packet that was latched when the latch was read
      rw [arrivals_append]
      refine (hfall.setupPending hp).imp_right fun hpos => ?_
      omega
    · intro hp'
      have hall := latchFalls_composes.trans hpost hrest
      refine (hall.setupPending hp').resolve_left ?_
      rw [hclear]
      simp
  · exact Or.inl ((away_events es).append (away_of_exec hg hrun))

/-- A read of any address. -/
theorem busy_busRead {addr : EndpointAddress} {buf : List Byte} {r : Ret} (h0 : s.LatchOnly0)
    (h : exec usbBusy n (Call.read addr buf).prog (s, σ) = ⟨.ok r, (s', τ), ms⟩) :
    SetupRead s ms s' := by
  by_cases hidx : addr.index = 0
  · obtain ⟨res, ⟨s₁, σ₁⟩, o₁, o₁', hread, hret, rfl⟩ := exec_bind_ok _ _ h
    rw [exec_pure] at hret
    obtain ⟨-, hpost, rfl⟩ := Out.mk.inj hret
    obtain ⟨rfl, rfl⟩ := Prod.mk.inj hpost
    rw [List.append_nil]
    obtain ⟨allocated, ⟨s₂, σ₂⟩, o₂, o₂', hall, hbus, rfl⟩ := exec_bind_ok _ _ hread
    -- what comes before the taking is away from the buffer, and the latch only falls
    have hfall₂ := latchFalls_of_exec hall
    refine SetupRead.prepend ?_ (away_of_exec (only_isAllocated addr) hall) hfall₂
    split at hbus
    · exact Or.inl (away_of_exec (.pure _) hbus)
    · obtain ⟨found, ⟨s₃, σ₃⟩, o₃, o₃', hfind, hep, rfl⟩ := exec_bind_ok _ _ hbus
      have hfall₃ := latchFalls_of_exec hfind
      refine SetupRead.prepend ?_ (away_of_exec (only_endpoint _) hfind) hfall₃
      obtain ⟨ep, ⟨s₄, σ₄⟩, o₄, o₄', hunwrap, hctrl, rfl⟩ := exec_bind_ok _ _ hep
      have hfall₄ := latchFalls_of_exec hunwrap
      refine SetupRead.prepend ?_ (away_of_exec (only_unwrap found) hunwrap) hfall₄
      have h0₄ := hfall₄.latchOnly0 (hfall₃.latchOnly0 (hfall₂.latchOnly0 h0))
      refine busy_takeSetup h0₄ ?_ hctrl
      exact only_ctrl0Data (transfers_away ep) (within_read ep buf)
  · refine Or.inl (away_of_exec ?_ h)
    refine .bind (.bind (only_isAllocated addr) fun allocated => ?_) fun _ => .pure _
    show Within _ (if _ then _ else _)
    split
    · exact .pure _
    · exact only_epRead buf addr transfers_away fun ep => within_read ep buf

end Reads

/-! ## Runs -/

/-- What is known after a call.  Only a late packet is returned twice; and when
    the latch is set, the last packet was not returned, or returned once and
    late. -/
structure Delivery.Sound (d : Delivery) (s : Sys) : Prop where
  latchOnly0 : s.LatchOnly0
  le : ∀ j ∈ d.returned, j ≤ d.arrived
  count : ∀ j, d.returned.count j ≤ if j ∈ d.late then 2 else 1
  flagged : s.setupPending = true → d.returned.count d.arrived ≤ if d.arrived ∈ d.late then 1 else 0

namespace Delivery.Sound

variable {d : Delivery} {s s' : Sys} {ms : Moments}

/-- Packets to come were not returned. -/
theorem count_eq_zero (h : d.Sound s) {j : Nat} (hj : d.arrived < j) : d.returned.count j = 0 := by
  rw [List.count_eq_zero]
  intro hmem
  have := h.le j hmem
  omega

/-- When packets arrive, or the latch is set, the last packet is not used up. -/
theorem count_last (h : d.Sound s) {k : Nat} (hk : s.setupPending = true ∨ 0 < k) :
    d.returned.count (d.arrived + k) ≤ if d.arrived + k ∈ d.late then 1 else 0 := by
  by_cases hpos : 0 < k
  · rw [h.count_eq_zero (by omega)]
    exact Nat.zero_le _
  · have hk0 : k = 0 := by omega
    rw [hk0, Nat.add_zero]
    exact h.flagged (hk.resolve_right hpos)

/-- Nothing is returned. -/
theorem seen (h : d.Sound s) (hfall : LatchFalls s ms s') : (ms.foldl see d).Sound s' := by
  obtain ⟨hret, hlate⟩ := returned_see (d := d) ms
  have harr := arrived_see d ms
  refine ⟨hfall.latchOnly0 h.latchOnly0, fun j hj => ?_, fun j => ?_, fun hp => ?_⟩
  · rw [hret] at hj
    have := h.le j hj
    omega
  · rw [hret, hlate]
    exact h.count j
  · rw [hret, hlate, harr]
    exact h.count_last (hfall.setupPending hp)

/-- A packet `j` is returned by a call that cleared the latch after `k` packets,
    `p` packets before its end. -/
theorem take (h : d.Sound s) {d' : Delivery} (hseen : d'.Sound s') {k p j : Nat}
    (hret : d'.returned = d.returned) (hlate : d'.late = d.late)
    (harr : d'.arrived = d.arrived + k + p) (hj : d.arrived + k ≤ j ∧ j ≤ d.arrived + k + p)
    (hbefore : s.setupPending = true ∨ 0 < k) (hafter : s'.setupPending = true → 0 < p) :
    Sound { d' with
      returned := j :: d'.returned
      late := if d.arrived + k < j then j :: d'.late else d'.late } s' := by
  have hlast := h.count_last hbefore
  rw [← hret, ← hlate] at hlast
  have hnew : ∀ i, d.arrived < i → d'.returned.count i = 0 := by
    rw [hret]
    exact fun i => h.count_eq_zero
  refine ⟨hseen.latchOnly0, fun i hi => ?_, fun i => ?_, fun hp => ?_⟩
  · rcases List.mem_cons.mp hi with rfl | hi
    · rw [harr]
      exact hj.2
    · exact hseen.le i hi
  · have hcount := hseen.count i
    show (j :: d'.returned).count i ≤ if i ∈ (if _ then _ else _) then 2 else 1
    by_cases hij : i = j
    · subst hij
      rw [List.count_cons_self]
      split
      · -- it arrived after the latch was cleared
        rename_i hlt
        rw [hnew i (by omega), if_pos (List.mem_cons_self ..)]
        omega
      · have hi : i = d.arrived + k := by omega
        subst hi
        split_ifs at hlast ⊢ <;> omega
    · rw [List.count_cons_of_ne (Ne.symm hij)]
      split
      · simpa only [List.mem_cons, hij, false_or] using hcount
      · exact hcount
  · have hpos := hafter hp
    show (j :: d'.returned).count d'.arrived ≤ if d'.arrived ∈ (if _ then _ else _) then 1 else 0
    have hzero : d'.returned.count d'.arrived = 0 := hnew _ (by omega)
    by_cases hij : d'.arrived = j
    · -- the packet that is flagged now is the one returned
      rw [hij] at hzero ⊢
      have hlt : d.arrived + k < j := by omega
      have hmem : j ∈ if d.arrived + k < j then j :: d'.late else d'.late := by
        rw [if_pos hlt]
        exact List.mem_cons_self ..
      rw [List.count_cons_self, hzero, if_pos hmem]
    · rw [List.count_cons_of_ne (Ne.symm hij), hzero]
      exact Nat.zero_le _

/-- A read that returns. -/
theorem read (h : d.Sound s) (hload : d.loaded = none) (hclear : d.cleared = none)
    (hfall : LatchFalls s ms s') (hread : SetupRead s ms s') (addr : EndpointAddress)
    (buf : List Byte) (x : Nat × List Byte) :
    ((ms.foldl see d).finish (.read addr buf) (.read (.ok x))).Sound s' := by
  have hseen := h.seen hfall
  obtain ⟨hret, hlate⟩ := returned_see (d := d) ms
  cases hj : (ms.foldl see d).loaded with
  | none =>
    rw [finish_none hj]
    exact hseen
  | some j =>
    rcases hread with haway | ⟨pre, m, post, rfl, hm, ht⟩
    · rw [(see_of_away haway).1, hload] at hj
      simp at hj
    · obtain ⟨hcl, harr, hbound⟩ := @see_clear _ _ post _ ht.away hm hload hclear
      rw [finish_some hj hcl]
      exact h.take hseen hret hlate harr (hbound j hj) ht.before ht.after

/-- One step, whatever it is. -/
theorem step {l : BusyLabel} (h : d.Sound s) (hstep : BusyStep (fun _ => True) s l s') :
    (d.step l).Sound s' := by
  cases hstep with
  | step hstep hcall =>
    cases hstep with
    | call => exact absurd trivial hcall
    | @hw ev hev =>
      have hocc : ev.occur s = some (ev.apply s) := if_pos hev
      have hfall : LatchFalls s [Moment.event ev] (ev.apply s) := latchFalls_occur ev s _ hocc
      exact h.seen hfall
  | @busy c r n σ τ _ ms _ hrun =>
    have hfall := latchFalls_of_exec hrun
    have hstart : Sound { d with cleared := none, loaded := none } s :=
      ⟨h.latchOnly0, h.le, h.count, h.flagged⟩
    have hseen := hstart.seen hfall
    cases c with
    | read addr buf =>
      have hread := busy_busRead h.latchOnly0 hrun
      cases r with
      | read res =>
        cases res with
        | ok x => exact hstart.read rfl rfl hfall hread addr buf x
        | error e => exact hseen
      | unit | poll | write | bool => exact hseen
    | poll | write | setStalled | isStalled | reset | configure | setDeviceAddress | enable
      | enableZlt | setInterrupts => exact hseen

theorem of_booted (h : Booted s) : (⟨0, none, none, [], []⟩ : Delivery).Sound s where
  latchOnly0 := by
    intro i _
    rw [h.idle.setupstat]
    exact BitVec.getLsbD_zero
  le := by simp
  count := by simp
  flagged := by simp

end Delivery.Sound

/-- In a run from boot with the controller at work between any two accesses of
    every call: no SETUP packet is returned by more than two reads, and one that
    is returned by two arrived after a read that returned it had cleared the
    latch. -/
theorem setup_returned {s₀ s : Sys} {tr : BusyTrace} (h₀ : Booted s₀)
    (hrun : Run (BusyStep fun _ => True) s₀ tr s) (j : Nat) :
    (delivery tr).returned.count j ≤ 2 ∧
      (j ∉ (delivery tr).late → (delivery tr).returned.count j ≤ 1) := by
  have hsound := hrun.hist_invariant (I := fun tr s => (delivery tr).Sound s) (always_true tr)
    (.of_booted h₀) fun tr s l s' h _ hstep => by
      rw [delivery_snoc]
      exact h.step hstep
  have hcount := hsound.count j
  constructor
  · refine hcount.trans ?_
    split <;> omega
  · intro hlate
    rwa [if_neg hlate] at hcount

/-- Three packets, the second right before the latch is cleared for the first:
    it is returned in the place of the first, and none is returned twice. -/
theorem setup_returned_device : ∃ tr s, Run (BusyStep fun _ => True) device tr s ∧
    (delivery tr).arrived = 3 ∧ (delivery tr).returned = [3, 2] ∧
      ∀ j, (delivery tr).returned.count j ≤ 1 := by
  obtain ⟨tr, s, hrun, harr, hret, hlate⟩ := exists_performed (performBusy_sound fun _ => True)
    (p := fun tr _ => (delivery tr).arrived = 3 ∧ (delivery tr).returned = [3, 2] ∧
      (delivery tr).late = [])
    device
    [.step (.hw (.setup 0x0000000000010900)), .busy .poll 1 [],
      .busy (.read EpId.ep0Out.address (List.replicate 8 0)) 2
        [[], [], [], [], [], [.setup 0x0000000000000680]],
      .busy (.read EpId.ep0Out.address (List.replicate 8 0)) 2 [],
      .busy .poll 1 [[], [.setup 0x0000000000010900]],
      .busy (.read EpId.ep0Out.address (List.replicate 8 0)) 2 []]
    (by decide +kernel)
  refine ⟨tr, s, hrun, harr, hret, fun j => (setup_returned device_booted hrun j).2 ?_⟩
  rw [hlate]
  exact List.not_mem_nil

/-- A packet arrives after the latch was cleared for the packet before it, and is
    returned by that read and by the next. -/
theorem setup_returned_twice : ∃ tr s, Run (BusyStep fun _ => True) device tr s ∧
    (delivery tr).returned = [2, 2] ∧ ¬ (delivery tr).returned.Nodup :=
  exists_performed (performBusy_sound fun _ => True) device
    [.step (.hw (.setup 0x0000000000010900)),
      .busy (.read EpId.ep0Out.address (List.replicate 8 0)) 2
        [[], [], [], [], [], [], [.setup 0x0000000000000680]],
      .busy (.read EpId.ep0Out.address (List.replicate 8 0)) 2 []]
    (by decide +kernel)

end ImxrtUsbd
