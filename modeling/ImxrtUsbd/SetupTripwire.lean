/-
  ImxrtUsbd.SetupTripwire

  The setup tripwire: `read_setup` copies the setup buffer in two halves, while
  packets may arrive between any two of its accesses.

  A packet that arrives clears `SUTW`, and only `read_setup` sets it; so if it
  is still set when it is checked, the buffer did not change since the pass
  began, and both halves are of the packet that arrived last (`PassOk`).  Each
  pass takes up accesses of a finite schedule, so a pass in which nothing
  arrives is reached (`exists_iterate_ok`).
-/
import ImxrtUsbd.BusySystem

namespace ImxrtUsbd

open Lib

/-! ## Packets -/

section Packets

variable {O : Type}

/-- The packet that arrives. -/
def packetOf : Moment HwEvent O → Option (BitVec 64)
  | .event (.setup packet) => some packet
  | .event _ | .access _ => none

/-- The packets that arrive, in order. -/
def packets (ms : List (Moment HwEvent O)) : List (BitVec 64) := ms.filterMap packetOf

/-- The packet that arrived last; `before` was the last one before that. -/
def newest (before : BitVec 64) (ps : List (BitVec 64)) : BitVec 64 := ps.getLastD before

theorem packets_append (ms ms' : List (Moment HwEvent O)) :
    packets (ms ++ ms') = packets ms ++ packets ms' := List.filterMap_append

/-- Accesses are not packets. -/
theorem packets_accesses (os : List O) :
    packets (os.map fun o => (.access o : Moment HwEvent O)) = [] := by
  rw [packets, List.filterMap_map, List.filterMap_eq_nil_iff]
  exact fun _ _ => rfl

theorem packets_nil : packets ([] : List (Moment HwEvent O)) = [] := rfl

theorem packets_cons_access (o : O) (ms : List (Moment HwEvent O)) :
    packets (.access o :: ms) = packets ms := rfl

theorem newest_append (p : BitVec 64) (ps qs : List (BitVec 64)) :
    newest p (ps ++ qs) = newest (newest p ps) qs := by
  induction ps generalizing p with
  | nil => rfl
  | cons q ps ih =>
    rw [List.cons_append, newest, List.getLastD_cons]
    exact (ih q).trans (congrArg (newest · qs) List.getLastD_cons.symm)

end Packets

/-! ## The setup buffer -/

/-- The setup buffer of the control endpoint. -/
def Sys.setupBuffer (s : Sys) : BitVec 64 := (s.qh 0).setup

/-- The setup buffer holds the packet that arrived last. -/
def Overwrites {O : Type} (s : Sys) (ms : List (Moment HwEvent O)) (s' : Sys) : Prop :=
  s'.setupBuffer = newest s.setupBuffer (packets ms)

section Overwrites

variable {O : Type}

theorem overwrites_composes : Composes (Overwrites (O := O)) where
  refl := fun _ => rfl
  trans := by
    intro s s' s'' o o' h h'
    rw [Overwrites, packets_append, newest_append, ← h]
    exact h'

theorem overwrites_occur (ev : HwEvent) (s s' : Sys) (h : ev.occur s = some s') :
    Overwrites (O := O) s [.event ev] s' := by
  obtain ⟨-, rfl⟩ := HwEvent.occur_eq_some h
  cases ev with
  | setup packet => exact congrArg Qh.setup (Function.update_self 0 _ s.qh)
  | outDone | inDone | error | nak | resetBegin | resetEnd => rfl

/-- The driver never writes it. -/
theorem setupBuffer_usbAct {β : Type} (a : Access β) (s : Sys) :
    (usbAct a s).2.1.setupBuffer = s.setupBuffer := by
  have hupdate : ∀ i q, q.setup = (s.qh i).setup →
      (Function.update s.qh i q 0).setup = (s.qh 0).setup := by
    intro i q hq
    by_cases h : 0 = i
    · subst h
      rw [Function.update_self, hq]
    · rw [Function.update_of_ne h]
  cases a with
  | writeReg r v =>
    show (s.writeReg r v).setupBuffer = _
    cases r with
    | USBCMD =>
      unfold Sys.writeReg
      dsimp only
      split <;> rfl
    | _ => rfl
  | storeTd t w v =>
    cases t with
    | list i => rfl
    | overlay i => exact hupdate i _ rfl
  | storeCapabilities i v => exact hupdate i _ rfl
  | readReg | loadTd | loadCapabilities | loadSetup | loadByte | storeByte | dccimvac
    | addrOfSelf | getDriver | setDriver => rfl

/-- So it keeps the last packet in every execution, whatever is shown of it. -/
theorem overwrites {α : Type} (see : {β : Type} → Access β → Sys → List O) (p : UsbM α) :
    Keeps ((usb.showing see).interleaved HwEvent.occur) (Shared Overwrites) p := by
  refine .of_act overwrites_composes.shared (fun β a x => ?_) p
  refine interleaved_act (M := usb.showing see) overwrites_composes overwrites_occur
    (fun s => ?_) x
  rw [Overwrites, packets_accesses]
  exact setupBuffer_usbAct a s

end Overwrites

/-! ## Runs -/

/-- The packets that arrive in a step. -/
def BusyLabel.packets : BusyLabel → List (BitVec 64)
  | .step (.hw ev) => ImxrtUsbd.packets [Moment.event (O := Seen) ev]
  | .step (.call _ _ _) => []
  | .busy _ _ ms => ImxrtUsbd.packets ms

/-- The packets so far. -/
def packetsSoFar (tr : BusyTrace) : List (BitVec 64) := tr.flatMap fun x => x.2.packets

theorem BusyStep.setupBuffer_eq {s s' : Sys} {l : BusyLabel} {I : Call → Prop}
    (h : BusyStep I s l s') : s'.setupBuffer = newest s.setupBuffer l.packets := by
  cases h with
  | step hstep =>
    cases hstep with
    | @call c r _ obs hrun =>
      have hcomp : Composes fun (s : Sys) (_ : List Obs) s' => s'.setupBuffer = s.setupBuffer :=
        ⟨fun _ => rfl, fun h h' => h'.trans h⟩
      have := Keeps.of_act (M := usb) hcomp (fun _ a s => setupBuffer_usbAct a s) c.prog 1 s
      rw [← run, hrun] at this
      exact this
    | @hw ev hev => exact overwrites_occur (O := Seen) ev s _ (if_pos hev)
  | @busy c r n σ τ _ ms _ hrun =>
    have hkept : Shared Overwrites (s, σ) (exec usbBusy n c.prog (s, σ)).obs
        (exec usbBusy n c.prog (s, σ)).post := overwrites see c.prog n (s, σ)
    rw [hrun] at hkept
    exact hkept

theorem setupBuffer_run {s₀ s : Sys} {tr : BusyTrace} {I : Call → Prop}
    (h : Run (BusyStep I) s₀ tr s) :
    s.setupBuffer = newest s₀.setupBuffer (packetsSoFar tr) := by
  induction h with
  | nil => rfl
  | @snoc tr s s' l _ hstep ih =>
    rw [packetsSoFar, List.flatMap_append, newest_append, hstep.setupBuffer_eq, ih]
    rw [List.flatMap_singleton]
    rfl

/-! ## Spying on the registers -/

/-- A register access. -/
inductive RegSeen where
  | read (r : Reg) (v : Word)
  | wrote (r : Reg) (v : Word)
  deriving DecidableEq, Repr

def seeReg : {β : Type} → Access β → Sys → List RegSeen
  | _, .readReg r, s => [.read r (s.reg r)]
  | _, .writeReg r v, _ => [.wrote r v]
  | _, .loadTd _ _, _ | _, .storeTd _ _ _, _ | _, .loadCapabilities _, _
  | _, .storeCapabilities _ _, _ | _, .loadSetup _ _, _ | _, .loadByte _, _ | _, .storeByte _ _, _
  | _, .dccimvac _, _ | _, .addrOfSelf, _ | _, .getDriver, _ | _, .setDriver _, _ => []

/-- Driver code with the controller at work, all register accesses shown. -/
def usbSpied : Machine Access (Sys × List (List HwEvent)) (Moment HwEvent RegSeen) :=
  (usb.showing seeReg).interleaved HwEvent.occur

/-- The same, whatever is shown of the accesses. -/
abbrev spied {O : Type} (see : {β : Type} → Access β → Sys → List O) :
    Machine Access (Sys × List (List HwEvent)) (Moment HwEvent O) :=
  (usb.showing see).interleaved HwEvent.occur

/-- What is shown of events. -/
abbrev shown {O : Type} (es : List HwEvent) : List (Moment HwEvent O) := es.map .event

/-- The packets among the events of the controller. -/
abbrev arrivedPackets (es : List HwEvent) : List (BitVec 64) :=
  packets (es.map (Moment.event (O := RegSeen)))

theorem packets_shown {O : Type} (es : List HwEvent) :
    packets (shown es : List (Moment HwEvent O)) = arrivedPackets es := by
  rw [arrivedPackets, packets, packets, List.filterMap_map, List.filterMap_map]
  refine congrArg (List.filterMap · es) (funext fun ev => ?_)
  cases ev <;> rfl

/-- `SUTW` is set. -/
def Sys.armedTrip (s : Sys) : Bool := (s.reg .USBCMD).getLsbD 13

/-- The controller is told to reset. -/
def Sys.asksReset (s : Sys) : Bool := (s.reg .USBCMD).getLsbD 1

/-- Events do nothing to the tripwire and the latch, but that a packet clears
    the one and sets the other. -/
structure Trips (s : Sys) (es : List HwEvent) (s' : Sys) : Prop where
  buffer : s'.setupBuffer = newest s.setupBuffer (arrivedPackets es)
  armedTrip : s'.armedTrip = (s.armedTrip && (arrivedPackets es).isEmpty)
  asksReset : s'.asksReset = s.asksReset
  pending : s'.setupPending = (s.setupPending || !(arrivedPackets es).isEmpty)

theorem arrivedPackets_append (es es' : List HwEvent) :
    arrivedPackets (es ++ es') = arrivedPackets es ++ arrivedPackets es' := by
  rw [arrivedPackets, List.map_append, packets_append]

theorem isEmpty_arrived_append (es es' : List HwEvent) :
    (arrivedPackets (es ++ es')).isEmpty =
      ((arrivedPackets es).isEmpty && (arrivedPackets es').isEmpty) := by
  rw [arrivedPackets_append]
  cases arrivedPackets es <;> rfl

namespace Trips

variable {s s' s'' : Sys} {es es' : List HwEvent}

theorem refl (s : Sys) : Trips s [] s :=
  ⟨rfl, (Bool.and_true _).symm, rfl, (Bool.or_false _).symm⟩

theorem trans (h : Trips s es s') (h' : Trips s' es' s'') : Trips s (es ++ es') s'' := by
  constructor
  · rw [arrivedPackets_append, newest_append, ← h.buffer, h'.buffer]
  · rw [isEmpty_arrived_append, h'.armedTrip, h.armedTrip, Bool.and_assoc]
  · rw [h'.asksReset, h.asksReset]
  · rw [isEmpty_arrived_append, h'.pending, h.pending, Bool.not_and, Bool.or_assoc]

theorem occur (ev : HwEvent) (h : ev.occur s = some s') : Trips s [ev] s' := by
  have hbuffer := overwrites_occur (O := RegSeen) ev s s' h
  obtain ⟨-, rfl⟩ := HwEvent.occur_eq_some h
  cases ev with
  | setup packet =>
    have hcmd : ((HwEvent.setup packet).apply s).reg .USBCMD =
        s.reg .USBCMD &&& ~~~ USBCMD.SUTW.put 1 := rfl
    have hlatch : ((HwEvent.setup packet).apply s).reg .ENDPTSETUPSTAT =
        s.reg .ENDPTSETUPSTAT ||| 1 := rfl
    refine ⟨hbuffer, ?_, ?_, ?_⟩
    · rw [Sys.armedTrip, hcmd, BitVec.getLsbD_and]
      exact (Bool.and_false _).trans (Bool.and_false _).symm
    · rw [Sys.asksReset, hcmd, BitVec.getLsbD_and]
      exact Bool.and_true _
    · rw [Sys.setupPending, hlatch, BitVec.getLsbD_or]
      rfl
  | outDone | inDone | error | nak | resetBegin | resetEnd =>
    exact ⟨hbuffer, (Bool.and_true _).symm, rfl, (Bool.or_false _).symm⟩

theorem arrive (es : List HwEvent) (s : Sys) :
    Trips s (Lib.arrive HwEvent.occur es s).2 (Lib.arrive HwEvent.occur es s).1 := by
  induction es generalizing s with
  | nil => exact refl s
  | cons e es ih =>
    rw [Lib.arrive]
    split
    · rename_i s' h
      exact (occur e h).trans (ih s')
    · exact ih s

/-- A tripwire that is still set has seen no packet. -/
theorem untouched (h : Trips s es s') (hset : s'.armedTrip = true) :
    s.armedTrip = true ∧ arrivedPackets es = [] := by
  rw [h.armedTrip, Bool.and_eq_true, List.isEmpty_iff] at hset
  exact hset

end Trips

/-- Writing `USBCMD`.  A controller reset takes the bit that asked for it with it. -/
theorem writeUsbcmd_trips (s : Sys) (v : Word) :
    (s.writeReg .USBCMD v).setupBuffer = s.setupBuffer ∧
      (s.writeReg .USBCMD v).asksReset = false ∧
      ((s.writeReg .USBCMD v).armedTrip = true → v.getLsbD 1 = false) ∧
      (v.getLsbD 1 = false → (s.writeReg .USBCMD v).armedTrip = v.getLsbD 13 ∧
        (s.writeReg .USBCMD v).setupPending = s.setupPending) := by
  have hget : (USBCMD.RST.get v == 1) = v.getLsbD 1 :=
    Field.get_bit_eq_one _ _ rfl (by decide)
  unfold Sys.writeReg
  dsimp only
  cases hv : v.getLsbD 1 with
  | true =>
    rw [hv, beq_iff_eq] at hget
    rw [if_pos hget]
    -- every register of the controller reads as 0 then
    refine ⟨rfl, ?_, fun h => ?_, fun h => by simp at h⟩
    · show (0 : Word).getLsbD 1 = false
      decide
    · have h0 : (0 : Word).getLsbD 13 = true := h
      simp at h0
  | false =>
    rw [hv, beq_eq_false_iff_ne] at hget
    rw [if_neg hget]
    refine ⟨rfl, ?_, fun _ => rfl, fun _ => ⟨?_, rfl⟩⟩
    · rw [Sys.asksReset, Sys.reg_setReg_self, hv]
    · rw [Sys.armedTrip, Sys.reg_setReg_self]

/-! ## One pass -/

/-- The body of the loop of `read_setup`. -/
def tripPass (ep : Endpoint) : UsbM (Option (BitVec 64)) := do
  modifyReg .USBCMD [(USBCMD.SUTW, 1)]
  let setup ← Qh.readSetupBuffer ep.qh
  if (← readField .USBCMD USBCMD.SUTW) == 1 then
    modifyReg .USBCMD [(USBCMD.SUTW, 0)]
    return some setup
  else
    return none

theorem readSetup_eq (ep : Endpoint) :
    ep.readSetup = (do
      let bit ← bit32 ep.address.index
      writeReg .ENDPTSETUPSTAT bit
      .repeatUntil (tripPass ep)) := rfl

section Spied

variable {O α : Type} (see : {β : Type} → Access β → Sys → List O) {n : Nat} (s : Sys)
  (σ : List (List HwEvent))

/-- What is shown of an access. -/
abbrev seen {β : Type} (e : Access β) : List (Moment HwEvent O) := (see e s).map .access

/-- A register is read. -/
theorem spied_read (r : Reg) : ∃ s₁ es, Trips s es s₁ ∧ (σ = [] → es = []) ∧
    ∀ f : Word → UsbM α, exec (spied see) n (readReg r >>= f) (s, σ) =
      (exec (spied see) n (f (s₁.reg r)) (s₁, σ.tail)).after
        (shown es ++ seen see s₁ (.readReg r)) :=
  ⟨_, _, .arrive (σ.headD []) s, fun h => by rw [h]; rfl,
    fun f => exec_interleaved (usb.showing see) HwEvent.occur n (.readReg r) f s σ⟩

/-- A register is written. -/
theorem spied_write (r : Reg) (v : Word) : ∃ s₁ es, Trips s es s₁ ∧ (σ = [] → es = []) ∧
    ∀ f : Unit → UsbM α, exec (spied see) n (writeReg r v >>= f) (s, σ) =
      (exec (spied see) n (f ()) (s₁.writeReg r v, σ.tail)).after
        (shown es ++ seen see s₁ (.writeReg r v)) :=
  ⟨_, _, .arrive (σ.headD []) s, fun h => by rw [h]; rfl,
    fun f => exec_interleaved (usb.showing see) HwEvent.occur n (.writeReg r v) f s σ⟩

/-- A half of the setup buffer of the control endpoint is loaded. -/
theorem spied_loadSetup (high : Bool) : ∃ s₁ es, Trips s es s₁ ∧ (σ = [] → es = []) ∧
    ∀ f : Word → UsbM α, exec (spied see) n (loadSetup 0 high >>= f) (s, σ) =
      (exec (spied see) n (f (s₁.setupBuffer.extractLsb' (if high then 32 else 0) 32))
        (s₁, σ.tail)).after (shown es ++ seen see s₁ (.loadSetup 0 high)) :=
  ⟨_, _, .arrive (σ.headD []) s, fun h => by rw [h]; rfl,
    fun f => exec_interleaved (usb.showing see) HwEvent.occur n (.loadSetup 0 high) f s σ⟩

end Spied

/-- What a read of the setup buffer shows in the end: both halves are loaded
    (`pre` is what came before), the tripwire is checked and is cleared.  Before
    the check no packet arrives, and what the read returns is the newest one
    then; a packet after the check is flagged. -/
def ReadsLast {O : Type} (see : {β : Type} → Access β → Sys → List O) (before v : BitVec 64)
    (ms : List (Moment HwEvent O)) (s' : Sys) : Prop :=
  ∃ pre lo es₁ hi es₂ c es₃ c' es₄ t w,
    ms = pre ++ (seen see lo (.loadSetup 0 false) ++ (shown es₁ ++
      (seen see hi (.loadSetup 0 true) ++ (shown es₂ ++ (seen see c (.readReg .USBCMD) ++
        (shown es₃ ++ (seen see c' (.readReg .USBCMD) ++ (shown es₄ ++
          seen see t (.writeReg .USBCMD w))))))))) ∧
    arrivedPackets es₁ = [] ∧ arrivedPackets es₂ = [] ∧ USBCMD.SUTW.get (c.reg .USBCMD) = 1 ∧
    v = newest before (packets pre) ∧
    ∀ packet, HwEvent.setup packet ∈ es₃ ++ es₄ → s'.setupPending = true

/-- Time for packets before. -/
theorem ReadsLast.prepend {O : Type} {see : {β : Type} → Access β → Sys → List O}
    {before v : BitVec 64} {ms ms₀ : List (Moment HwEvent O)} {s' : Sys}
    (h : ReadsLast see (newest before (packets ms₀)) v ms s') :
    ReadsLast see before v (ms₀ ++ ms) s' := by
  obtain ⟨pre, lo, es₁, hi, es₂, c, es₃, c', es₄, t, w, rfl, h₁, h₂, hc, hv, hafter⟩ := h
  refine ⟨ms₀ ++ pre, lo, es₁, hi, es₂, c, es₃, c', es₄, t, w, (List.append_assoc _ _ _).symm,
    h₁, h₂, hc, ?_, hafter⟩
  rw [packets_append, newest_append]
  exact hv

/-- What a read of the setup buffer shows in the end: the tripwire is found set
    in a last check (`pre` is what came before it) and is cleared.  What it
    returns is the newest packet before the check; a packet after it is flagged. -/
def ReadsNewest (before v : BitVec 64) (ms : List (Moment HwEvent RegSeen)) (s' : Sys) : Prop :=
  ∃ pre c es c' es' w,
    ms = pre ++ (.access (.read .USBCMD c) :: (shown es ++ (.access (.read .USBCMD c') ::
      (shown es' ++ [.access (.wrote .USBCMD w)])))) ∧
    USBCMD.SUTW.get c = 1 ∧ v = newest before (packets pre) ∧
    ∀ packet, HwEvent.setup packet ∈ es ++ es' → s'.setupPending = true

theorem ReadsLast.readsNewest {before v : BitVec 64} {ms : List (Moment HwEvent RegSeen)}
    {s' : Sys} (h : ReadsLast seeReg before v ms s') : ReadsNewest before v ms s' := by
  obtain ⟨pre, lo, es₁, hi, es₂, c, es₃, c', es₄, t, w, rfl, h₁, h₂, hc, rfl, hafter⟩ := h
  refine ⟨pre ++ (shown es₁ ++ shown es₂), c.reg .USBCMD, es₃, c'.reg .USBCMD, es₄, w, ?_, hc,
    ?_, hafter⟩
  · -- the loads are not shown
    simp [seen, seeReg]
  · rw [packets_append, packets_append, packets_shown, packets_shown, h₁, h₂]
    simp

section PassOk

variable {O : Type} (see : {β : Type} → Access β → Sys → List O)

/-- A pass is not left, or is left with the newest packet. -/
inductive PassOk (s : Sys) (σ : List (List HwEvent)) :
    Out (Sys × List (List HwEvent)) (Moment HwEvent O) Fault (Option (BitVec 64)) → Prop where
  | again {s' : Sys} {ms : List (Moment HwEvent O)} :
      s'.asksReset = false → (σ = [] → s.asksReset = true) →
      PassOk s σ ⟨.ok none, (s', σ.drop 5), ms⟩
  | done {v : BitVec 64} {s' : Sys} {ms : List (Moment HwEvent O)} :
      ReadsLast see s.setupBuffer v ms s' → PassOk s σ ⟨.ok (some v), (s', σ.drop 7), ms⟩

/-- The tripwire bit is the only one that is modified. -/
theorem setSutw_bits (x v : Word) :
    (setFields [(USBCMD.SUTW, x)] v).getLsbD 1 = v.getLsbD 1 ∧
      (setFields [(USBCMD.SUTW, x)] v).getLsbD 13 = x.getLsbD 0 :=
  ⟨(Field.getLsbD_set USBCMD.SUTW x v (by decide)).trans (if_neg (by decide)),
    (Field.getLsbD_set USBCMD.SUTW x v (by decide)).trans (if_pos (by decide))⟩

/-- The accesses of a pass, one after the other. -/
theorem tripPass_eq {ep : Endpoint} (hq : ep.qh = 0) :
    tripPass ep = (do
      let c ← readReg .USBCMD
      writeReg .USBCMD (setFields [(USBCMD.SUTW, 1)] c)
      let lo ← loadSetup 0 false
      let hi ← loadSetup 0 true
      let c ← readReg .USBCMD
      if USBCMD.SUTW.get c == 1 then
        let c ← readReg .USBCMD
        writeReg .USBCMD (setFields [(USBCMD.SUTW, 0)] c)
        return some (hi ++ lo)
      else
        return none) := by
  rw [tripPass, hq]
  rfl

theorem passOk_tripPass {ep : Endpoint} (hq : ep.qh = 0) (n : Nat) (s : Sys)
    (σ : List (List HwEvent)) : PassOk see s σ (exec (spied see) n (tripPass ep) (s, σ)) := by
  obtain ⟨s₁, es₁, h₁, hnil₁, hrun₁⟩ := spied_read see s σ (n := n) .USBCMD
  obtain ⟨s₂, es₂, h₂, hnil₂, hrun₂⟩ := spied_write see s₁ σ.tail (n := n) .USBCMD
    (setFields [(USBCMD.SUTW, 1)] (s₁.reg .USBCMD))
  obtain ⟨hbuf, hreset, htrip, hkeep⟩ :=
    writeUsbcmd_trips s₂ (setFields [(USBCMD.SUTW, 1)] (s₁.reg .USBCMD))
  obtain ⟨hbit1, hbit13⟩ := setSutw_bits 1 (s₁.reg .USBCMD)
  rw [tripPass_eq hq, hrun₁, hrun₂]
  -- from here to the check, nothing but the controller writes
  generalize s₂.writeReg .USBCMD (setFields [(USBCMD.SUTW, 1)] (s₁.reg .USBCMD)) = s₂'
    at hbuf hreset htrip hkeep ⊢
  obtain ⟨s₃, es₃, h₃, hnil₃, hrun₃⟩ := spied_loadSetup see s₂' σ.tail.tail (n := n) false
  obtain ⟨s₄, es₄, h₄, hnil₄, hrun₄⟩ := spied_loadSetup see s₃ σ.tail.tail.tail (n := n) true
  obtain ⟨s₅, es₅, h₅, hnil₅, hrun₅⟩ := spied_read see s₄ σ.tail.tail.tail.tail (n := n) .USBCMD
  rw [hrun₃, hrun₄, hrun₅]
  have hcheck : (USBCMD.SUTW.get (s₅.reg .USBCMD) == 1) = s₅.armedTrip :=
    Field.get_bit_eq_one _ _ rfl (by decide)
  have hall := (h₃.trans h₄).trans h₅
  have hfirst := h₁.trans h₂
  rw [hcheck]
  cases hset : s₅.armedTrip with
  | false =>
    have hdrop : σ.tail.tail.tail.tail.tail = σ.drop 5 := by
      simp only [← List.drop_one, List.drop_drop]
    rw [if_neg Bool.false_ne_true, exec_pure, hdrop]
    refine .again (hall.asksReset.trans hreset) fun hnil => ?_
    -- without packets, the tripwire stays set, but for a controller reset
    by_contra hno
    subst hnil
    obtain rfl := hnil₃ rfl
    obtain rfl := hnil₄ rfl
    obtain rfl := hnil₅ rfl
    have hs₁ : (s₁.reg .USBCMD).getLsbD 1 = false := by
      have := h₁.asksReset
      rw [Bool.not_eq_true] at hno
      rwa [hno] at this
    have hup := (hkeep (hbit1.trans hs₁)).1
    rw [hall.armedTrip, hup, hbit13] at hset
    simp [packets] at hset
  | true =>
    obtain ⟨hup, hquiet⟩ := hall.untouched hset
    rw [arrivedPackets_append, List.append_eq_nil_iff, arrivedPackets_append,
      List.append_eq_nil_iff] at hquiet
    obtain ⟨⟨hquiet₃, hquiet₄⟩, hquiet₅⟩ := hquiet
    -- both halves are of the packet that is in the buffer at the check
    have hlo : s₃.setupBuffer = s₅.setupBuffer := by
      rw [h₅.buffer, h₄.buffer, hquiet₅, hquiet₄]
      rfl
    have hhi : s₄.setupBuffer = s₅.setupBuffer := by
      rw [h₅.buffer, hquiet₅]
      rfl
    -- the last two accesses clear the tripwire
    obtain ⟨s₆, es₆, h₆, -, hrun₆⟩ := spied_read see s₅ σ.tail.tail.tail.tail.tail (n := n) .USBCMD
    obtain ⟨s₇, es₇, h₇, -, hrun₇⟩ := spied_write see s₆ σ.tail.tail.tail.tail.tail.tail (n := n)
      .USBCMD (setFields [(USBCMD.SUTW, 0)] (s₆.reg .USBCMD))
    have hdrop : σ.tail.tail.tail.tail.tail.tail.tail = σ.drop 7 := by
      simp only [← List.drop_one, List.drop_drop]
    rw [if_pos rfl, hrun₆, hrun₇, exec_pure, hdrop, hlo, hhi]
    have hlast := h₆.trans h₇
    have hbit : (setFields [(USBCMD.SUTW, 0)] (s₆.reg .USBCMD)).getLsbD 1 = false :=
      (setSutw_bits 0 _).1.trans (h₆.asksReset.trans (hall.asksReset.trans hreset))
    have hpending := ((writeUsbcmd_trips s₇ _).2.2.2 hbit).2
    simp only [Out.after, List.append_assoc, List.append_nil]
    refine .done ⟨shown es₁ ++ (seen see s₁ (.readReg .USBCMD) ++ (shown es₂ ++
      (seen see s₂ (.writeReg .USBCMD (setFields [(USBCMD.SUTW, 1)] (s₁.reg .USBCMD))) ++
        shown es₃))), s₃, es₄, s₄, es₅, s₅, es₆, s₆, es₇, s₇,
      setFields [(USBCMD.SUTW, 0)] (s₆.reg .USBCMD), ?_, hquiet₄, hquiet₅, ?_, ?_,
      fun packet hmem => ?_⟩
    · simp only [List.append_assoc]
    · rw [← beq_iff_eq, hcheck, hset]
    · simp only [packets_append, packets_shown, packets_accesses, hquiet₃, List.append_nil,
        List.nil_append]
      have hv : s₅.setupBuffer = newest s.setupBuffer (arrivedPackets (es₁ ++ es₂)) := by
        rw [← hfirst.buffer, ← hbuf, ← hlo, h₃.buffer, hquiet₃]
        rfl
      rw [arrivedPackets_append] at hv
      exact (append_halves _).trans hv
    · have hne : arrivedPackets (es₆ ++ es₇) ≠ [] :=
        List.ne_nil_of_mem (List.mem_filterMap.mpr
          ⟨_, List.mem_map_of_mem (f := Moment.event (O := RegSeen)) hmem, rfl⟩)
      rw [hpending, hlast.pending, List.isEmpty_eq_false_iff.mpr hne]
      exact Bool.or_true _

end PassOk

/-! ## The loop -/

section Loop

variable {O : Type} {see : {β : Type} → Access β → Sys → List O} {ep : Endpoint} {n k : Nat}
  {s : Sys} {σ : List (List HwEvent)}

/-- What a pass leaves in the setup buffer, whatever comes of it. -/
theorem pass_setupBuffer {res : Res Fault (Option (BitVec 64))} {y : Sys × List (List HwEvent)}
    {ms : List (Moment HwEvent O)}
    (h : exec (spied see) k (tripPass ep) (s, σ) = ⟨res, y, ms⟩) :
    y.1.setupBuffer = newest s.setupBuffer (packets ms) := by
  have hkept : Shared Overwrites (s, σ) (exec (spied see) k (tripPass ep) (s, σ)).obs
      (exec (spied see) k (tripPass ep) (s, σ)).post := overwrites see (tripPass ep) k (s, σ)
  rw [h] at hkept
  exact hkept

/-- However many passes it takes, the loop is left with the newest packet. -/
theorem iterate_readsLast (hq : ep.qh = 0) {v : BitVec 64} {y : Sys × List (List HwEvent)}
    {ms : List (Moment HwEvent O)}
    (h : iterate (exec (spied see) k (tripPass ep)) n (s, σ) = ⟨.ok v, y, ms⟩) :
    ReadsLast see s.setupBuffer v ms y.1 := by
  induction n generalizing s σ ms with
  | zero => simp [iterate] at h
  | succ n ih =>
    have hpass := passOk_tripPass see hq k s σ
    generalize hrun : exec (spied see) k (tripPass ep) (s, σ) = r at hpass
    cases hpass with
    | @again s' ms₀ _ _ =>
      rw [iterate_again n hrun] at h
      generalize hrest : iterate (exec (spied see) k (tripPass ep)) n (s', σ.drop 5) = r at h
      obtain ⟨res, post, ms₁⟩ := r
      obtain ⟨rfl, rfl, rfl⟩ := Out.mk.inj h
      -- a pass that found the tripwire down: the next one starts from its state
      refine ReadsLast.prepend ?_
      have hread := ih hrest
      rwa [pass_setupBuffer hrun] at hread
    | done hread =>
      rw [iterate_done n hrun] at h
      obtain ⟨hv, rfl, rfl⟩ := Out.mk.inj h
      rwa [← Res.ok.inj hv]

/-- So it is when the loop is a program. -/
theorem exec_tripLoop (hq : ep.qh = 0) {v : BitVec 64} {y : Sys × List (List HwEvent)}
    {ms : List (Moment HwEvent O)}
    (h : exec (spied see) n (.repeatUntil (tripPass ep)) (s, σ) = ⟨.ok v, y, ms⟩) :
    ReadsLast see s.setupBuffer v ms y.1 := by
  rw [Prog.repeatUntil, exec] at h
  generalize hloop : iterate (exec (spied see) n (tripPass ep)) n (s, σ) = r at h
  obtain ⟨res, post, ms₁⟩ := r
  cases res with
  | ok w =>
    rw [Out.andThen_ok_obs, exec_ret, List.append_nil] at h
    obtain ⟨hv, rfl, rfl⟩ := Out.mk.inj h
    rw [← Res.ok.inj hv]
    exact iterate_readsLast hq hloop
  | fail | spin => simp [Out.andThen] at h

variable (see)

/-- A pass that is repeated uses up accesses of the schedule; when it is used
    up, only a controller reset asks for one more pass. -/
theorem exists_iterate_ok (hq : ep.qh = 0)
    (hn : σ.length + (if s.asksReset then 2 else 1) ≤ n) :
    ∃ v y ms, iterate (exec (spied see) k (tripPass ep)) n (s, σ) = ⟨.ok v, y, ms⟩ := by
  induction n generalizing s σ with
  | zero => split at hn <;> omega
  | succ n ih =>
    have hpass := passOk_tripPass see hq k s σ
    generalize hrun : exec (spied see) k (tripPass ep) (s, σ) = r at hpass
    cases hpass with
    | @again s' ms₀ hreset hnil =>
      -- the pass has used up events, or a controller reset that is now over
      have hleft : (σ.drop 5).length + 1 ≤ n := by
        rw [List.length_drop]
        by_cases hσ : σ = []
        · rw [hnil hσ, if_pos rfl, hσ] at hn
          rw [hσ]
          simp only [List.length_nil] at hn ⊢
          omega
        · have hpos := List.length_pos_iff.mpr hσ
          split at hn <;> omega
      obtain ⟨v, y, ms, hrest⟩ := ih (s := s') (σ := σ.drop 5) (by rwa [hreset])
      exact ⟨v, y, ms₀ ++ ms, by rw [iterate_again n hrun, hrest]; rfl⟩
    | @done v s' ms _ => exact ⟨v, (s', σ.drop 7), ms, iterate_done n hrun⟩

/-- `read_setup` on the control endpoint clears the latch, and is its loop from then on. -/
theorem exec_readSetup (hi : ep.address.index = 0) : ∃ s₁ es, Trips s es s₁ ∧
    exec (spied see) n ep.readSetup (s, σ) =
      (exec (spied see) n (.repeatUntil (tripPass ep))
        (s₁.writeReg .ENDPTSETUPSTAT 1, σ.tail)).after
        (shown es ++ seen see s₁ (.writeReg .ENDPTSETUPSTAT 1)) := by
  obtain ⟨s₁, es, h₁, -, hrun⟩ := spied_write see s σ (n := n) .ENDPTSETUPSTAT 1
  refine ⟨s₁, es, h₁, ?_⟩
  have hprog : ep.readSetup =
      writeReg .ENDPTSETUPSTAT 1 >>= fun _ => .repeatUntil (tripPass ep) := by
    rw [readSetup_eq, hi]
    rfl
  rw [hprog, hrun]

end Loop

/-- In a run from boot with the controller at work between any two accesses of
    every call, and under every schedule of events during `read_setup` itself:
    what it returns is the packet that had arrived last when the last check of
    the tripwire succeeded, and a packet after that check is flagged when it
    returns.  It does return, within as many passes as there are accesses
    scheduled, and two more. -/
theorem readSetup_newest {s₀ s : Sys} {tr : BusyTrace} {ep : Endpoint} (h₀ : Booted s₀)
    (hep : s₀.ep .ep0Out = some ep) (hrun : Run (BusyStep fun _ => True) s₀ tr s)
    (σ : List (List HwEvent)) :
    (∀ n v y ms, exec usbSpied n ep.readSetup (s, σ) = ⟨.ok v, y, ms⟩ →
      ReadsNewest (newest s₀.setupBuffer (packetsSoFar tr)) v ms y.1) ∧
    ∀ n, σ.length + 2 ≤ n →
      ∃ v y ms, exec usbSpied n ep.readSetup (s, σ) = ⟨.ok v, y, ms⟩ := by
  have hin := (h₀.reachable.wf.epOk .ep0Out ep hep).inPlace
  have hq : ep.qh = 0 := hin.qh
  have hi : ep.address.index = 0 := by
    rw [hin.address]
    rfl
  have hbuffer := setupBuffer_run hrun
  constructor
  · intro n v y ms h
    obtain ⟨s₁, es, h₁, hexec⟩ := exec_readSetup seeReg (n := n) (s := s) (σ := σ) hi
    replace hexec := h.symm.trans hexec
    generalize hloop : exec (spied seeReg) n (.repeatUntil (tripPass ep))
      (s₁.writeReg .ENDPTSETUPSTAT 1, σ.tail) = r at hexec
    obtain ⟨res, post, ms₁⟩ := r
    obtain ⟨rfl, rfl, rfl⟩ := Out.mk.inj hexec
    -- what happens before the loop is shown first, and is all there is before it
    refine (ReadsLast.prepend ?_).readsNewest
    have hread := exec_tripLoop hq hloop
    have hs₁ : (s₁.writeReg .ENDPTSETUPSTAT 1).setupBuffer =
        newest s.setupBuffer (arrivedPackets es) := h₁.buffer
    rw [hs₁, hbuffer] at hread
    rw [packets_append, packets_accesses, List.append_nil]
    exact hread
  · intro n hn
    obtain ⟨s₁, es, h₁, hexec⟩ := exec_readSetup seeReg (n := n) (s := s) (σ := σ) hi
    -- each further pass has seen a packet arrive, and no more arrive than `σ` holds
    obtain ⟨v, y, ms, hloop⟩ := exists_iterate_ok seeReg (k := n) (n := n) (σ := σ.tail)
      (s := s₁.writeReg .ENDPTSETUPSTAT 1) hq (by rw [List.length_tail]; split <;> omega)
    refine ⟨v, y, shown es ++ seen seeReg s₁ (.writeReg .ENDPTSETUPSTAT 1) ++ (ms ++ []),
      hexec.trans ?_⟩
    rw [Prog.repeatUntil, exec, hloop]
    rfl

/-- A packet between the two halves of the first pass, one between the load of
    the second pass and its check, and one after the last check. -/
def tripSchedule : List (List HwEvent) :=
  [[], [], [], [], [.setup 2], [], [], [], [], [], [.setup 3], [], [], [], [], [], [], [.setup 4]]

/-- A packet has arrived before; of the three that arrive during `read_setup` the
    second is returned, and the third is flagged. -/
theorem readSetup_newest_device :
    ∃ v y ms, exec usbSpied 20 (deviceEndpoint .ep0Out 0 .Control).readSetup
        ((HwEvent.setup 1).apply device, tripSchedule) = ⟨.ok v, y, ms⟩ ∧
      v = 3 ∧ y.1.setupPending = true ∧ ReadsNewest 1 v ms y.1 := by
  have harrived : BusyStep (fun _ => True) device (.step (.hw (.setup 1)))
      ((HwEvent.setup 1).apply device) := .step (.hw trivial) fun h => h
  obtain ⟨hnewest, hreturns⟩ := readSetup_newest device_booted device_ep0Out (.single harrived)
    tripSchedule
  obtain ⟨v, y, ms, h⟩ := hreturns 20 (by decide)
  have hres : (exec usbSpied 20 (deviceEndpoint .ep0Out 0 .Control).readSetup
        ((HwEvent.setup 1).apply device, tripSchedule)).res = .ok 3 ∧
      (exec usbSpied 20 (deviceEndpoint .ep0Out 0 .Control).readSetup
        ((HwEvent.setup 1).apply device, tripSchedule)).post.1.setupPending = true := by
    decide +kernel
  rw [h] at hres
  exact ⟨v, y, ms, h, Res.ok.inj hres.1, hres.2, hnewest 20 v y ms h⟩

end ImxrtUsbd
