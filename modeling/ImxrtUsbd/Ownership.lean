/-
  ImxrtUsbd.Ownership

  Who owns the static memory.  `EndpointState` and `EndpointMemory` are statics
  that any constructor may be given; each keeps a flag that says whether it was
  taken, and `Driver::new` panics if it was.

  Over every sequence of constructions: one fails just if its state was given
  to an earlier one, or its memory to an earlier one that got so far
  (`construction_eq`).  No two drivers share a state or a byte of endpoint
  memory (`drivers_apart`), and every driver starts as all the results about
  the driver take it to start (`constructed_powerOn`).
-/
import ImxrtUsbd.Boot
import ImxrtUsbd.BufferMemory

namespace ImxrtUsbd

open Lib

/-! ## buffer.rs, driver.rs -/

/-- The static; its bytes are those of the memory from `buffer` on. -/
structure EndpointMemory where
  buffer : Nat
  SIZE : Nat
  taken : Bool
  deriving DecidableEq, Repr

namespace EndpointMemory

def new (buffer SIZE : Nat) : EndpointMemory := ⟨buffer, SIZE, false⟩

/-- Acquire the allocator; `none` if it has already been taken. -/
def allocator (self : EndpointMemory) : Option Allocator × EndpointMemory :=
  -- `taken.swap(true)`
  (if self.taken then none else some (.fromBuffer self.buffer self.SIZE),
    { self with taken := true })

end EndpointMemory

/-- The statics of a program. -/
structure Statics where
  state : Nat → EndpointState
  memory : Nat → EndpointMemory

def stateAssigned : String := "Endpoint state already assigned"

def memoryAssigned : String := "Endpoint memory already assigned"

/-- `Driver::new`, for the statics of these numbers; an error is a panic. -/
def Driver.new (memory state : Nat) (x : Statics) : Except String Driver × Statics :=
  let (epAllocator, taken) := (x.state state).allocator
  let x := { x with state := Function.update x.state state taken }
  match epAllocator with
  | none => (.error stateAssigned, x)
  | some epAllocator =>
    let (bufferAllocator, taken) := (x.memory memory).allocator
    let x := { x with memory := Function.update x.memory memory taken }
    match bufferAllocator with
    | none => (.error memoryAssigned, x)
    | some bufferAllocator => (.ok { bufferAllocator, epAllocator, epOut := 0 }, x)

/-! ## Histories -/

/-- The allocator of the state was taken. -/
def EndpointState.Taken (s : EndpointState) : Prop := s.allocMask.getLsbD 31 = true

instance (s : EndpointState) : Decidable s.Taken := inferInstanceAs (Decidable (_ = _))

inductive StaticLabel where
  | new (memory state : Nat) (r : Except String Driver)
  /-- The owner of a state allocates endpoints, in the low half of the mask. -/
  | allocate (state : Nat) (mask : BitVec 16) (epList : Nat → Option Endpoint)

/-- The label is of a construction with this state. -/
def StaticLabel.TriesState (e : Nat) : StaticLabel → Prop
  | .new _ state _ => state = e
  | .allocate _ _ _ => False

/-- The label is of a construction that got as far as this memory. -/
def StaticLabel.TriesMemory (m : Nat) : StaticLabel → Prop
  | .new memory _ (.ok _) => memory = m
  | .new memory _ (.error err) => memory = m ∧ err ≠ stateAssigned
  | .allocate _ _ _ => False

instance (e : Nat) : DecidablePred (StaticLabel.TriesState e)
  | .new _ state _ => inferInstanceAs (Decidable (state = e))
  | .allocate _ _ _ => inferInstanceAs (Decidable False)

instance (m : Nat) : DecidablePred (StaticLabel.TriesMemory m)
  | .new memory _ (.ok _) => inferInstanceAs (Decidable (memory = m))
  | .new memory _ (.error err) => inferInstanceAs (Decidable (memory = m ∧ err ≠ stateAssigned))
  | .allocate _ _ _ => inferInstanceAs (Decidable False)

/-- The state after its owner allocated endpoints. -/
def EndpointState.allocated (s : EndpointState) (mask : BitVec 16)
    (epList : Nat → Option Endpoint) : EndpointState :=
  { s with allocMask := s.allocMask ||| mask.setWidth 32, epList }

inductive StaticStep (x : Statics) : StaticLabel → Statics → Prop where
  | new (memory state : Nat) :
      StaticStep x (.new memory state (Driver.new memory state x).1)
        (Driver.new memory state x).2
  | allocate {e : Nat} (mask : BitVec 16) (epList : Nat → Option Endpoint) :
      (x.state e).Taken →
      StaticStep x (.allocate e mask epList)
        { x with state := Function.update x.state e ((x.state e).allocated mask epList) }

/-- The statics as the program starts: in different places, and none of them taken. -/
structure Statics.Fresh (x : Statics) : Prop where
  state : ∀ e, ∃ COUNT qhList tdList, x.state e = .new COUNT qhList tdList
  memory : ∀ m, (x.memory m).taken = false
  apart : ∀ m m', m ≠ m' → (x.memory m).buffer + (x.memory m).SIZE ≤ (x.memory m').buffer ∨
    (x.memory m').buffer + (x.memory m').SIZE ≤ (x.memory m).buffer

section Ownership

variable {x₀ x : Statics} {tr : Hist Statics StaticLabel} {m e : Nat}

/-! ## One construction -/

theorem allocator_eq (s : EndpointState) :
    s.allocator.1 = (if s.Taken then none else some s.allocator.2) ∧ s.allocator.2.Taken := by
  have hflag : (s.allocMask &&& EndpointState.ALLOCATOR_TAKEN == 0) =
      !s.allocMask.getLsbD 31 := by
    have hbit := Field.and_bit_ne_zero s.allocMask (i := 31) (by decide)
    have hflag : EndpointState.ALLOCATOR_TAKEN = (1#32 <<< 31) := rfl
    rw [hflag, ← hbit, bne, Bool.not_not]
  constructor
  · rw [EndpointState.allocator, hflag]
    by_cases h : s.Taken
    · have hbit : s.allocMask.getLsbD 31 = true := h
      rw [if_pos h, hbit]
      rfl
    · have hbit : s.allocMask.getLsbD 31 = false := by simpa [EndpointState.Taken] using h
      rw [if_neg h, hbit]
      rfl
  · show (s.allocMask ||| EndpointState.ALLOCATOR_TAKEN).getLsbD 31 = true
    rw [BitVec.getLsbD_or]
    exact Bool.or_true _

/-- What `Driver::new` does, in the two flags. -/
theorem new_eq (m e : Nat) (x : Statics) :
    Driver.new m e x =
      if (x.state e).Taken then
        (.error stateAssigned,
          { x with state := Function.update x.state e (x.state e).allocator.2 })
      else if (x.memory m).taken then
        (.error memoryAssigned,
          { state := Function.update x.state e (x.state e).allocator.2
            memory := Function.update x.memory m { x.memory m with taken := true } })
      else
        (.ok { bufferAllocator := .fromBuffer (x.memory m).buffer (x.memory m).SIZE
               epAllocator := (x.state e).allocator.2
               epOut := 0 },
          { state := Function.update x.state e (x.state e).allocator.2
            memory := Function.update x.memory m { x.memory m with taken := true } }) := by
  obtain ⟨hsome, -⟩ := allocator_eq (x.state e)
  have hpair : (x.state e).allocator =
      (if (x.state e).Taken then none else some (x.state e).allocator.2,
        (x.state e).allocator.2) := Prod.ext hsome rfl
  rw [Driver.new, hpair]
  by_cases ht : (x.state e).Taken
  · rw [if_pos ht, if_pos ht]
  · rw [if_neg ht, if_neg ht]
    cases hm : (x.memory m).taken with
    | true => simp [EndpointMemory.allocator, hm]
    | false => simp [EndpointMemory.allocator, hm]

/-! ## Histories -/

/-- Where the flags come from: each is set by the constructions before, and
    nothing else becomes of a static that was never tried. -/
structure Statics.Owned (x₀ x : Statics) (tr : Hist Statics StaticLabel) : Prop where
  state : ∀ e, (x.state e).Taken ↔ ∃ y ∈ tr, y.2.TriesState e
  memory : ∀ m, (x.memory m).taken = true ↔ ∃ y ∈ tr, y.2.TriesMemory m
  kept : ∀ e, ¬ (x.state e).Taken → x.state e = x₀.state e
  place : ∀ m, (x.memory m).buffer = (x₀.memory m).buffer ∧ (x.memory m).SIZE = (x₀.memory m).SIZE

/-- Did one of these, or the last. -/
theorem exists_mem_snoc {φ : StaticLabel → Prop} {y : Statics} {l : StaticLabel} :
    (∃ z ∈ tr ++ [(y, l)], φ z.2) ↔ (∃ z ∈ tr, φ z.2) ∨ φ l := by
  simp only [List.mem_append, List.mem_singleton]
  constructor
  · rintro ⟨z, hz | rfl, hφ⟩
    · exact Or.inl ⟨z, hz, hφ⟩
    · exact Or.inr hφ
  · rintro (⟨z, hz, hφ⟩ | hφ)
    · exact ⟨z, Or.inl hz, hφ⟩
    · exact ⟨(y, l), Or.inr rfl, hφ⟩

theorem not_taken_new (COUNT qhList tdList : Nat) :
    ¬ (EndpointState.new COUNT qhList tdList).Taken := by
  intro h
  have h : (0 : Word).getLsbD 31 = true := h
  exact absurd h (by decide)

/-- The flags of a construction, whatever came of it. -/
theorem new_flags (m e : Nat) (x : Statics) :
    (∀ e', ((Driver.new m e x).2.state e').Taken ↔ (x.state e').Taken ∨ e = e') ∧
      (∀ m', ((Driver.new m e x).2.memory m').taken = true ↔ (x.memory m').taken = true ∨
        (StaticLabel.new m e (Driver.new m e x).1).TriesMemory m') ∧
      (∀ e', e ≠ e' → (Driver.new m e x).2.state e' = x.state e') ∧
      ∀ m', ((Driver.new m e x).2.memory m').buffer = (x.memory m').buffer ∧
        ((Driver.new m e x).2.memory m').SIZE = (x.memory m').SIZE := by
  -- the endpoint state is asked first, the memory only if that was granted
  have hstate : (Driver.new m e x).2.state =
      Function.update x.state e (x.state e).allocator.2 := by
    rw [new_eq]
    split
    · rfl
    · split <;> rfl
  have hne : memoryAssigned ≠ stateAssigned := by decide
  refine ⟨fun e' => ?_, fun m' => ?_, fun e' he => ?_, fun m' => ?_⟩
  · rw [hstate]
    by_cases he : e' = e
    · subst he
      rw [Function.update_self]
      exact iff_of_true (allocator_eq _).2 (Or.inr rfl)
    · rw [Function.update_of_ne he]
      exact ⟨Or.inl, fun h => h.resolve_right fun h => he h.symm⟩
  · rw [new_eq]
    split
    · exact ⟨Or.inl, fun h => h.resolve_right fun h => h.2 rfl⟩
    -- the memory is taken, granted or refused
    · have hmem : (Function.update x.memory m { x.memory m with taken := true } m').taken = true ↔
          (x.memory m').taken = true ∨ m = m' := by
        by_cases hm : m' = m
        · subst hm
          rw [Function.update_self]
          exact iff_of_true rfl (Or.inr rfl)
        · rw [Function.update_of_ne hm]
          exact ⟨Or.inl, fun h => h.resolve_right fun h => hm h.symm⟩
      split
      · exact hmem.trans (or_congr_right ⟨fun h => ⟨h, hne⟩, fun h => h.1⟩)
      · exact hmem
  · rw [hstate, Function.update_of_ne (Ne.symm he)]
  · rw [new_eq]
    split
    · exact ⟨rfl, rfl⟩
    · split <;> by_cases hm : m' = m
      · subst hm
        simp
      · simp [hm]
      · subst hm
        simp
      · simp [hm]

theorem StaticStep.owned {x' : Statics} {l : StaticLabel} (h : x₀.Owned x tr)
    (hs : StaticStep x l x') : x₀.Owned x' (tr ++ [(x, l)]) := by
  cases hs with
  | new m e =>
    obtain ⟨hstate, hmemory, hkept, hplace⟩ := new_flags m e x
    refine ⟨fun e' => ?_, fun m' => ?_, fun e' he => ?_, fun m' => ?_⟩
    · rw [hstate, h.state, exists_mem_snoc]
      exact Iff.rfl
    · rw [hmemory, h.memory, exists_mem_snoc]
    · rw [hstate, not_or] at he
      rw [hkept e' he.2]
      exact h.kept e' he.1
    · rw [(hplace m').1, (hplace m').2]
      exact h.place m'
  | @allocate e mask epList htaken =>
    -- a bit once set stays set
    have hbit : ((x.state e).allocated mask epList).Taken := by
      show ((x.state e).allocMask ||| mask.setWidth 32).getLsbD 31 = true
      have htaken : (x.state e).allocMask.getLsbD 31 = true := htaken
      rw [BitVec.getLsbD_or, htaken, Bool.true_or]
    refine ⟨fun e' => ?_, fun m' => ?_, fun e' he => ?_, h.place⟩
    · rw [exists_mem_snoc, ← h.state]
      by_cases hee : e' = e
      · subst hee
        show (Function.update x.state e' _ e').Taken ↔ _
        rw [Function.update_self]
        exact iff_of_true hbit (Or.inl htaken)
      · show (Function.update x.state e _ e').Taken ↔ _
        rw [Function.update_of_ne hee]
        exact ⟨Or.inl, fun h => h.resolve_right id⟩
    · rw [exists_mem_snoc]
      exact (h.memory m').trans ⟨Or.inl, fun h => h.resolve_right id⟩
    · have he : ¬ (Function.update x.state e ((x.state e).allocated mask epList) e').Taken := he
      have hee : e' ≠ e := by
        rintro rfl
        rw [Function.update_self] at he
        exact he hbit
      rw [Function.update_of_ne hee] at he
      show Function.update x.state e _ e' = _
      rw [Function.update_of_ne hee]
      exact h.kept e' he

theorem owned_run (h : x₀.Fresh) (hrun : Run StaticStep x₀ tr x) : x₀.Owned x tr := by
  induction hrun with
  | nil =>
    refine ⟨fun e => ?_, fun m => ?_, fun _ _ => rfl, fun _ => ⟨rfl, rfl⟩⟩
    · obtain ⟨COUNT, qhList, tdList, he⟩ := h.state e
      rw [he]
      exact iff_of_false (not_taken_new _ _ _) (by simp)
    · exact iff_of_false (by rw [h.memory m]; exact Bool.false_ne_true) (by simp)
  | snoc _ hs ih => exact hs.owned ih

/-! ## Constructions -/

/-- A construction that succeeds gets what its statics had at the start. -/
theorem Statics.Owned.new_ok {d : Driver} (h : x₀.Owned x tr)
    (hd : (Driver.new m e x).1 = .ok d) :
    (∀ y ∈ tr, ¬ y.2.TriesState e) ∧ (∀ y ∈ tr, ¬ y.2.TriesMemory m) ∧
      d = { bufferAllocator := .fromBuffer (x₀.memory m).buffer (x₀.memory m).SIZE
            epAllocator := (x₀.state e).allocator.2
            epOut := 0 } := by
  rw [new_eq] at hd
  by_cases hstate : (x.state e).Taken
  · rw [if_pos hstate] at hd
    cases hd
  · rw [if_neg hstate] at hd
    by_cases hmemory : (x.memory m).taken = true
    · rw [if_pos hmemory] at hd
      cases hd
    · rw [if_neg hmemory] at hd
      have hd := Except.ok.inj hd
      rw [(h.place m).1, (h.place m).2, h.kept e hstate] at hd
      refine ⟨fun y hy hl => hstate ?_, fun y hy hl => hmemory ?_, hd.symm⟩
      · exact (h.state e).mpr ⟨y, hy, hl⟩
      · exact (h.memory m).mpr ⟨y, hy, hl⟩

/-- A driver in the history has the memory that it was constructed with. -/
theorem driver_memory (h : x₀.Fresh) (hrun : Run StaticStep x₀ tr x) {y : Statics × StaticLabel}
    {d : Driver} (hy : y ∈ tr) (hl : y.2 = .new m e (.ok d)) :
    d.bufferAllocator = .fromBuffer (x₀.memory m).buffer (x₀.memory m).SIZE := by
  induction hrun with
  | nil => simp at hy
  | @snoc tr x x' l hrun hs ih =>
    rcases List.mem_append.mp hy with hy | hy
    · exact ih hy
    · obtain rfl := List.mem_singleton.mp hy
      have hl : l = .new m e (.ok d) := hl
      subst hl
      generalize hr : Except.ok d = r at hs
      cases hs with
      | new =>
        obtain ⟨-, -, hd⟩ := (owned_run h hrun).new_ok hr.symm
        rw [hd]

/-- Memory of different places is never granted twice. -/
theorem granted_apart (h : x₀.Fresh) {m' : Nat} (hne : m ≠ m') (sizes sizes' : List Nat) :
    ∀ b ∈ (Allocator.fromBuffer (x₀.memory m).buffer (x₀.memory m).SIZE).granted sizes,
      ∀ b' ∈ (Allocator.fromBuffer (x₀.memory m').buffer (x₀.memory m').SIZE).granted sizes',
        b.Disjoint b' := by
  intro b hb b' hb'
  obtain ⟨-, hle, htiles⟩ := Allocator.tiles_granted (x₀.memory m).buffer (x₀.memory m).SIZE sizes
  obtain ⟨-, hle', htiles'⟩ :=
    Allocator.tiles_granted (x₀.memory m').buffer (x₀.memory m').SIZE sizes'
  have hin := htiles.mem hb
  have hin' := htiles'.mem hb'
  show b.ptr + b.len ≤ b'.ptr ∨ b'.ptr + b'.len ≤ b.ptr
  rcases h.apart m m' hne with hapart | hapart
  · left
    omega
  · right
    omega

end Ownership

/-- Two memories of 2048 bytes, and as many states as are asked for. -/
def deviceStatics : Statics where
  state := fun e => .new 16 (0x20100000 + 0x2000 * e) (0x20101000 + 0x2000 * e)
  memory := fun m => .new (if m = 0 then 0x20200000 else 0x20200800) (if m < 2 then 2048 else 0)

theorem deviceStatics_fresh : deviceStatics.Fresh where
  state := fun e => ⟨16, 0x20100000 + 0x2000 * e, 0x20101000 + 0x2000 * e, rfl⟩
  memory := fun _ => rfl
  apart := fun m m' hne => by
    simp only [deviceStatics, EndpointMemory.new]
    split <;> split <;> split <;> split <;> omega

/-- After any sequence of constructions and allocations, `Driver::new` panics
    over the state just if an earlier construction was given it, successful or
    not; else over the memory just if an earlier construction got as far as
    that memory; and otherwise the driver has all of the memory, nothing of it
    granted, and the state as the program started with it. -/
theorem construction_eq {x₀ x : Statics} {tr : Hist Statics StaticLabel} (h : x₀.Fresh)
    (hrun : Run StaticStep x₀ tr x) (m e : Nat) :
    ((Driver.new m e x).1 = .error stateAssigned ↔ ∃ y ∈ tr, y.2.TriesState e) ∧
      ((Driver.new m e x).1 = .error memoryAssigned ↔
        (∀ y ∈ tr, ¬ y.2.TriesState e) ∧ ∃ y ∈ tr, y.2.TriesMemory m) ∧
      ((∀ y ∈ tr, ¬ y.2.TriesState e) → (∀ y ∈ tr, ¬ y.2.TriesMemory m) →
        (Driver.new m e x).1 =
          .ok { bufferAllocator := .fromBuffer (x₀.memory m).buffer (x₀.memory m).SIZE
                epAllocator := (x₀.state e).allocator.2
                epOut := 0 }) := by
  -- the flags say what was tried, and untaken state is as it was at first
  have howned := owned_run h hrun
  have hne : stateAssigned ≠ memoryAssigned := by decide
  have hstates : (x.state e).Taken ↔ ∃ y ∈ tr, y.2.TriesState e := howned.state e
  have hmemories : (x.memory m).taken = true ↔ ∃ y ∈ tr, y.2.TriesMemory m := howned.memory m
  rw [new_eq]
  by_cases hstate : (x.state e).Taken
  · obtain ⟨y, hy, hl⟩ := hstates.mp hstate
    rw [if_pos hstate]
    refine ⟨iff_of_true rfl ⟨y, hy, hl⟩, iff_of_false ?_ fun h => h.1 y hy hl, ?_⟩
    · exact fun h => hne (Except.error.inj h)
    · exact fun h => absurd hl (h y hy)
  · have hnone : ∀ y ∈ tr, ¬ y.2.TriesState e := fun y hy hl => hstate (hstates.mpr ⟨y, hy, hl⟩)
    rw [if_neg hstate]
    by_cases hmemory : (x.memory m).taken = true
    · obtain ⟨y, hy, hl⟩ := hmemories.mp hmemory
      rw [if_pos hmemory]
      refine ⟨iff_of_false ?_ fun h => hstate (hstates.mpr h),
        iff_of_true rfl ⟨hnone, y, hy, hl⟩, fun _ h => absurd hl (h y hy)⟩
      exact fun h => hne (Except.error.inj h).symm
    · rw [if_neg hmemory]
      refine ⟨iff_of_false (fun h => by cases h) fun h => hstate (hstates.mpr h),
        iff_of_false (fun h => by cases h) fun h => hmemory (hmemories.mpr h.2), fun _ _ => ?_⟩
      rw [(howned.place m).1, (howned.place m).2, howned.kept e hstate]

/-- The second construction loses its state over the memory of the first, so
    that the memory that is left needs a third state. -/
theorem construction_eq_device :
    ∃ (x : Statics) (tr : Hist Statics StaticLabel), Run StaticStep deviceStatics tr x ∧
      (Driver.new 1 1 x).1 = .error stateAssigned ∧
      (Driver.new 0 2 x).1 = .error memoryAssigned ∧
      (Driver.new 1 2 x).1 =
        .ok { bufferAllocator := .fromBuffer 0x20200800 2048
              epAllocator := (deviceStatics.state 2).allocator.2
              epOut := 0 } := by
  -- the first construction succeeds, the second is refused the memory
  have hrun := (Run.nil.snoc (StaticStep.new (x := deviceStatics) 0 0)).snoc (.new 0 1)
  have hsecond := List.mem_append_right
    [(deviceStatics, StaticLabel.new 0 0 (Driver.new 0 0 deviceStatics).1)]
    (List.mem_singleton_self ((Driver.new 0 0 deviceStatics).2,
      StaticLabel.new 0 1 (Driver.new 0 1 (Driver.new 0 0 deviceStatics).2).1))
  refine ⟨_, _, hrun, ?_, ?_, ?_⟩
  · exact (construction_eq deviceStatics_fresh hrun 1 1).1.mpr ⟨_, hsecond, rfl⟩
  · refine (construction_eq deviceStatics_fresh hrun 0 2).2.1.mpr ⟨?_, _, hsecond, rfl, ?_⟩
    · intro y hy
      rcases List.mem_append.mp hy with hy | hy
      all_goals
        simp at hy
        subst hy
        decide
    · decide
  · refine (construction_eq deviceStatics_fresh hrun 1 2).2.2 ?_ ?_
    all_goals
      intro y hy
      rcases List.mem_append.mp hy with hy | hy
      all_goals
        simp at hy
        subst hy
        decide

/-- Any two drivers that a program constructs, whatever it did before, between
    and after, have different states and different memories, and no byte is in
    a buffer of both, whatever they allocate. -/
theorem drivers_apart {x₀ x : Statics} {tr : Hist Statics StaticLabel} (h : x₀.Fresh)
    (hrun : Run StaticStep x₀ tr x) :
    tr.Pairwise fun y y' => ∀ m e d m' e' d', y.2 = .new m e (.ok d) →
      y'.2 = .new m' e' (.ok d') →
      e ≠ e' ∧ m ≠ m' ∧ ∀ sizes sizes', ∀ b ∈ d.bufferAllocator.granted sizes,
        ∀ b' ∈ d'.bufferAllocator.granted sizes', b.Disjoint b' := by
  induction hrun with
  | nil => exact .nil
  | @snoc tr x x' l hrun hs ih =>
    rw [List.pairwise_append]
    refine ⟨ih, List.pairwise_singleton _ _, ?_⟩
    intro y hy y' hy' m e d m' e' d' hl hl'
    obtain rfl := List.mem_singleton.mp hy'
    have hl' : l = .new m' e' (.ok d') := hl'
    subst hl'
    -- the later construction succeeded, so that the earlier one took neither
    generalize hr : Except.ok d' = r at hs
    cases hs with
    | new =>
      obtain ⟨hstate, hmemory, hd⟩ := (owned_run h hrun).new_ok hr.symm
      have hne : m ≠ m' := by
        rintro rfl
        apply hmemory y hy
        rw [hl]
        rfl
      refine ⟨?_, hne, fun sizes sizes' => ?_⟩
      · rintro rfl
        apply hstate y hy
        rw [hl]
        rfl
      · rw [driver_memory h hrun hy hl, hd]
        exact granted_apart h hne sizes sizes'

/-- Two drivers, and a construction in between that fails. -/
theorem drivers_apart_device :
    ∃ (x : Statics) (tr : Hist Statics StaticLabel) (d d' : Driver),
      Run StaticStep deviceStatics tr x ∧
      tr.map (·.2) = [.new 0 0 (.ok d), .new 0 1 (.error memoryAssigned), .new 1 2 (.ok d')] ∧
      ∀ sizes sizes', ∀ b ∈ d.bufferAllocator.granted sizes,
        ∀ b' ∈ d'.bufferAllocator.granted sizes', b.Disjoint b' := by
  have hrun := ((Run.nil.snoc (StaticStep.new (x := deviceStatics) 0 0)).snoc (.new 0 1)).snoc
    (.new 1 2)
  have hpairs := drivers_apart deviceStatics_fresh hrun
  obtain ⟨-, hlast⟩ := List.pairwise_append.mp hpairs
  obtain ⟨-, happart⟩ := hlast
  refine ⟨_, _, _, _, hrun, rfl, ?_⟩
  exact (happart _ (List.mem_append_left _ (List.mem_singleton_self _)) _
    (List.mem_singleton_self _) 0 0 _ 1 2 _ rfl rfl).2.2

/-- A driver just constructed, with the descriptors of its state and a stack
    in the memory below the processor's own, is at power-on. -/
theorem constructed_powerOn {x₀ x : Statics} {tr : Hist Statics StaticLabel} {m e : Nat} {s : Sys}
    (h : x₀.Fresh) (hrun : Run StaticStep x₀ tr x) (hd : (Driver.new m e x).1 = .ok s.driver)
    (hstack : s.StackOk) (htd : ∀ i, s.td i = Td.new) (hqh : ∀ i, s.qh i = Qh.new)
    (hplace : (x₀.memory m).buffer + (x₀.memory m).SIZE < 0xE0000000) : s.PowerOn := by
  obtain ⟨-, -, hnew⟩ := (owned_run h hrun).new_ok hd
  obtain ⟨COUNT, qhList, tdList, hstate⟩ := h.state e
  have halloc := allocator_new COUNT qhList tdList
  obtain ⟨hsome, -⟩ := allocator_eq (EndpointState.new COUNT qhList tdList)
  rw [if_neg (not_taken_new _ _ _)] at hsome
  refine ⟨hstack, htd, hqh, ?_, ⟨COUNT, qhList, tdList, ?_⟩, ⟨_, _, ?_, hplace⟩⟩
  · rw [hnew]
  · rw [hsome, hnew, hstate]
  · rw [hnew]

end ImxrtUsbd
