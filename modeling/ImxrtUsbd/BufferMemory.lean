/-
  ImxrtUsbd.BufferMemory

  The endpoint memory allocator, over any sequence of requests.

  The buffers granted lie one below the other, from the end of the region
  down to the free memory (`Tiles`); everything else about them follows from
  that.  `PtrAllocator` is the allocator on 32-bit pointers: as long as the
  region ends below 2^32, no pointer computation wraps.
-/
import ImxrtUsbd.Descriptor

namespace ImxrtUsbd

namespace Allocator

/-- Make requests in order. -/
def allocateAll (self : Allocator) : List Nat → List (Option Buffer) × Allocator
  | [] => ([], self)
  | size :: sizes =>
    let (buffer, self) := self.allocate size
    let (buffers, self) := self.allocateAll sizes
    (buffer :: buffers, self)

/-- The buffers granted on the way. -/
def granted (self : Allocator) (sizes : List Nat) : List Buffer :=
  (self.allocateAll sizes).1.filterMap id

end Allocator

/-- Each buffer ends where the one before it starts; the first ends at `top`,
    the last starts at `bottom`. -/
def Tiles (bottom : Nat) : Nat → List Buffer → Prop
  | top, [] => top = bottom
  | top, b :: bs => b.ptr + b.len = top ∧ Tiles bottom b.ptr bs

/-- No address is in both buffers. -/
def Buffer.Disjoint (b c : Buffer) : Prop :=
  b.ptr + b.len ≤ c.ptr ∨ c.ptr + c.len ≤ b.ptr

/-- How much memory is granted. -/
def totalLen (bs : List Buffer) : Nat := (bs.map Buffer.len).sum

/-! ## Tilings -/

section Tiles

variable {bottom top : Nat} {bs cs : List Buffer} {b : Buffer}

theorem Tiles.top_eq (h : Tiles bottom top bs) : top = bottom + totalLen bs := by
  induction bs generalizing top with
  | nil => exact h
  | cons b bs ih =>
    obtain ⟨hend, hrest⟩ := h
    have := ih hrest
    show top = bottom + (b.len + totalLen bs)
    omega

/-- Every buffer lies between the ends. -/
theorem Tiles.mem (h : Tiles bottom top bs) (hb : b ∈ bs) :
    bottom ≤ b.ptr ∧ b.ptr + b.len ≤ top := by
  induction bs generalizing top with
  | nil => simp at hb
  | cons c bs ih =>
    obtain ⟨hend, hrest⟩ := h
    have htop := hrest.top_eq
    rcases List.mem_cons.mp hb with rfl | hb
    · omega
    · have := ih hrest hb
      omega

/-- Later buffers lie below the earlier ones. -/
theorem Tiles.pairwise (h : Tiles bottom top bs) :
    bs.Pairwise fun b c => c.ptr + c.len ≤ b.ptr := by
  induction bs generalizing top with
  | nil => exact .nil
  | cons b bs ih =>
    obtain ⟨-, hrest⟩ := h
    exact .cons (fun c hc => (hrest.mem hc).2) (ih hrest)

/-- No address between the ends is left out. -/
theorem Tiles.covers (h : Tiles bottom top bs) (x : Nat) :
    (bottom ≤ x ∧ x < top) ↔ ∃ b ∈ bs, b.ptr ≤ x ∧ x < b.ptr + b.len := by
  induction bs generalizing top with
  | nil =>
    have htop : top = bottom := h
    simp only [List.not_mem_nil, false_and, exists_false, iff_false]
    omega
  | cons b bs ih =>
    obtain ⟨hend, hrest⟩ := h
    have htop := hrest.top_eq
    have hcov := ih hrest
    simp only [List.mem_cons, exists_eq_or_imp, ← hcov]
    omega

theorem Tiles.snoc (h : Tiles bottom top bs) {c : Buffer} (hc : c.ptr + c.len = bottom) :
    Tiles c.ptr top (bs ++ [c]) := by
  induction bs generalizing top with
  | nil =>
    have htop : top = bottom := h
    exact ⟨hc.trans htop.symm, rfl⟩
  | cons b bs ih => exact ⟨h.1, ih h.2⟩

end Tiles

/-! ## The allocator -/

namespace Allocator

/-- A request is granted exactly if it fits into the free memory. -/
theorem allocate_eq (a : Allocator) (size : Nat) :
    a.allocate size =
      if a.start + size ≤ a.ptr then (some ⟨a.ptr - size, size⟩, { a with ptr := a.ptr - size })
      else (none, a) := by
  unfold allocate
  split
  · -- larger than the address itself
    rw [if_neg (by omega)]
  · dsimp only
    split
    · rw [if_neg (by omega)]
    · rw [if_pos (by omega)]

theorem granted_append (a : Allocator) (sizes : List Nat) (size : Nat) :
    a.granted (sizes ++ [size]) =
      a.granted sizes ++ ((a.allocateAll sizes).2.allocate size).1.toList := by
  unfold granted
  induction sizes generalizing a with
  | nil =>
    show List.filterMap id [(a.allocate size).1] = (a.allocate size).1.toList
    cases (a.allocate size).1 <;> rfl
  | cons n sizes ih =>
    show List.filterMap id ((a.allocate n).1 :: ((a.allocate n).2.allocateAll (sizes ++ [size])).1)
      = List.filterMap id ((a.allocate n).1 :: ((a.allocate n).2.allocateAll sizes).1) ++ _
    rw [List.filterMap_cons, List.filterMap_cons, ih]
    cases (a.allocate n).1 <;> rfl

theorem allocateAll_append (a : Allocator) (sizes : List Nat) (size : Nat) :
    (a.allocateAll (sizes ++ [size])).2 = ((a.allocateAll sizes).2.allocate size).2 := by
  induction sizes generalizing a with
  | nil => rfl
  | cons n sizes ih => exact ih (a.allocate n).2

/-- After any requests, the granted buffers tile the region down to the free memory. -/
theorem tiles_granted (start len : Nat) (sizes : List Nat) :
    ((fromBuffer start len).allocateAll sizes).2.start = start ∧
      start ≤ ((fromBuffer start len).allocateAll sizes).2.ptr ∧
      Tiles ((fromBuffer start len).allocateAll sizes).2.ptr (start + len)
        ((fromBuffer start len).granted sizes) := by
  induction sizes using List.reverseRecOn with
  | nil => exact ⟨rfl, Nat.le_add_right _ _, rfl⟩
  | append_singleton sizes size ih =>
    obtain ⟨hstart, hle, htiles⟩ := ih
    rw [allocateAll_append, granted_append, allocate_eq]
    split
    · refine ⟨hstart, ?_, Tiles.snoc
        (c := ⟨((fromBuffer start len).allocateAll sizes).2.ptr - size, size⟩) htiles ?_⟩
      · show start ≤ _ - size
        omega
      · show _ - size + size = _
        omega
    · rw [Option.toList_none, List.append_nil]
      exact ⟨hstart, hle, htiles⟩

end Allocator

/-! ## Pointers -/

/-- The allocator with its pointers as the processor has them. -/
structure PtrAllocator where
  start : Word
  ptr : Word

namespace PtrAllocator

/-- `start.add(buffer.len())` could wrap. -/
def fromBuffer (start len : Word) : PtrAllocator := ⟨start, start + len⟩

def allocate (self : PtrAllocator) (size : Word) : Option (Word × Word) × PtrAllocator :=
  -- `checked_sub`
  if self.ptr < size then
    (none, self)
  else
    let ptr := self.ptr - size
    if ptr < self.start then (none, self) else (some (ptr, size), { self with ptr })

def allocateAll (self : PtrAllocator) : List Word → List (Option (Word × Word)) × PtrAllocator
  | [] => ([], self)
  | size :: sizes =>
    let (buffer, self) := self.allocate size
    let (buffers, self) := self.allocateAll sizes
    (buffer :: buffers, self)

/-- The numbers the pointers stand for. -/
def nums (self : PtrAllocator) : Allocator := ⟨self.start.toNat, self.ptr.toNat⟩

/-- The buffer a pair of words stands for. -/
def buffer (b : Word × Word) : Buffer := ⟨b.1.toNat, b.2.toNat⟩

theorem allocate_nums (a : PtrAllocator) (size : Word) :
    a.nums.allocate size.toNat = ((a.allocate size).1.map buffer, (a.allocate size).2.nums) := by
  unfold allocate Allocator.allocate nums
  by_cases h : a.ptr < size
  · have hn : a.ptr.toNat < size.toNat := h
    rw [if_pos h, if_pos hn]
    rfl
  · have hn : ¬ a.ptr.toNat < size.toNat := h
    have hsub : (a.ptr - size).toNat = a.ptr.toNat - size.toNat :=
      BitVec.toNat_sub_of_le (BitVec.not_lt.mp h)
    rw [if_neg h, if_neg hn]
    dsimp only
    by_cases hs : a.ptr - size < a.start
    · have hsn : a.ptr.toNat - size.toNat < a.start.toNat := hsub ▸ hs
      rw [if_pos hs, if_pos hsn]
      rfl
    · have hsn : ¬ a.ptr.toNat - size.toNat < a.start.toNat := hsub ▸ hs
      rw [if_neg hs, if_neg hsn]
      simp [buffer, hsub]

/-- No subtraction of the allocator wraps. -/
theorem allocateAll_nums (a : PtrAllocator) (sizes : List Word) :
    a.nums.allocateAll (sizes.map BitVec.toNat) =
      ((a.allocateAll sizes).1.map (Option.map buffer), (a.allocateAll sizes).2.nums) := by
  induction sizes generalizing a with
  | nil => rfl
  | cons size sizes ih =>
    rw [List.map_cons, Allocator.allocateAll, allocate_nums]
    dsimp only
    rw [ih]
    rfl

theorem fromBuffer_nums {start len : Word} (h : start.toNat + len.toNat < 2 ^ 32) :
    (fromBuffer start len).nums = .fromBuffer start.toNat len.toNat := by
  have hadd : (start + len).toNat = start.toNat + len.toNat := BitVec.toNat_add_of_lt h
  rw [nums, fromBuffer, hadd]
  rfl

end PtrAllocator

/-- For every region and every sequence of requests: the next request is
    granted exactly if it fits into what has not been granted yet, and a
    refusal changes nothing; the buffers have the lengths requested, lie inside
    the region, are disjoint and tile its top; and on 32-bit pointers the
    allocator computes the same. -/
theorem allocations_tile {start len : Nat} (hregion : start + len < 2 ^ 32) (sizes : List Nat) :
    let a := ((Allocator.fromBuffer start len).allocateAll sizes).2
    let bs := (Allocator.fromBuffer start len).granted sizes
    (∀ size, ((a.allocate size).1.isSome = true ↔ size ≤ len - totalLen bs) ∧
      ((a.allocate size).1 = none → (a.allocate size).2 = a) ∧
      ∀ b, (a.allocate size).1 = some b → b.len = size) ∧
    (∀ b ∈ bs, start ≤ b.ptr ∧ b.ptr + b.len ≤ start + len) ∧
    bs.Pairwise Buffer.Disjoint ∧
    Tiles (start + len - totalLen bs) (start + len) bs ∧
    ∀ ws : List Word, sizes = ws.map BitVec.toNat →
      (Allocator.fromBuffer start len).allocateAll sizes =
        (((PtrAllocator.fromBuffer (BitVec.ofNat 32 start) (BitVec.ofNat 32 len)).allocateAll
            ws).1.map (Option.map PtrAllocator.buffer),
          ((PtrAllocator.fromBuffer (BitVec.ofNat 32 start) (BitVec.ofNat 32 len)).allocateAll
            ws).2.nums) := by
  obtain ⟨hstart, hle, htiles⟩ := Allocator.tiles_granted start len sizes
  have htop := htiles.top_eq
  refine ⟨fun size => ?_, fun b hb => ?_, ?_, ?_, fun ws hws => ?_⟩
  · rw [Allocator.allocate_eq]
    split
    · refine ⟨iff_of_true rfl (by omega), fun h => by simp at h, fun b hb => ?_⟩
      rw [← Option.some.inj hb]
    · exact ⟨iff_of_false (by simp) (by omega), fun _ => rfl, fun b hb => by simp at hb⟩
  · have := htiles.mem hb
    omega
  · exact htiles.pairwise.imp fun h => Or.inr h
  · have hbottom : start + len - totalLen ((Allocator.fromBuffer start len).granted sizes) =
        ((Allocator.fromBuffer start len).allocateAll sizes).2.ptr := by omega
    rwa [hbottom]
  -- no address of the region wraps, so words and numbers agree
  · have hs : (BitVec.ofNat 32 start).toNat = start := by
      rw [BitVec.toNat_ofNat]
      omega
    have hl : (BitVec.ofNat 32 len).toNat = len := by
      rw [BitVec.toNat_ofNat]
      omega
    have hwords : (BitVec.ofNat 32 start).toNat + (BitVec.ofNat 32 len).toNat < 2 ^ 32 := by
      rw [hs, hl]
      exact hregion
    have hnums := PtrAllocator.fromBuffer_nums hwords
    rw [hs, hl] at hnums
    rw [hws, ← hnums]
    exact PtrAllocator.allocateAll_nums _ ws

/-- A region of 32 bytes: the third request does not fit, the fourth does. -/
theorem allocations_tile_small :
    let a := (Allocator.fromBuffer 0x20200000 32).allocateAll [7, 7, 19, 18]
    a.1 = [some ⟨0x20200019, 7⟩, some ⟨0x20200012, 7⟩, none, some ⟨0x20200000, 18⟩] ∧
      (a.2.allocate 1).1.isSome = false ∧ (a.2.allocate 0).1.isSome = true ∧
      ((Allocator.fromBuffer 0x20200000 32).granted [7, 7, 19, 18]).Pairwise Buffer.Disjoint := by
  have hregion : 0x20200000 + 32 < 2 ^ 32 := by omega
  have hsound := allocations_tile hregion [7, 7, 19, 18]
  exact ⟨by decide, by decide, by decide, hsound.2.2.1⟩

end ImxrtUsbd
