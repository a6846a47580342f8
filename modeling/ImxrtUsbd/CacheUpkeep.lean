/-
  ImxrtUsbd.CacheUpkeep

  What the driver does for the cache: which addresses it stores to, which lines
  it maintains, and when it primes (`upkeep`).

  The number of lines that `clean_invalidate_dcache_by_address` visits is
  computed from the size alone, so a range that starts late in a line and ends
  early in another loses its last line (`maintained_covers_iff`).  The allocator
  grants buffers at any address, and what is written to one is maintained as a
  whole exactly if it does not end so (`write_maintained_iff`).
-/
import ImxrtUsbd.BufferMemory
import ImxrtUsbd.OutCoherence

namespace ImxrtUsbd

open Lib

/-! ## Stores and maintenance -/

/-- What matters to the cache. -/
inductive Upkeep where
  | stored (addr : Nat)
  | maintained (line : Nat)
  | primed
  deriving DecidableEq, Repr

def seeUpkeep (L : Layout) : {β : Type} → Access β → List Upkeep
  | _, .storeTd t w _ => [.stored (L.addr (.td t w))]
  | _, .storeCapabilities i _ => [.stored (L.addr (.capabilities i))]
  | _, .storeByte a _ => [.stored a]
  | _, .dccimvac addr => [.maintained (addr.toNat / 32)]
  | _, .writeReg r _ => if r = .ENDPTPRIME then [.primed] else []
  | _, .readReg _ | _, .loadTd _ _ | _, .loadCapabilities _ | _, .loadSetup _ _
  | _, .loadByte _ | _, .addrOfSelf | _, .getDriver | _, .setDriver _ => []

/-- The system, with the stack slots that the coming `self` references are in. -/
def upkeepAct (L : Layout) :
    {β : Type} → Access β → Sys × List Nat → β × (Sys × List Nat) × List Upkeep
  | _, .addrOfSelf, x => (x.2.headD x.1.stack, (x.1, x.2.tail), [])
  | _, e, x => ((usbAct e x.1).1, ((usbAct e x.1).2.1, x.2), seeUpkeep L e)

def upkeep (L : Layout) : Machine Access (Sys × List Nat) Upkeep := ⟨upkeepAct L⟩

/-- The lines that maintenance of `size` bytes from `addr` on visits. -/
def linesOf (addr size : Nat) : List Nat :=
  if size = 0 then [] else (List.range ((size - 1) / 32 + 1)).map (addr / 32 + ·)

theorem mem_linesOf {addr size l : Nat} :
    l ∈ linesOf addr size ↔ 0 < size ∧ addr / 32 ≤ l ∧ l ≤ addr / 32 + (size - 1) / 32 := by
  unfold linesOf
  split
  · simp
    omega
  · simp only [List.mem_map, List.mem_range]
    constructor
    · rintro ⟨i, hi, rfl⟩
      omega
    · rintro ⟨-, hle, hlt⟩
      exact ⟨l - addr / 32, by omega, by omega⟩

/-- They cover the range, unless its last byte is one line further. -/
theorem linesOf_covers_iff {addr size : Nat} (h : 0 < size) :
    (∀ a, addr ≤ a → a < addr + size → a / 32 ∈ linesOf addr size) ↔
      addr % 32 + (size - 1) % 32 < 32 := by
  constructor
  · intro hcov
    obtain ⟨-, -, hle⟩ := mem_linesOf.mp (hcov (addr + size - 1) (by omega) (by omega))
    omega
  · intro hlt a hlo hhi
    exact mem_linesOf.mpr ⟨h, by omega, by omega⟩

section Upkeep

variable {L : Layout} {n : Nat} {x : Sys × List Nat} {α β : Type}

/-! ## Executions -/

/-- The loop visits line after line, and panics past the last one there is. -/
theorem upkeep_lines (k : Nat) : ∀ (addr : Nat) (x : Sys × List Nat), addr < 2 ^ 32 →
    (exec (upkeep L) n (cleanInvalidateLines k addr) x).obs =
      (List.range (min k (2 ^ 27 - addr / 32))).map fun i => .maintained (addr / 32 + i) := by
  induction k with
  | zero =>
    intro addr x _
    rw [Nat.zero_min]
    rfl
  | succ k ih =>
    intro addr x h
    have hline : (BitVec.ofNat 32 addr).toNat / 32 = addr / 32 := by
      rw [BitVec.toNat_ofNat]
      omega
    -- the line of `addr`, then the rest by induction
    have hfirst : exec (upkeep L) n (dccimvac (BitVec.ofNat 32 addr)) x =
        (⟨.ok (), x, [.maintained (addr / 32)]⟩ : Out _ _ Fault _) := by
      rw [dccimvac, exec_access, ← hline]
      rfl
    have hcount : min (k + 1) (2 ^ 27 - addr / 32) =
        min k (2 ^ 27 - addr / 32 - 1) + 1 := by omega
    rw [cleanInvalidateLines, exec_bind, hfirst, Out.andThen_ok_obs, hcount,
      List.range_succ_eq_map, List.map_cons, List.map_map]
    refine congrArg (List.cons _) ?_
    by_cases hnext : addr + 32 < 2 ^ 32
    · have hadd : exec (upkeep L) n (addUsize addr 32) x = ⟨.ok (addr + 32), x, []⟩ := by
        rw [addUsize, exec_bind, exec_require (upkeep L) n _ x hnext]
        rfl
      have hleft : 2 ^ 27 - (addr + 32) / 32 = 2 ^ 27 - addr / 32 - 1 := by omega
      rw [exec_bind, hadd, Out.andThen_ok, ih _ _ hnext, hleft]
      refine List.map_congr_left fun i _ => congrArg Upkeep.maintained ?_
      show (addr + 32) / 32 + i = addr / 32 + (i + 1)
      omega
    -- past the last line of the address space the addition panics
    · have hadd : exec (upkeep L) n (addUsize addr 32) x = ⟨.fail .panic, x, []⟩ := by
        unfold addUsize Prog.require
        rw [if_neg hnext]
        rfl
      have hlast : min k (2 ^ 27 - addr / 32 - 1) = 0 := by omega
      rw [exec_bind, hadd, hlast]
      rfl

/-- Only the lines of the range are maintained. -/
theorem mem_upkeep_cleanInvalidate {addr size : Nat} {o : Upkeep} (h : addr < 2 ^ 32)
    (ho : o ∈ (exec (upkeep L) n (cleanInvalidateDcacheByAddress addr size) x).obs) :
    ∃ l ∈ linesOf addr size, o = .maintained l := by
  unfold cleanInvalidateDcacheByAddress at ho
  split at ho
  · exact absurd ho List.not_mem_nil
  · have hround := div_and_line h
    have hle : addr &&& 0xFFFFFFE0 ≤ addr := Nat.and_le_left
    rw [upkeep_lines _ _ _ (by omega), hround] at ho
    obtain ⟨i, hi, rfl⟩ := List.mem_map.mp ho
    rw [List.mem_range] at hi
    exact ⟨_, mem_linesOf.mpr ⟨by omega, by omega, by omega⟩, rfl⟩

/-- All of them are, also where the loop panics after the last one. -/
theorem upkeep_cleanInvalidate {addr size : Nat} (h : addr + size ≤ 2 ^ 32) :
    (exec (upkeep L) n (cleanInvalidateDcacheByAddress addr size) x).obs =
      (linesOf addr size).map .maintained := by
  unfold cleanInvalidateDcacheByAddress linesOf
  split
  · rfl
  · have hround := div_and_line (a := addr) (by omega)
    have hle : addr &&& 0xFFFFFFE0 ≤ addr := Nat.and_le_left
    have hcount : min ((size - 1) / 32 + 1) (2 ^ 27 - addr / 32) = (size - 1) / 32 + 1 := by omega
    rw [upkeep_lines _ _ _ (by omega), hround, hcount, List.map_map]
    rfl

theorem upkeep_storeBytes (bs : List Byte) : ∀ (dst : Nat) (x : Sys × List Nat), ∃ x',
    exec (upkeep L) n (storeBytes dst bs) x =
      ⟨.ok (), x', (List.range bs.length).map fun i => .stored (dst + i)⟩ := by
  induction bs with
  | nil => exact fun _ x => ⟨x, rfl⟩
  | cons b bs ih =>
    intro dst x
    obtain ⟨x', hrest⟩ := ih (dst + 1) ((usbAct (.storeByte dst b) x.1).2.1, x.2)
    refine ⟨x', ?_⟩
    have hfirst : exec (upkeep L) n (storeByte dst b) x =
        (⟨.ok (), ((usbAct (.storeByte dst b) x.1).2.1, x.2), [.stored dst]⟩ : Out _ _ Fault _) :=
      exec_access _ _ _ _
    rw [storeBytes, exec_bind, hfirst, Out.andThen_ok_obs, hrest, List.length_cons,
      List.range_succ_eq_map, List.map_cons, List.map_map]
    refine congrArg (Out.mk _ _) (congrArg (List.cons _) ?_)
    refine List.map_congr_left fun i _ => congrArg Upkeep.stored ?_
    show dst + 1 + i = dst + (i + 1)
    omega

/-! ## Writes -/

/-- How many bytes a write of `buf` stores. -/
def Endpoint.stores (ep : Endpoint) (s : Sys) (buf : List Byte) : Nat :=
  min ep.buffer.len
    (min (CAPABILITIES.MAXIMUM_PACKET_LENGTH.get (s.qh ep.qh).capabilities).toNat buf.length)

/-- A write stores its bytes, and maintains lines after that. -/
theorem upkeep_write {ep : Endpoint} (h : ep.buffer.ptr + ep.buffer.len ≤ 2 ^ 32) (buf : List Byte)
    (x : Sys × List Nat) :
    (exec (upkeep L) n (ep.write buf) x).obs =
      ((List.range (ep.stores x.1 buf)).map (ep.buffer.ptr + ·)).map .stored ++
        (linesOf ep.buffer.ptr (ep.stores x.1 buf)).map .maintained := by
  have hlen : exec (upkeep L) n (Qh.maxPacketLen ep.qh) x =
      (⟨.ok (CAPABILITIES.MAXIMUM_PACKET_LENGTH.get (x.1.qh ep.qh).capabilities).toNat, x, []⟩ :
        Out _ _ Fault _) := rfl
  generalize hsize : min (CAPABILITIES.MAXIMUM_PACKET_LENGTH.get
    (x.1.qh ep.qh).capabilities).toNat buf.length = size
  have hle : size ≤ buf.length := by omega
  have hslice : exec (upkeep L) n (sliceTo buf size) x = ⟨.ok (buf.take size), x, []⟩ := by
    rw [sliceTo, exec_bind, exec_require (upkeep L) n _ x hle]
    rfl
  have hk : ep.stores x.1 buf = min ep.buffer.len size := by rw [Endpoint.stores, hsize]
  obtain ⟨x', hstore⟩ := upkeep_storeBytes (L := L) (n := n)
    ((buf.take size).take (min (buf.take size).length ep.buffer.len)) ep.buffer.ptr x
  have hcount : ((buf.take size).take (min (buf.take size).length ep.buffer.len)).length =
      min ep.buffer.len size := by
    simp only [List.length_take]
    omega
  rw [hcount] at hstore
  rw [Endpoint.write, exec_bind, hlen, Out.andThen_ok, hsize, exec_bind, hslice, Out.andThen_ok,
    exec_bind, Buffer.volatileWrite, exec_bind, hstore, Out.andThen_ok_obs, exec_pure,
    List.append_nil, Out.andThen_ok_obs, hk, List.map_map]
  refine congrArg (_ ++ ·) ?_
  have hlines : (exec (upkeep L) n (ep.buffer.cleanInvalidateDcache size) x').obs =
      (linesOf ep.buffer.ptr (min ep.buffer.len size)).map .maintained :=
    upkeep_cleanInvalidate (by omega)
  exact (exec_map _ _ _ _ _).2.trans hlines

/-- Every line that was stored to is maintained after the store. -/
def Settled (obs : List Upkeep) : Prop :=
  ∀ pre a post, obs = pre ++ .stored a :: post → .maintained (a / 32) ∈ post

/-- Stores, and maintenance after them. -/
theorem settled_iff {as ls : List Nat} :
    Settled (as.map .stored ++ ls.map .maintained) ↔ ∀ a ∈ as, a / 32 ∈ ls := by
  constructor
  · intro h a ha
    obtain ⟨pre, post, hsplit⟩ := List.append_of_mem ha
    have hmem := h (pre.map .stored) a (post.map .stored ++ ls.map .maintained)
      (by rw [hsplit]; simp)
    simpa using hmem
  · intro h pre a post heq
    rcases List.append_eq_append_iff.mp heq with ⟨more, rfl, hmore⟩ | ⟨more, hpre, hmore⟩
    · -- no store among the maintained lines
      have hmem : Upkeep.stored a ∈ ls.map Upkeep.maintained := by
        rw [hmore]
        simp
      simp at hmem
    · cases more with
      | nil =>
        have hmem : Upkeep.stored a ∈ ls.map Upkeep.maintained := by
          rw [← List.nil_append (ls.map _), ← hmore]
          simp
        simp at hmem
      | cons o more =>
        obtain ⟨rfl, rfl⟩ := List.cons.inj hmore
        have ha : a ∈ as := by
          have hmem : Upkeep.stored a ∈ as.map Upkeep.stored := by
            rw [hpre]
            simp
          simpa using hmem
        have hl := h a ha
        simp [hl]

end Upkeep

/-- For every sequence of requests to the allocator, every endpoint with a
    buffer granted by it, and everything written: what is stored is maintained
    exactly if nothing is stored, or the last byte is not one line further than
    the size says.  For maintenance of any range the same decides whether it is
    covered. -/
theorem write_maintained_iff (L : Layout) {start len : Nat} (hregion : start + len ≤ 2 ^ 32)
    (sizes : List Nat) :
    (∀ (ep : Endpoint) (s : Sys) (buf : List Byte) (slots : List Nat) (n : Nat),
      ep.buffer ∈ (Allocator.fromBuffer start len).granted sizes →
        (Settled (exec (upkeep L) n (ep.write buf) (s, slots)).obs ↔
          ep.stores s buf = 0 ∨
            ep.buffer.ptr % 32 + (ep.stores s buf - 1) % 32 < 32)) ∧
    ∀ (addr size n : Nat) (x : Sys × List Nat), 0 < size → addr + size ≤ 2 ^ 32 →
      ((∀ a, addr ≤ a → a < addr + size → Upkeep.maintained (a / 32) ∈
          (exec (upkeep L) n (cleanInvalidateDcacheByAddress addr size) x).obs) ↔
        addr % 32 + (size - 1) % 32 < 32) := by
  refine ⟨fun ep s buf slots n hmem => ?_, fun addr size n x hsize hfit => ?_⟩
  · obtain ⟨-, -, htiles⟩ := Allocator.tiles_granted start len sizes
    have hin := htiles.mem hmem
    rw [upkeep_write (by omega), settled_iff]
    show (∀ a ∈ (List.range (ep.stores s buf)).map (ep.buffer.ptr + ·),
      a / 32 ∈ linesOf ep.buffer.ptr (ep.stores s buf)) ↔ _
    -- a write of no bytes maintains nothing and needs nothing
    obtain h0 | hpos := Nat.eq_zero_or_pos (ep.stores s buf)
    · simp [h0]
    · rw [← linesOf_covers_iff hpos, or_iff_right (by omega)]
      constructor
      · intro h a hlo hhi
        exact h a (List.mem_map.mpr ⟨a - ep.buffer.ptr, List.mem_range.mpr (by omega), by omega⟩)
      · intro h a ha
        obtain ⟨i, hi, rfl⟩ := List.mem_map.mp ha
        exact h _ (Nat.le_add_right _ _) (by have := List.mem_range.mp hi; omega)
  · rw [← linesOf_covers_iff hsize, upkeep_cleanInvalidate hfit]
    simp

/-- The bulk IN buffer of the device is aligned, and all of it is maintained. -/
theorem write_maintained_device :
    (deviceEndpoint bulkIn 3 .Bulk).buffer ∈
        (Allocator.fromBuffer 0x20200000 2048).granted [64, 64, 64, 64] ∧
      Settled (exec (upkeep deviceLayout) 1
        ((deviceEndpoint bulkIn 3 .Bulk).write (List.replicate 64 0)) (device, [])).obs := by
  have hmem : (deviceEndpoint bulkIn 3 .Bulk).buffer ∈
      (Allocator.fromBuffer 0x20200000 2048).granted [64, 64, 64, 64] := by decide
  have hcount : (deviceEndpoint bulkIn 3 .Bulk).stores device (List.replicate 64 0) = 64 := by
    decide +kernel
  refine ⟨hmem, ?_⟩
  refine ((write_maintained_iff _ (by omega) [64, 64, 64, 64]).1 _ _ _ _ _ hmem).mpr ?_
  rw [hcount]
  decide

/-- A control endpoint of eight bytes, and a bulk endpoint. -/
def oddRequests : List Request :=
  [⟨.Out, some EpId.ep0Out.address, .Control, 8⟩, ⟨.In, some EpId.ep0In.address, .Control, 8⟩,
    ⟨.In, none, .Bulk, 64⟩]

/-- A device with buffers that are no multiples of a line. -/
def oddDevice : Sys := (bootWith (powerOn 16 2048) .High oddRequests).getD (powerOn 16 2048)

theorem oddDevice_booted : Booted oddDevice :=
  bootWith_getD (powerOn_ok 16 (by omega)) (by decide +kernel)

/-- The buffer of its bulk endpoint starts in the middle of a line and ends in
    the middle of another: what is written to that line is not maintained. -/
theorem write_unmaintained : ∃ ep, oddDevice.ep bulkIn = some ep ∧
    ep.buffer ∈ (Allocator.fromBuffer 0x20200000 2048).granted [8, 8, 64] ∧
      ¬ Settled (exec (upkeep deviceLayout) 1 (ep.write (List.replicate 64 0))
        (oddDevice, [])).obs := by
  refine ⟨bulkIn.endpoint ⟨0x202007B0, 64⟩ .Bulk, by decide +kernel, by decide, fun h => ?_⟩
  have hcount : (bulkIn.endpoint ⟨0x202007B0, 64⟩ .Bulk).stores oddDevice
      (List.replicate 64 0) = 64 := by decide +kernel
  have hfit : (0x202007B0 : Nat) + 64 ≤ 2 ^ 32 := by omega
  rw [upkeep_write hfit, hcount, settled_iff] at h
  have hline := h (0x202007B0 + 63) (by decide)
  revert hline
  decide

end ImxrtUsbd
