/-
  ImxrtUsbd.InCoherence

  What the controller finds of a packet that was written, with endpoint memory
  in write-back cacheable RAM.

  A byte that the driver stored gets to RAM when the line that it is in is
  maintained, and nothing that the driver does later takes it away (`Brought`).
  A byte in a line that is cached and not maintained does not get there: the
  controller sends what was there before (`in_coherent`).
-/
import ImxrtUsbd.LineSharing

namespace ImxrtUsbd

open Lib
open EndpointAllocator (endpoint)

/-! ## Bytes that are not stored to -/

/-- The access stores no byte at the address. -/
def Access.Elsewhere (a : Nat) : (β : Type) → Access β → Prop
  | _, .storeByte x _ => x ≠ a
  | _, .readReg _ | _, .writeReg _ _ | _, .loadTd _ _ | _, .storeTd _ _ _ | _, .loadCapabilities _
  | _, .storeCapabilities _ _ | _, .loadSetup _ _ | _, .loadByte _ | _, .dccimvac _
  | _, .addrOfSelf | _, .getDriver | _, .setDriver _ => True

/-- A byte on its way to RAM stays on it, and stays in RAM once it is there. -/
def Brought (L : Layout) (a : Nat) (v : Byte) (c : CachedSys) (_ : List CacheObs)
    (c' : CachedSys) : Prop :=
  c.memory.Written L.line (.byte a) v → c'.memory.Written L.line (.byte a) v ∧
    (c.memory.ram (.byte a) = v → c'.memory.ram (.byte a) = v)

section Brought

variable {L : Layout} {a : Nat} {v : Byte} {c c' : CachedSys} {α : Type}

theorem brought_composes (L : Layout) (a : Nat) (v : Byte) : Composes (Brought L a v) where
  refl := fun _ h => ⟨h, id⟩
  trans := fun h h' hw => ⟨(h' (h hw).1).1, fun hram => (h' (h hw).1).2 ((h hw).2 hram)⟩

theorem brought_load (c : CachedSys) (p : Place) (o : List CacheObs) :
    Brought L a v c o (c.load L p).2 :=
  fun hw => ⟨hw.touch p, fun hram => (congrFun (Cache.ram_touch c.memory p) _).trans hram⟩

theorem brought_store (c : CachedSys) {p : Place} (hne : .byte a ≠ p) (w : p.Val)
    (o : List CacheObs) : Brought L a v c o (c.store L p w) :=
  fun hw => ⟨hw.store hne w, fun hram => (Cache.ram_store hne c.memory w).trans hram⟩

theorem brought_maintain (c : CachedSys) (l : Nat) (o : List CacheObs) :
    Brought L a v c o (c.maintain L l) := by
  intro hw
  refine ⟨hw.cleanInvalidate l, fun hram => ?_⟩
  by_cases hl : L.line (.byte a) = some l
  · exact hw.ram_cleanInvalidate hl
  · exact (Cache.ram_cleanInvalidate_of_ne hl).trans hram

theorem brought_elsewhere {β : Type} {e : Access β} (h : e.Elsewhere a) (c : CachedSys) :
    Brought L a v c ((cached L).act e c).2.2 ((cached L).act e c).2.1 := by
  cases e with
  | loadTd t w => exact brought_load c (.td t w) _
  | loadCapabilities i => exact brought_load c (.capabilities i) _
  | loadSetup i high => exact brought_load c (.setup i high) _
  | loadByte x => exact brought_load c (.byte x) _
  | storeTd t w x => exact brought_store c (p := .td t w) (by simp) x _
  | storeCapabilities i x => exact brought_store c (p := .capabilities i) (by simp) x _
  | storeByte x b => exact brought_store c (p := .byte x) (by simpa using Ne.symm h) b _
  | dccimvac addr => exact brought_maintain c (addr.toNat / 32) _
  | readReg | writeReg | addrOfSelf | getDriver | setDriver => exact fun hw => ⟨hw, id⟩

/-- Programs that store elsewhere leave the byte alone. -/
theorem brought_exec {p : UsbM α} (h : p.Only (Access.Elsewhere a)) {n : Nat} {res : Res Fault α}
    {o : List CacheObs} (hrun : exec (cached L) n p c = ⟨res, c', o⟩) : Brought L a v c o c' := by
  have hkeeps := Keeps.of_only (brought_composes L a v) (fun _ _ c he => brought_elsewhere he c)
    h n c
  rwa [hrun] at hkeeps

/-! ### Arming stores elsewhere -/

instance : Access.Looks (Access.Elsewhere a) := ⟨fun _ => trivial, fun _ => trivial, trivial⟩

theorem elsewhere_transfers (ep : Endpoint) : Transfers (Access.Elsewhere a) ep where
  list := ⟨fun _ => trivial, fun _ _ => trivial⟩
  overlay := ⟨fun _ => trivial, fun _ _ => trivial⟩
  maintains := ⟨fun _ => trivial, trivial⟩
  prime := fun _ => trivial
  complete := fun _ => trivial
  nak := fun _ => trivial

end Brought

/-! ## Lines that are not maintained -/

/-- What is in RAM at the address is not touched. -/
def RamKept (L : Layout) (a : Nat) (c : CachedSys) (_ : List CacheObs) (c' : CachedSys) : Prop :=
  (cacheView L).inv c →
    (cacheView L).inv c' ∧ c'.memory.ram (.byte a) = c.memory.ram (.byte a)

section RamKept

variable {L : Layout} {a l : Nat} {c c' : CachedSys} {α : Type}

theorem ramKept_composes (L : Layout) (a : Nat) : Composes (RamKept L a) where
  refl := fun _ hc => ⟨hc, rfl⟩
  trans := fun h h' hc => ⟨(h' (h hc).1).1, (h' (h hc).1).2.trans (h hc).2⟩

/-- Stores to a line in the cache do not reach RAM. -/
theorem ramKept_act (hline : L.line (.byte a) = some l) {β : Type} {e : Access β}
    (h : e.Plain True) (c : CachedSys) :
    RamKept L a c ((cached L).act e c).2.2 ((cached L).act e c).2.1 := by
  intro hc
  have hinv := ((simulates_access (L := L) h) 1 c hc).inv
  rw [exec_access] at hinv
  refine ⟨hinv, ?_⟩
  cases e with
  | loadTd t w => exact congrFun (Cache.ram_touch c.memory (.td t w)) _
  | loadCapabilities i => exact congrFun (Cache.ram_touch c.memory (.capabilities i)) _
  | loadSetup i high => exact congrFun (Cache.ram_touch c.memory (.setup i high)) _
  | loadByte x => exact congrFun (Cache.ram_touch c.memory (.byte x)) _
  | storeTd t w x => exact Cache.ram_store_of_cached (q := .td t w) hline c.memory x
  | storeCapabilities i x => exact Cache.ram_store_of_cached (q := .capabilities i) hline c.memory x
  | storeByte x b => exact Cache.ram_store_of_cached (q := .byte x) hline c.memory b
  | dccimvac | addrOfSelf => exact absurd h id
  | readReg | writeReg | getDriver | setDriver => rfl

theorem ramKept_plain (hline : L.line (.byte a) = some l) {p : UsbM α} (h : Plain True p) :
    Keeps (cached L) (RamKept L a) p :=
  .of_only (ramKept_composes L a) (fun _ _ c he => ramKept_act hline he c) h

theorem ramKept_addUsize {x y : Nat} {f : Nat → UsbM α}
    (h : x + y < 2 ^ 32 → Keeps (cached L) (RamKept L a) (f (x + y))) :
    Keeps (cached L) (RamKept L a) (addUsize x y >>= f) := by
  unfold addUsize Prog.require
  split
  · rename_i hlt
    exact h hlt
  · exact .fail (ramKept_composes L a) Fault.panic

/-- Maintaining lines without descriptors or endpoint memory. -/
theorem ramKept_lines (k : Nat) : ∀ addr, addr < 2 ^ 32 →
    (∀ i, i < k → L.cacheable (addr / 32 + i) = false) →
      Keeps (cached L) (RamKept L a) (cleanInvalidateLines k addr) := by
  induction k with
  | zero => exact fun _ _ _ => .pure (ramKept_composes L a) _
  | succ k ih =>
    intro addr hlt h
    have hfirst : Keeps (cached L) (RamKept L a) (dccimvac (BitVec.ofNat 32 addr)) := by
      refine .access fun c hc => ⟨hc, Cache.ram_cleanInvalidate_of_ne fun hl => ?_⟩
      have hcache := L.cacheable_of_line hl
      have h0 := h 0 (Nat.succ_pos k)
      rw [BitVec.toNat_ofNat, Nat.mod_eq_of_lt hlt] at hcache
      rw [Nat.add_zero, hcache] at h0
      cases h0
    refine .bind (ramKept_composes L a) hfirst fun _ => ramKept_addUsize fun hnext => ih _ hnext ?_
    intro i hi
    have hline : (addr + 32) / 32 + i = addr / 32 + (i + 1) := by omega
    rw [hline]
    exact h (i + 1) (by omega)

/-- The stack slot of `self` is what is maintained. -/
theorem ramKept_self {size : Nat} (hsize : size ≤ 64) :
    Keeps (cached L) (RamKept L a) (do cleanInvalidateDcacheByAddress (← addrOfSelf) size) := by
  intro n c hc
  have hself : Keeps (cached L) (RamKept L a)
      (cleanInvalidateDcacheByAddress c.core.stack size) := by
    unfold cleanInvalidateDcacheByAddress
    split
    · exact .pure (ramKept_composes L a) _
    · have hlt : c.core.stack < 2 ^ 32 := hc.2
      have hround := div_and_line hlt
      have hle : c.core.stack &&& 0xFFFFFFE0 ≤ c.core.stack := Nat.and_le_left
      refine ramKept_lines _ _ (by omega) fun i hi => ?_
      rw [hround]
      -- at most two lines
      obtain rfl | rfl : i = 0 ∨ i = 1 := by omega
      · exact hc.1.1
      · exact hc.1.2
  rw [exec_bind, addrOfSelf, exec_access]
  exact hself n c hc

theorem ramKept_scheduleTransfer (hline : L.line (.byte a) = some l) (ep : Endpoint) (size : Nat) :
    Keeps (cached L) (RamKept L a) (ep.scheduleTransfer size) := by
  have hR := ramKept_composes L a
  refine .bind hR (ramKept_plain hline (.access trivial)) fun _ =>
    .bind hR (ramKept_plain hline (only_setBuffer (plain_uses trivial _) _ _)) fun _ =>
    .bind hR (ramKept_plain hline (only_modifyTd (plain_uses trivial _) _ _ _)) fun _ =>
    .bind hR (ramKept_plain hline (only_modifyTd (plain_uses trivial _) _ _ _)) fun _ =>
    .bind hR (ramKept_self (by omega)) fun _ =>
    .bind hR (ramKept_plain hline (.access trivial)) fun _ =>
    .bind hR (ramKept_plain hline (.access trivial)) fun _ =>
    .bind hR (ramKept_plain hline (only_modifyTd (plain_uses trivial _) _ _ _)) fun _ =>
    .bind hR (ramKept_self (by omega)) fun _ =>
    .bind hR (ramKept_plain hline (only_bit32 _)) fun _ => ramKept_plain hline ?_
  dsimp only
  split <;> exact .bind (.access trivial) fun _ => only_waitZero _

end RamKept

/-! ## A write -/

/-- Maintain some lines. -/
def CachedSys.maintainAll (L : Layout) (c : CachedSys) (ls : List Nat) : CachedSys :=
  ls.foldl (CachedSys.maintain L) c

section Write

variable {L : Layout} {a : Nat} {v : Byte} {c c' : CachedSys} {n : Nat}

theorem exec_storeBytes (bs : List Byte) : ∀ dst (c : CachedSys),
    exec (cached L) n (storeBytes dst bs) c = ⟨.ok (), c.storeAll L dst bs, []⟩ := by
  induction bs with
  | nil => exact fun _ _ => rfl
  | cons b bs ih =>
    intro dst c
    have hfirst : exec (cached L) n (storeByte dst b) c =
        (⟨.ok (), c.store L (.byte dst) b, []⟩ : Out _ _ Fault _) := exec_access _ _ _ _
    rw [storeBytes, exec_bind, hfirst, Out.andThen_ok, ih]
    rfl

/-- A write, once its bytes are stored. -/
theorem exec_write_stored (ep : Endpoint) (buf : List Byte) (c : CachedSys) :
    exec (cached L) n (ep.write buf) c =
      exec (cached L) n
        (cleanInvalidateDcacheByAddress ep.buffer.ptr (ep.stores (c.view L) buf) >>= fun _ =>
          pure (ep.stores (c.view L) buf))
        ((c.load L (.capabilities ep.qh)).2.storeAll L ep.buffer.ptr
          (buf.take (ep.stores (c.view L) buf))) := by
  have hload : (c.load L (.capabilities ep.qh)).1 = ((c.view L).qh ep.qh).capabilities :=
    CachedSys.load_fst (.capabilities _)
  have hlen : exec (cached L) n (Qh.maxPacketLen ep.qh) c =
      (⟨.ok (CAPABILITIES.MAXIMUM_PACKET_LENGTH.get ((c.view L).qh ep.qh).capabilities).toNat,
        (c.load L (.capabilities ep.qh)).2, []⟩ : Out _ _ Fault _) := by
    rw [← hload]
    rfl
  -- the write stores what slice, packet and buffer leave of the data
  generalize hsize : min (CAPABILITIES.MAXIMUM_PACKET_LENGTH.get
    ((c.view L).qh ep.qh).capabilities).toNat buf.length = size
  have hle : size ≤ buf.length := by omega
  have hk : ep.stores (c.view L) buf = min ep.buffer.len size := by rw [Endpoint.stores, hsize]
  have hslice : ∀ x, exec (cached L) n (sliceTo buf size) x = ⟨.ok (buf.take size), x, []⟩ := by
    intro x
    rw [sliceTo, exec_bind, exec_require _ n _ x hle]
    rfl
  have hwritten : min (buf.take size).length ep.buffer.len = ep.stores (c.view L) buf := by
    rw [hk, List.length_take]
    omega
  have hbytes : (buf.take size).take (ep.stores (c.view L) buf) =
      buf.take (ep.stores (c.view L) buf) := by
    rw [List.take_take, hk]
    congr 1
    omega
  rw [Endpoint.write, exec_bind, hlen, Out.andThen_ok, hsize, exec_bind, hslice, Out.andThen_ok,
    exec_bind, Buffer.volatileWrite, exec_bind, hwritten, hbytes, exec_storeBytes, Out.andThen_ok,
    exec_pure, Out.andThen_ok, Buffer.cleanInvalidateDcache, ← hk]

/-- The loop maintains the lines in order. -/
theorem lines_maintained (k : Nat) : ∀ addr (c c' : CachedSys) (o : List CacheObs), addr < 2 ^ 32 →
    exec (cached L) n (cleanInvalidateLines k addr) c = ⟨.ok (), c', o⟩ →
      c' = c.maintainAll L ((List.range k).map (addr / 32 + ·)) := by
  induction k with
  | zero =>
    intro addr c c' o _ hrun
    exact (Out.mk.inj hrun).2.1.symm
  | succ k ih =>
    intro addr c c' o hlt hrun
    have hfirst : exec (cached L) n (dccimvac (BitVec.ofNat 32 addr)) c =
        (⟨.ok (), c.maintain L (addr / 32), []⟩ : Out _ _ Fault _) := by
      rw [dccimvac, exec_access]
      show Out.mk _ (c.maintain L ((BitVec.ofNat 32 addr).toNat / 32)) _ = _
      rw [BitVec.toNat_ofNat, Nat.mod_eq_of_lt hlt]
      rfl
    rw [cleanInvalidateLines, exec_bind, hfirst, Out.andThen_ok] at hrun
    obtain ⟨next, c₁, o₁, o₂, hadd, hrest, rfl⟩ := exec_bind_ok _ _ hrun
    -- the loop returned, so the addition did not overflow
    have hnext : addr + 32 < 2 ^ 32 := by
      by_contra hge
      unfold addUsize Prog.require at hadd
      rw [if_neg hge] at hadd
      cases hadd
    rw [addUsize, exec_bind, exec_require (cached L) n _ _ hnext] at hadd
    obtain ⟨hok, rfl, -⟩ := Out.mk.inj hadd
    obtain rfl := Res.ok.inj hok
    rw [ih _ _ _ _ hnext hrest, List.range_succ_eq_map, List.map_cons, List.map_map]
    show (c.maintain L (addr / 32)).maintainAll L _ =
      (c.maintain L (addr / 32)).maintainAll L _
    congr 1
    refine List.map_congr_left fun i _ => ?_
    show (addr + 32) / 32 + i = addr / 32 + (i + 1)
    omega

theorem cleanInvalidate_maintained {addr size : Nat} {o : List CacheObs} (h : addr < 2 ^ 32)
    (hrun : exec (cached L) n (cleanInvalidateDcacheByAddress addr size) c = ⟨.ok (), c', o⟩) :
    c' = c.maintainAll L (linesOf addr size) := by
  unfold cleanInvalidateDcacheByAddress at hrun
  unfold linesOf
  split at hrun
  · rename_i h0
    rw [if_pos h0]
    exact (Out.mk.inj hrun).2.1.symm
  · rename_i h0
    have hround := div_and_line h
    have hle : addr &&& 0xFFFFFFE0 ≤ addr := Nat.and_le_left
    rw [if_neg h0, lines_maintained _ _ _ _ _ (by omega) hrun, hround]

/-- Neither is about anything but memory. -/
theorem core_storeAll (bs : List Byte) : ∀ dst (c : CachedSys),
    (c.storeAll L dst bs).core = c.core := by
  induction bs with
  | nil => exact fun _ _ => rfl
  | cons b bs ih => exact fun _ _ => ih _ _

theorem core_maintainAll (ls : List Nat) : ∀ c : CachedSys, (c.maintainAll L ls).core = c.core := by
  induction ls with
  | nil => exact fun _ => rfl
  | cons l ls ih => exact fun _ => ih _

/-! ### The bytes of it -/

/-- A byte that was stored is on its way. -/
theorem written_storeAll (bs : List Byte) : ∀ dst (c : CachedSys),
    (a < dst ∧ c.memory.Written L.line (.byte a) v) ∨ (dst ≤ a ∧ bs[a - dst]? = some v) →
      (c.storeAll L dst bs).memory.Written L.line (.byte a) v := by
  induction bs with
  | nil =>
    rintro dst c (⟨-, h⟩ | ⟨-, h⟩)
    · exact h
    · simp at h
  | cons b bs ih =>
    intro dst c h
    refine ih _ _ ?_
    rcases h with ⟨hlt, h⟩ | ⟨hle, h⟩
    · have hne : Place.byte a ≠ .byte dst := by
        intro heq
        have := Place.byte.inj heq
        omega
      exact Or.inl ⟨by omega, h.store hne b⟩
    · obtain rfl | hlt : a = dst ∨ dst < a := by omega
      · rw [Nat.sub_self, List.getElem?_cons_zero] at h
        obtain rfl := Option.some.inj h
        exact Or.inl ⟨by omega, Cache.written_store _ _ _⟩
      · have hidx : a - dst = a - (dst + 1) + 1 := by omega
        rw [hidx, List.getElem?_cons_succ] at h
        exact Or.inr ⟨hlt, h⟩

theorem ram_storeAll {l : Nat} (hline : L.line (.byte a) = some l) (bs : List Byte) :
    ∀ dst (c : CachedSys),
      (c.storeAll L dst bs).memory.ram (.byte a) = c.memory.ram (.byte a) := by
  induction bs with
  | nil => exact fun _ _ => rfl
  | cons b bs ih =>
    intro dst c
    rw [CachedSys.storeAll, ih]
    exact Cache.ram_store_of_cached (q := .byte dst) hline c.memory b

/-- It arrives when its line is maintained. -/
theorem written_maintainAll (ls : List Nat) : ∀ c : CachedSys,
    c.memory.Written L.line (.byte a) v →
      (c.maintainAll L ls).memory.Written L.line (.byte a) v ∧
        (c.memory.ram (.byte a) = v ∨ (∃ l ∈ ls, L.line (.byte a) = some l) →
          (c.maintainAll L ls).memory.ram (.byte a) = v) := by
  induction ls with
  | nil =>
    refine fun c h => ⟨h, ?_⟩
    rintro (hram | ⟨l, hl, -⟩)
    · exact hram
    · simp at hl
  | cons l ls ih =>
    intro c h
    obtain ⟨hnext, hkeep⟩ := brought_maintain (L := L) c l [] h
    obtain ⟨hw, hram⟩ := ih (c.maintain L l) hnext
    refine ⟨hw, fun hor => hram ?_⟩
    rcases hor with hv | ⟨k, hk, hline⟩
    · exact Or.inl (hkeep hv)
    · rcases List.mem_cons.mp hk with rfl | hk
      · exact Or.inl (h.ram_cleanInvalidate hline)
      · exact Or.inr ⟨k, hk, hline⟩

theorem ram_maintainAll (ls : List Nat) : ∀ c : CachedSys,
    (∀ l ∈ ls, L.line (.byte a) ≠ some l) →
      (c.maintainAll L ls).memory.ram (.byte a) = c.memory.ram (.byte a) := by
  induction ls with
  | nil => exact fun _ _ => rfl
  | cons l ls ih =>
    intro c h
    have hfirst : (c.maintain L l).memory.ram (.byte a) = c.memory.ram (.byte a) :=
      Cache.ram_cleanInvalidate_of_ne (h l List.mem_cons_self)
    show ((c.maintain L l).maintainAll L ls).memory.ram (.byte a) = _
    rw [ih _ fun k hk => h k (List.mem_cons_of_mem _ hk), hfirst]

end Write

/-- What the controller finds at `ptr` after these bytes were written there: in a
    line that is cached and not maintained, what it would have found before. -/
def CachedSys.Sends (L : Layout) (c₀ c : CachedSys) (ptr : Nat) (bs : List Byte) : Prop :=
  ∀ i b, bs[i]? = some b → c.memory.ram (.byte (ptr + i)) =
    if L.cacheable ((ptr + i) / 32) = true ∧ (ptr + i) / 32 ∉ linesOf ptr bs.length then
      c₀.memory.ram (.byte (ptr + i))
    else b

section Sent

variable {L : Layout} {c c' : CachedSys} {α : Type}

/-- A write, and what comes after it if that stores and maintains elsewhere. -/
theorem sends_write {ep : Endpoint} {buf : List Byte} {rest : Nat → UsbM α} {n : Nat} {r : α}
    {o : List CacheObs} (hc : (cacheView L).inv c)
    (hfit : ep.buffer.ptr + ep.buffer.len < 2 ^ 32)
    (hrest : ∀ k a, (rest k).Only (Access.Elsewhere a))
    (hkept : ∀ k a, L.line (.byte a) = some (a / 32) → Keeps (cached L) (RamKept L a) (rest k))
    (hrun : exec (cached L) n (ep.write buf >>= rest) c = ⟨.ok r, c', o⟩) :
    c.Sends L c' ep.buffer.ptr (buf.take (ep.stores (c.view L) buf)) ∧
      ∃ c₁ o₁, exec (cached L) n (rest (ep.stores (c.view L) buf)) c₁ = ⟨.ok r, c', o₁⟩ := by
  obtain ⟨k, c₁, o₁, o₂, hwrite, hrun', rfl⟩ := exec_bind_ok _ _ hrun
  rw [exec_write_stored] at hwrite
  obtain ⟨_, c₂, o₃, o₄, hclean, hpure, rfl⟩ := exec_bind_ok _ _ hwrite
  obtain ⟨hk, rfl, -⟩ := Out.mk.inj hpure
  obtain rfl := Res.ok.inj hk
  refine ⟨fun i b hb => ?_, c₂, o₂, hrun'⟩
  have hlen : (buf.take (ep.stores (c.view L) buf)).length = ep.stores (c.view L) buf := by
    rw [List.length_take, Endpoint.stores]
    omega
  have hptr : ep.buffer.ptr < 2 ^ 32 := by omega
  have hlines := cleanInvalidate_maintained hptr hclean
  rw [hlen]
  split
  · -- cached, and not maintained
    rename_i hout
    have hline : L.line (.byte (ep.buffer.ptr + i)) = some ((ep.buffer.ptr + i) / 32) :=
      if_pos hout.1
    have hcore : c₂.core = c.core := by rw [hlines, core_maintainAll, core_storeAll]; rfl
    have hstack : (cacheView L).inv c₂ := by
      show L.StackApart c₂.core.stack ∧ c₂.core.stack < 2 ^ 32
      rw [hcore]
      exact hc
    have hend := hkept (ep.stores (c.view L) buf) _ hline n c₂ hstack
    rw [hrun'] at hend
    rw [hend.2, hlines, ram_maintainAll, ram_storeAll hline]
    · exact congrFun (Cache.ram_touch c.memory (.capabilities ep.qh)) _
    · intro l hl heq
      rw [hline] at heq
      rw [← Option.some.inj heq] at hl
      exact hout.2 hl
  · rename_i hin
    have hwritten := written_storeAll (L := L) (a := ep.buffer.ptr + i) (v := b)
      (buf.take (ep.stores (c.view L) buf)) ep.buffer.ptr (c.load L (.capabilities ep.qh)).2
      (Or.inr ⟨Nat.le_add_right _ _, by rwa [Nat.add_sub_cancel_left]⟩)
    obtain ⟨hw, hram⟩ := written_maintainAll (linesOf ep.buffer.ptr (ep.stores (c.view L) buf))
      _ hwritten
    rw [← hlines] at hw hram
    have hthere : c₂.memory.ram (.byte (ep.buffer.ptr + i)) = b := by
      by_cases hcache : L.cacheable ((ep.buffer.ptr + i) / 32) = true
      · have hmem := not_not.mp fun hmem => hin ⟨hcache, hmem⟩
        exact hram (Or.inr ⟨_, hmem, if_pos hcache⟩)
      · exact hw.ram_of_uncached (if_neg hcache)
    exact (brought_exec (hrest _ _) hrun' hw).2 hthere

/-- A program with plain accesses does what it does on coherent memory, and
    stores to cached lines do not reach RAM. -/
theorem plain_exec {p : UsbM α} (hp : Plain True p) (hc : (cacheView L).inv c) {r : Res Fault α}
    {o : List CacheObs} (hrun : exec (cached L) 1 p c = ⟨r, c', o⟩) :
    (∃ o', run p (c.view L) = ⟨r, c'.view L, o'⟩) ∧ (cacheView L).inv c' ∧
      ∀ a l, L.line (.byte a) = some l → c'.memory.ram (.byte a) = c.memory.ram (.byte a) := by
  obtain ⟨hsim, hinv, -⟩ := (simulates_plain hp).exec_eq hc hrun
  refine ⟨⟨_, hsim⟩, hinv, fun a l hl => ?_⟩
  have hkept := ramKept_plain hl hp 1 c hc
  rw [hrun] at hkept
  exact hkept.2

/-- The part of `ep_write` and `ctrl0_write` that sends. -/
def sendThen (ep : Endpoint) (buf : List Byte) (rest : Nat → UsbM (Except UsbError Nat)) :
    UsbM (Except UsbError Nat) := do
  match ← ep.checkErrors with
  | .error e => return .error e
  | .ok () =>
    if ← ep.isPrimed then
      return .error .WouldBlock
    else
      ep.clearNack
      let written ← ep.write buf
      rest written

theorem sends_sendThen {e : EpId} {ep : Endpoint} {buf : List Byte} {k : Nat}
    {rest : Nat → UsbM (Except UsbError Nat)} {o : List CacheObs} (hat : ep.At e)
    (hc : (cacheView L).inv c) (hrest : ∀ k a, (rest k).Only (Access.Elsewhere a))
    (hkept : ∀ k a, L.line (.byte a) = some (a / 32) → Keeps (cached L) (RamKept L a) (rest k))
    (hrun : exec (cached L) 1 (sendThen ep buf rest) c = ⟨.ok (.ok k), c', o⟩) :
    c.Sends L c' ep.buffer.ptr (buf.take (ep.stores (c.view L) buf)) ∧
      ∃ c₁ o₁, exec (cached L) 1 (rest (ep.stores (c.view L) buf)) c₁ = ⟨.ok (.ok k), c', o₁⟩ := by
  have hfit : ep.buffer.ptr + ep.buffer.len < 2 ^ 32 := by
    have := hat.ptr_lt
    omega
  obtain ⟨errors, c₁, o₁, o₂, hcheck, hrun₁, rfl⟩ := exec_bind_ok _ _ hrun
  obtain ⟨⟨_, hview₁⟩, hc₁, hram₁⟩ := plain_exec (plain_checkErrors trivial ep) hc hcheck
  rw [run_checkErrors hat] at hview₁
  obtain ⟨-, hpost₁, -⟩ := Out.mk.inj hview₁
  cases errors with
  | error err =>
    rw [exec_pure] at hrun₁
    simp at hrun₁
  | ok _ =>
    obtain ⟨primed, c₂, o₂, o₃, hprimed, hrun₂, rfl⟩ := exec_bind_ok _ _ hrun₁
    obtain ⟨⟨_, hview₂⟩, hc₂, hram₂⟩ := plain_exec (only_isPrimed ep) hc₁ hprimed
    rw [run_isPrimed hat] at hview₂
    obtain ⟨-, hpost₂, -⟩ := Out.mk.inj hview₂
    split at hrun₂
    · rw [exec_pure] at hrun₂
      simp at hrun₂
    · obtain ⟨_, c₃, o₃, o₄, hnack, hrun₃, rfl⟩ := exec_bind_ok _ _ hrun₂
      obtain ⟨⟨_, hview₃⟩, hc₃, hram₃⟩ := plain_exec (plain_clearNack ep) hc₂ hnack
      rw [run_clearNack hat] at hview₃
      obtain ⟨-, hpost₃, -⟩ := Out.mk.inj hview₃
      -- up to here nothing was stored
      have hstores : ep.stores (c₃.view L) buf = ep.stores (c.view L) buf := by
        rw [← hpost₃, ← hpost₂, ← hpost₁]
        rfl
      obtain ⟨hsends, hlast⟩ := sends_write hc₃ hfit hrest hkept hrun₃
      rw [hstores] at hsends hlast
      refine ⟨fun i b hb => ?_, hlast⟩
      rw [hsends i b hb]
      split
      · rename_i hout
        have hline : L.line (.byte (ep.buffer.ptr + i)) = some ((ep.buffer.ptr + i) / 32) :=
          if_pos hout.1
        rw [hram₃ _ _ hline, hram₂ _ _ hline, hram₁ _ _ hline]
      · rfl

end Sent

/-! ## The write calls -/

section Calls

variable {L : Layout} {c c' : CachedSys} {e : EpId} {ep : Endpoint} {buf : List Byte} {k a : Nat}
  {o : List CacheObs}

theorem stores_eq {s : Sys} (h : s.WF) (hep : s.ep e = some ep) (buf : List Byte) :
    ep.stores s buf = min ep.packetLen buf.length := by
  have hok := h.epOk e ep hep
  have hmpl : (CAPABILITIES.MAXIMUM_PACKET_LENGTH.get (s.qh ep.qh).capabilities).toNat =
      ep.packetLen := by
    rw [hok.inPlace.qh]
    exact hok.mpl
  have hle := packetLen_le ep
  rw [Endpoint.stores, hmpl]
  omega

/-- What follows the write of `ep_write`. -/
def armThen (ep : Endpoint) (written : Nat) : UsbM (Except UsbError Nat) := do
  ep.scheduleTransfer written
  return .ok written

/-- What follows the write of `ctrl0_write`. -/
def armBoth (ctrlIn : Endpoint) (written : Nat) : UsbM (Except UsbError Nat) := do
  ctrlIn.scheduleTransfer written
  let ctrlOut ← unwrap (← endpoint ctrlEp0Out)
  if !(← ctrlOut.isPrimed) then
    ctrlOut.clearComplete
    ctrlOut.clearNack
    ctrlOut.scheduleTransfer 0
  return .ok written

theorem ramKept_armBoth {l : Nat} (hline : L.line (.byte a) = some l) (ctrlIn : Endpoint)
    (written : Nat) : Keeps (cached L) (RamKept L a) (armBoth ctrlIn written) := by
  have hR := ramKept_composes L a
  refine .bind hR (ramKept_scheduleTransfer hline _ _) fun _ =>
    .bind hR (ramKept_plain hline (only_endpoint _)) fun found =>
    .bind hR (.getOr hR _ found) fun ctrlOut =>
    .bind hR (ramKept_plain hline (only_isPrimed _)) fun primed => ?_
  show Keeps (cached L) (RamKept L a) (if _ then _ else _)
  split
  · exact .bind hR (ramKept_plain hline (plain_clearComplete _)) fun _ =>
      .bind hR (ramKept_plain hline (plain_clearNack _)) fun _ =>
      .bind hR (ramKept_scheduleTransfer hline _ _) fun _ => .pure hR _
  · exact .pure hR _

/-- Both return how many bytes were written. -/
theorem armThen_ok {n : Nat} {c₁ : CachedSys} {written : Nat}
    (hrun : exec (cached L) n (armThen ep written) c₁ = ⟨.ok (.ok k), c', o⟩) : k = written := by
  obtain ⟨_, c₂, o₁, o₂, -, hpure, -⟩ := exec_bind_ok _ _ hrun
  exact (Except.ok.inj (Res.ok.inj (Out.mk.inj hpure).1)).symm

theorem armBoth_ok {n : Nat} {c₁ : CachedSys} {written : Nat}
    (hrun : exec (cached L) n (armBoth ep written) c₁ = ⟨.ok (.ok k), c', o⟩) : k = written := by
  obtain ⟨_, c₂, o₁, o₂, -, hrun, -⟩ := exec_bind_ok _ _ hrun
  obtain ⟨_, c₃, o₃, o₄, -, hrun, -⟩ := exec_bind_ok _ _ hrun
  obtain ⟨ctrlOut, c₄, o₅, o₆, -, hrun, -⟩ := exec_bind_ok _ _ hrun
  obtain ⟨primed, c₅, o₇, o₈, -, hrun, -⟩ := exec_bind_ok _ _ hrun
  split at hrun
  · obtain ⟨_, c₆, o₉, o₁₀, -, hrun, -⟩ := exec_bind_ok _ _ hrun
    obtain ⟨_, c₇, o₁₁, o₁₂, -, hrun, -⟩ := exec_bind_ok _ _ hrun
    obtain ⟨_, c₈, o₁₃, o₁₄, -, hpure, -⟩ := exec_bind_ok _ _ hrun
    exact (Except.ok.inj (Res.ok.inj (Out.mk.inj hpure).1)).symm
  · exact (Except.ok.inj (Res.ok.inj (Out.mk.inj hrun).1)).symm

/-- With the lookup of the endpoint before it. -/
theorem sends_lookup (rest : Endpoint → Nat → UsbM (Except UsbError Nat))
    (hc : (cacheView L).inv c) (h : (c.view L).WF) (hep : (c.view L).ep e = some ep)
    (hrest : ∀ k a, (rest ep k).Only (Access.Elsewhere a))
    (hkept : ∀ k a, L.line (.byte a) = some (a / 32) → Keeps (cached L) (RamKept L a) (rest ep k))
    (hok : ∀ w k c₁ c' o, exec (cached L) 1 (rest ep w) c₁ = ⟨.ok (.ok k), c', o⟩ → k = w)
    (hrun : exec (cached L) 1 (do
      let ep ← unwrap (← endpoint e.address)
      sendThen ep buf (rest ep)) c = ⟨.ok (.ok k), c', o⟩) :
    k = min ep.packetLen buf.length ∧ c.Sends L c' ep.buffer.ptr (buf.take k) := by
  obtain ⟨found, c₁, o₁, o₂, hfound, hrun₁, rfl⟩ := exec_bind_ok _ _ hrun
  obtain ⟨⟨_, hview₁⟩, hc₁, hram₁⟩ := plain_exec (only_endpoint e.address) hc hfound
  rw [run_endpoint h] at hview₁
  obtain ⟨hsome, hpost₁, -⟩ := Out.mk.inj hview₁
  rw [Sys.lookup_address, hep] at hsome
  obtain rfl := Res.ok.inj hsome
  -- the lookup found `ep`
  obtain ⟨ep', c₂, o₂, o₃, hunwrap, hrun₂, rfl⟩ := exec_bind_ok _ _ hrun₁
  rw [unwrap, exec_getOr_some] at hunwrap
  obtain ⟨hep', rfl, -⟩ := Out.mk.inj hunwrap
  obtain rfl := Res.ok.inj hep'
  obtain ⟨hsends, c₃, o₄, hlast⟩ :=
    sends_sendThen (h.epOk e ep hep).inPlace hc₁ hrest hkept hrun₂
  have hstores : ep.stores (c₁.view L) buf = min ep.packetLen buf.length := by
    rw [← hpost₁, stores_eq h hep]
  rw [hstores] at hsends hlast
  -- what follows the write returns its size
  obtain rfl := hok _ _ _ _ _ hlast
  refine ⟨rfl, fun i b hb => ?_⟩
  rw [hsends i b hb]
  split
  · rename_i hout
    rw [hram₁ _ _ (if_pos hout.1)]
  · rfl

theorem sends_busWrite {addr : EndpointAddress} (hc : (cacheView L).inv c) (h : (c.view L).WF)
    (haddr : (c.view L).WritesTo addr e) (hep : (c.view L).ep e = some ep)
    (hrun : runCached L (BusAdapter.write addr buf) c = ⟨.ok (.ok k), c', o⟩) :
    k = min ep.packetLen buf.length ∧ c.Sends L c' ep.buffer.ptr (buf.take k) := by
  obtain ⟨found, c₁, o₁, o₂, hfound, hrun₁, rfl⟩ := exec_bind_ok _ _ hrun
  -- the lookup of the adapter stores nothing
  have hplain : Plain True (Driver.isAllocated addr) := .bind (only_endpoint addr) fun _ => .pure _
  obtain ⟨⟨_, hview₁⟩, hc₁, hram₁⟩ := plain_exec hplain hc hfound
  rw [run_isAllocated h] at hview₁
  obtain ⟨hsome, hpost₁, -⟩ := Out.mk.inj hview₁
  rw [haddr.1] at hsome
  obtain rfl := Res.ok.inj hsome
  have hwrite : exec (cached L) 1
      (if addr.index = 0 then Driver.ctrl0Write buf else Driver.epWrite buf addr) c₁ =
        ⟨.ok (.ok k), c', o₂⟩ := hrun₁
  rw [hpost₁] at h hep
  -- what follows it is one of the two writes
  have hsent : k = min ep.packetLen buf.length ∧ c₁.Sends L c' ep.buffer.ptr (buf.take k) := by
    by_cases h0 : addr.index = 0
    · rw [if_pos h0] at hwrite
      have he : e = .ep0In := by
        have := haddr.2
        rwa [if_pos h0] at this
      subst he
      exact sends_lookup armBoth hc₁ h hep (fun _ _ => only_armBoth _ elsewhere_transfers)
        (fun _ _ hl => ramKept_armBoth hl _ _) (fun _ _ _ _ _ => armBoth_ok) hwrite
    · rw [if_neg h0] at hwrite
      have he : addr = e.address := by
        have := haddr.2
        rwa [if_neg h0] at this
      subst he
      refine sends_lookup armThen hc₁ h hep (fun _ _ => ?_) (fun _ _ hl => ?_)
        (fun _ _ _ _ _ => armThen_ok) hwrite
      · exact .bind (only_scheduleTransfer _ (elsewhere_transfers _).toArms) fun _ => .pure _
      · exact .bind (ramKept_composes L _) (ramKept_scheduleTransfer hl _ _) fun _ =>
          .pure (ramKept_composes L _) _
  refine ⟨hsent.1, fun i b hb => ?_⟩
  rw [hsent.2 i b hb]
  split
  · rename_i hout
    rw [hram₁ _ _ (if_pos hout.1)]
  · rfl

end Calls

/-- For every layout of the memory and state of the cache: a write that returns
    has accepted as many bytes as fit, and the controller finds each of them in
    RAM unless its line is cached and none of those that the write maintains. -/
theorem in_coherent {L : Layout} {c c' : CachedSys} {e : EpId} {ep : Endpoint}
    {addr : EndpointAddress} {buf : List Byte} {k : Nat} {o : List CacheObs}
    (hstack : L.StackApart c.core.stack) (h : (c.view L).WF) (haddr : (c.view L).WritesTo addr e)
    (hep : (c.view L).ep e = some ep)
    (hrun : runCached L (BusAdapter.write addr buf) c = ⟨.ok (.ok k), c', o⟩) :
    k = min ep.packetLen buf.length ∧ c.Sends L c' ep.buffer.ptr (buf.take k) := by
  have hlt : c.core.stack < 0xE0000000 := h.stack
  exact sends_busWrite ⟨hstack, by omega⟩ h haddr hep hrun

theorem written_ok {L : Layout} {a : EndpointAddress} {b : List Byte} {c : CachedSys} {k : Nat}
    (h : (runCached L (BusAdapter.write a b) c).res = .ok (.ok k)) :
    ∃ (c' : CachedSys) (o : List CacheObs),
      runCached L (BusAdapter.write a b) c = ⟨.ok (.ok k), c', o⟩ :=
  ⟨_, _, by rw [← h]⟩

theorem wf_configured : ((CachedSys.cold device.configured).view deviceLayout).WF :=
  (reachable_configured deviceLayout).wf

theorem bulkIn_configured : ((CachedSys.cold device.configured).view deviceLayout).ep bulkIn =
    some (deviceEndpoint bulkIn 3 .Bulk) := by
  rw [CachedSys.view_cold, configured_step.ep_eq device_booted.reachable.wf]
  exact device_bulkIn

theorem writesTo_configured : ((CachedSys.cold device.configured).view deviceLayout).WritesTo
    bulkIn.address bulkIn := by
  refine ⟨?_, rfl⟩
  rw [Sys.lookup_address, bulkIn_configured]
  rfl

theorem in_coherent_device : ∃ (c' : CachedSys) (o : List CacheObs),
    runCached deviceLayout (BusAdapter.write bulkIn.address [7, 8, 9])
      (.cold device.configured) = ⟨.ok (.ok 3), c', o⟩ ∧
    (CachedSys.cold device.configured).Sends deviceLayout c'
      (deviceEndpoint bulkIn 3 .Bulk).buffer.ptr [7, 8, 9] := by
  obtain ⟨c', o, hrun⟩ := written_ok (L := deviceLayout) (a := bulkIn.address) (b := [7, 8, 9])
    (c := .cold device.configured) (k := 3) (by decide +kernel)
  exact ⟨c', o, hrun, (in_coherent fits_configured.stack wf_configured writesTo_configured
    bulkIn_configured hrun).2⟩

/-! ## Buffers of whole lines -/

/-- Requests of whole lines get buffers that start with a line. -/
theorem Tiles.aligned {bottom top : Nat} {bs : List Buffer} (h : Tiles bottom top bs)
    (htop : top % 32 = 0) (hlen : ∀ b ∈ bs, b.len % 32 = 0) : ∀ b ∈ bs, b.ptr % 32 = 0 := by
  induction bs generalizing top with
  | nil => exact fun b hb => absurd hb List.not_mem_nil
  | cons b bs ih =>
    have hfirst : b.ptr % 32 = 0 := by
      have := h.1
      have := hlen b List.mem_cons_self
      omega
    intro b' hb'
    obtain rfl | hrest := List.mem_cons.mp hb'
    · exact hfirst
    · exact ih h.2 hfirst (fun b hb => hlen b (List.mem_cons_of_mem _ hb)) b' hrest

theorem Allocator.len_granted (sizes : List Nat) : ∀ (a : Allocator) (b : Buffer),
    b ∈ a.granted sizes → b.len ∈ sizes := by
  induction sizes with
  | nil => exact fun _ _ hb => absurd hb List.not_mem_nil
  | cons size sizes ih =>
    intro a b hb
    have hsplit : a.granted (size :: sizes) =
        (a.allocate size).1.toList ++ (a.allocate size).2.granted sizes := by
      cases hfirst : (a.allocate size).1 <;>
        simp [Allocator.granted, Allocator.allocateAll, hfirst]
    rw [hsplit, List.mem_append, Option.mem_toList, Allocator.allocate_eq] at hb
    obtain hfirst | hrest := hb
    · split at hfirst
      · obtain rfl := Option.some.inj hfirst
        exact List.mem_cons_self
      · simp at hfirst
    · exact List.mem_cons_of_mem _ (ih _ b hrest)

/-- With endpoint memory that ends with a line, and packets of whole lines: all
    that a write accepts is in RAM when it returns. -/
theorem aligned_in_coherent {L : Layout} {c c' : CachedSys} {e : EpId} {ep : Endpoint}
    {addr : EndpointAddress} {buf : List Byte} {k start len : Nat} {sizes : List Nat}
    {o : List CacheObs} (hstack : L.StackApart c.core.stack) (h : (c.view L).WF)
    (haddr : (c.view L).WritesTo addr e) (hep : (c.view L).ep e = some ep)
    (hmem : ep.buffer ∈ (Allocator.fromBuffer start len).granted sizes)
    (hend : (start + len) % 32 = 0) (hsizes : ∀ size ∈ sizes, size % 32 = 0)
    (hrun : runCached L (BusAdapter.write addr buf) c = ⟨.ok (.ok k), c', o⟩) :
    ∀ i b, i < k → buf[i]? = some b → c'.memory.ram (.byte (ep.buffer.ptr + i)) = b := by
  have hlt : c.core.stack < 0xE0000000 := h.stack
  obtain ⟨hk, hsends⟩ := sends_busWrite ⟨hstack, by omega⟩ h haddr hep hrun
  obtain ⟨-, -, htiles⟩ := Allocator.tiles_granted start len sizes
  have hptr : ep.buffer.ptr % 32 = 0 :=
    htiles.aligned hend (fun b hb => hsizes _ (Allocator.len_granted sizes _ b hb)) _ hmem
  intro i b hi hb
  have hlen : (buf.take k).length = k := by
    rw [List.length_take]
    omega
  rw [hsends i b (by rw [List.getElem?_take_of_lt hi, hb]), hlen, if_neg]
  -- every line that was written to is maintained
  rintro ⟨-, hout⟩
  exact hout ((linesOf_covers_iff (by omega)).mpr (by omega) _ (by omega) (by omega))

theorem aligned_in_coherent_device : ∃ (c' : CachedSys) (o : List CacheObs),
    runCached deviceLayout (BusAdapter.write bulkIn.address [7, 8, 9])
      (.cold device.configured) = ⟨.ok (.ok 3), c', o⟩ ∧
    c'.memory.ram (.byte ((deviceEndpoint bulkIn 3 .Bulk).buffer.ptr + 1)) = 8 := by
  obtain ⟨c', o, hrun⟩ := written_ok (L := deviceLayout) (a := bulkIn.address) (b := [7, 8, 9])
    (c := .cold device.configured) (k := 3) (by decide +kernel)
  have hmem : (deviceEndpoint bulkIn 3 .Bulk).buffer ∈
      (Allocator.fromBuffer 0x20200000 2048).granted [64, 64, 64, 64] := by decide
  exact ⟨c', o, hrun, aligned_in_coherent fits_configured.stack wf_configured writesTo_configured
    bulkIn_configured hmem (by decide) (by decide) hrun 1 8 (by omega) rfl⟩

end ImxrtUsbd
