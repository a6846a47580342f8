/-
  ImxrtUsbd.LineSharing

  A write to one endpoint while the controller stores packets into the buffer
  of another.

  Buffers do not overlap, but their cache lines can: the maintenance of a line
  that both buffers reach into writes the driver's stale copy over what the
  controller stored (`exists_destroyed`).  A packet survives every interleaving
  exactly if none of its buffer is in a line that the write maintains
  (`received_kept_iff`).
-/
import ImxrtUsbd.CacheUpkeep
import ImxrtUsbd.Lib.Interleave

namespace ImxrtUsbd

open Lib

/-! ## The controller's stores -/

/-- The controller stores a byte into the buffer. -/
def dmaInto (b : Buffer) (x : Nat × Byte) (c : CachedSys) : Option CachedSys :=
  if b.ptr ≤ x.1 ∧ x.1 < b.ptr + b.len then
    some { c with memory := c.memory.dma (Function.update c.memory.ram (.byte x.1) x.2) }
  else
    none

/-- What is at the address if only the controller stores to it. -/
def received (a : Nat) (v : Byte) (obs : List (Moment (Nat × Byte) CacheObs)) : Byte :=
  obs.foldl (fun v m =>
    match m with
    | .event x => if x.1 = a then x.2 else v
    | .access _ => v) v

/-- However the program is interleaved with stores of the controller into the
    buffer, they are in memory at the end. -/
def KeepsReceived {α : Type} (L : Layout) (b : Buffer) (p : UsbM α) (c : CachedSys) : Prop :=
  ∀ n σ a, b.ptr ≤ a → a < b.ptr + b.len →
    let r := exec ((cached L).interleaved (dmaInto b)) n p (c, σ)
    r.post.1.memory.ram (.byte a) = received a (c.memory.ram (.byte a)) r.obs

/-- Where the controller's stores are kept at the address. -/
def KeptAt (a : Nat) (c : CachedSys) (obs : List (Moment (Nat × Byte) CacheObs))
    (c' : CachedSys) : Prop :=
  c'.memory.ram (.byte a) = received a (c.memory.ram (.byte a)) obs

section Kept

variable {L : Layout} {b : Buffer} {a : Nat} {α : Type}

theorem keptAt_composes (a : Nat) : Composes (KeptAt a) where
  refl := fun c => rfl
  trans := by
    intro c c' c'' o o' h h'
    show c''.memory.ram (.byte a) = _
    rw [received, List.foldl_append]
    exact h'.trans (congrArg (received a · o') h)

theorem keptAt_dma (x : Nat × Byte) (c c' : CachedSys) (h : dmaInto b x c = some c') :
    KeptAt a c [.event x] c' := by
  unfold dmaInto at h
  split at h
  · obtain rfl := Option.some.inj h
    show Function.update c.memory.ram (.byte x.1) x.2 (.byte a) = if x.1 = a then x.2 else _
    by_cases hx : x.1 = a
    · subst hx
      simp
    · rw [if_neg hx]
      exact Function.update_of_ne (by simpa using Ne.symm hx) _ _
  · simp at h

/-! ## Lines apart -/

/-- The access neither stores to the address nor maintains its line. -/
def Access.Spares (a : Nat) : (β : Type) → Access β → Prop
  | _, .storeByte x _ => x ≠ a
  | _, .dccimvac addr => addr.toNat / 32 ≠ a / 32
  | _, .storeTd _ _ _ | _, .storeCapabilities _ _ | _, .writeReg _ _ => False
  | _, .readReg _ | _, .loadTd _ _ | _, .loadCapabilities _ | _, .loadSetup _ _ | _, .loadByte _
  | _, .addrOfSelf | _, .getDriver | _, .setDriver _ => True

/-- Accesses are no stores of the controller. -/
theorem received_access (v : Byte) (o : List CacheObs) : received a v (o.map .access) = v := by
  induction o with
  | nil => rfl
  | cons _ o ih => exact ih

theorem keptAt_spares {β : Type} {e : Access β} (h : e.Spares a) (c : CachedSys) :
    KeptAt a c (((cached L).act e c).2.2.map .access) ((cached L).act e c).2.1 := by
  show _ = received a _ _
  rw [received_access]
  cases e with
  | storeByte x b => exact Cache.ram_store (by simpa using Ne.symm h) _ _
  | dccimvac addr =>
    refine Cache.ram_cleanInvalidate_of_ne fun hline => h ?_
    unfold Layout.line at hline
    split at hline
    · exact (Option.some.inj hline).symm
    · simp at hline
  | loadTd t w => exact congrFun (Cache.ram_touch c.memory (.td t w)) (.byte a)
  | loadCapabilities i => exact congrFun (Cache.ram_touch c.memory (.capabilities i)) (.byte a)
  | loadSetup i high => exact congrFun (Cache.ram_touch c.memory (.setup i high)) (.byte a)
  | loadByte x => exact congrFun (Cache.ram_touch c.memory (.byte x)) (.byte a)
  | storeTd | storeCapabilities | writeReg => exact h.elim
  | readReg | addrOfSelf | getDriver | setDriver => rfl

theorem spares_storeBytes (bs : List Byte) : ∀ dst, (a < dst ∨ dst + bs.length ≤ a) →
    (storeBytes dst bs).Only (Access.Spares a) := by
  induction bs with
  | nil => exact fun _ _ => .pure _
  | cons x bs ih =>
    intro dst h
    rw [List.length_cons] at h
    have hne : dst ≠ a := by omega
    exact .bind (.access hne) fun _ => ih _ (by omega)

theorem spares_lines (k : Nat) : ∀ addr, addr < 2 ^ 32 →
    (∀ i, i < k → addr / 32 + i ≠ a / 32) →
      (cleanInvalidateLines k addr).Only (Access.Spares a) := by
  induction k with
  | zero => exact fun _ _ _ => .pure _
  | succ k ih =>
    intro addr hlt h
    have hline : (BitVec.ofNat 32 addr).toNat / 32 ≠ a / 32 := by
      rw [BitVec.toNat_ofNat, Nat.mod_eq_of_lt hlt]
      exact h 0 (Nat.succ_pos k)
    refine .bind (.access hline) fun _ => ?_
    show (addUsize addr 32 >>= fun addr => cleanInvalidateLines k addr).Only _
    unfold addUsize Prog.require
    split
    · rename_i hnext
      refine ih _ hnext fun i hi => ?_
      have := h (i + 1) (by omega)
      omega
    · trivial

theorem spares_cleanInvalidate {addr size : Nat} (hlt : size ≠ 0 → addr < 2 ^ 32)
    (h : a / 32 ∉ linesOf addr size) :
    (cleanInvalidateDcacheByAddress addr size).Only (Access.Spares a) := by
  unfold cleanInvalidateDcacheByAddress
  split
  · exact .pure _
  · rename_i hsize
    have hlt := hlt hsize
    have hround := div_and_line hlt
    have hle : addr &&& 0xFFFFFFE0 ≤ addr := Nat.and_le_left
    refine spares_lines _ _ (by omega) fun i hi heq => h (mem_linesOf.mpr ?_)
    omega

/-! ## A write, after its first access -/

/-- What a write does once it knows the packet length. -/
theorem write_eq (ep : Endpoint) (buf : List Byte) :
    ep.write buf = Prog.access (.loadCapabilities ep.qh) >>= fun v => (do
      let size := min (CAPABILITIES.MAXIMUM_PACKET_LENGTH.get v).toNat buf.length
      let written ← ep.buffer.volatileWrite (← sliceTo buf size)
      ep.buffer.cleanInvalidateDcache size
      return written) := rfl

theorem spares_write {ep : Endpoint} {buf : List Byte} {m : Nat}
    (hfit : ep.buffer.ptr + ep.buffer.len ≤ 2 ^ 32)
    (hout : a < ep.buffer.ptr ∨ ep.buffer.ptr + ep.buffer.len ≤ a)
    (hline : a / 32 ∉ linesOf ep.buffer.ptr (min ep.buffer.len (min m buf.length))) :
    (do
      let size := min m buf.length
      let written ← ep.buffer.volatileWrite (← sliceTo buf size)
      ep.buffer.cleanInvalidateDcache size
      return written : UsbM Nat).Only (Access.Spares a) := by
  refine .bind (.bind (.require _ _) fun _ => .pure _) fun slice =>
    .bind (.bind (spares_storeBytes _ _ ?_) fun _ => .pure _) fun _ =>
    .bind (spares_cleanInvalidate ?_ hline) fun _ => .pure _
  · rw [List.length_take]
    omega
  · omega

/-- The controller's stores do not touch a queue head. -/
theorem capabilities_arrive (q : Nat) (es : List (Nat × Byte)) (c : CachedSys) :
    (((arrive (dmaInto b) es c).1.view L).qh q).capabilities = ((c.view L).qh q).capabilities := by
  have hcomp : Composes fun (c : CachedSys) (_ : List (Moment (Nat × Byte) CacheObs)) c' =>
      ((c'.view L).qh q).capabilities = ((c.view L).qh q).capabilities :=
    ⟨fun _ => rfl, fun h h' => h'.trans h⟩
  refine arrive_kept hcomp (fun x c c' h => ?_) es c
  unfold dmaInto at h
  split at h
  · obtain rfl := Option.some.inj h
    show (c.memory.dma _).view L.line (.capabilities q) = c.memory.view L.line (.capabilities q)
    rw [Cache.view_dma]
    split
    · rfl
    · rename_i hheld
      rw [Cache.view_of_not_holds (by simpa using hheld)]
      exact Function.update_of_ne (by simp) _ _
  · simp at h

/-- What is apart from the lines that are maintained survives. -/
theorem kept_of_apart {ep : Endpoint} {buf : List Byte} {c : CachedSys}
    (hfit : ep.buffer.ptr + ep.buffer.len ≤ 2 ^ 32)
    (hout : ∀ a, b.ptr ≤ a → a < b.ptr + b.len →
      a < ep.buffer.ptr ∨ ep.buffer.ptr + ep.buffer.len ≤ a)
    (hline : ∀ a, b.ptr ≤ a → a < b.ptr + b.len →
      a / 32 ∉ linesOf ep.buffer.ptr (ep.stores (c.view L) buf)) :
    KeepsReceived L b (ep.write buf) c := by
  intro n σ a hlo hhi
  show KeptAt a c _ _
  have hcomp := keptAt_composes a
  have hcap := CachedSys.load_fst (L := L) (c := (arrive (dmaInto b) (σ.headD []) c).1)
    (.capabilities ep.qh)
  have hload : ((cached L).act (.loadCapabilities ep.qh)
      (arrive (dmaInto b) (σ.headD []) c).1).1 = ((c.view L).qh ep.qh).capabilities :=
    hcap.trans (capabilities_arrive ep.qh _ c)
  have hspares : (Access.loadCapabilities ep.qh).Spares a := trivial
  rw [write_eq, exec_interleaved]
  refine hcomp.trans (interleaved_act hcomp keptAt_dma (keptAt_spares hspares) (c, σ)) ?_
  refine Keeps.interleaved hcomp keptAt_dma (fun β e c he => keptAt_spares he c) ?_ n _
  rw [hload]
  exact spares_write hfit (hout a hlo hhi) (hline a hlo hhi)

/-! ## Lines shared -/

/-- The address is in a cached line that will be written back, with this copy of it. -/
structure Stale (L : Layout) (a : Nat) (v : Byte) (c : CachedSys) : Prop where
  line : L.line (.byte a) = some (a / 32)
  valid : c.memory.valid (a / 32) = true
  dirty : c.memory.dirty (a / 32) = true
  copy : c.memory.copy (.byte a) = v

/-- It was written back. -/
structure WrittenBack (L : Layout) (a : Nat) (v : Byte) (c : CachedSys) : Prop where
  line : L.line (.byte a) = some (a / 32)
  valid : c.memory.valid (a / 32) = false
  ram : c.memory.ram (.byte a) = v

/-- Maintain a line. -/
def CachedSys.maintain (L : Layout) (c : CachedSys) (l : Nat) : CachedSys :=
  { c with memory := c.memory.cleanInvalidate L.line l }

section Maintain

variable {v : Byte} {c : CachedSys} {l : Nat}

theorem Stale.maintain_self (h : Stale L a v c) : WrittenBack L a v (c.maintain L (a / 32)) where
  line := h.line
  valid := Function.update_self _ _ _
  ram := (Cache.ram_cleanInvalidate_dirty h.line h.valid h.dirty).trans h.copy

theorem Stale.maintain_of_ne (h : Stale L a v c) (hl : l ≠ a / 32) :
    Stale L a v (c.maintain L l) where
  line := h.line
  valid := (Function.update_of_ne (Ne.symm hl) _ _).trans h.valid
  dirty := h.dirty
  copy := h.copy

theorem WrittenBack.maintain (h : WrittenBack L a v c) (l : Nat) :
    WrittenBack L a v (c.maintain L l) where
  line := h.line
  valid := by
    show Function.update c.memory.valid l false (a / 32) = false
    by_cases hl : a / 32 = l
    · rw [hl, Function.update_self]
    · rw [Function.update_of_ne hl, h.valid]
  ram := by
    -- nothing is written back of a line that is not in the cache
    show (if c.memory.valid l && c.memory.dirty l && decide (L.line (.byte a) = some l) then _
      else c.memory.ram (.byte a)) = v
    rw [h.line]
    by_cases hl : a / 32 = l
    · subst hl
      simp [h.valid, h.ram]
    · simp [hl, h.ram]

/-- The loop writes the line back when it comes to it. -/
theorem writtenBack_lines (n k : Nat) : ∀ addr c, addr < 2 ^ 32 →
    WrittenBack L a v c ∨ (Stale L a v c ∧ a < 2 ^ 32 ∧ addr / 32 ≤ a / 32 ∧
      a / 32 < addr / 32 + k) →
      WrittenBack L a v (exec (cached L) n (cleanInvalidateLines k addr) c).post := by
  induction k with
  | zero =>
    rintro addr c - (h | ⟨-, -, h⟩)
    · exact h
    · omega
  | succ k ih =>
    intro addr c hlt h
    have hfirst : exec (cached L) n (dccimvac (BitVec.ofNat 32 addr)) c =
        (⟨.ok (), c.maintain L (addr / 32), []⟩ : Out _ _ Fault _) := by
      rw [dccimvac, exec_access]
      show Out.mk _ (c.maintain L ((BitVec.ofNat 32 addr).toNat / 32)) _ = _
      rw [BitVec.toNat_ofNat, Nat.mod_eq_of_lt hlt]
      rfl
    -- the line is written back now, or one of the lines to come
    have hnext : WrittenBack L a v (c.maintain L (addr / 32)) ∨
        (Stale L a v (c.maintain L (addr / 32)) ∧ a < 2 ^ 32 ∧ addr / 32 + 1 ≤ a / 32 ∧
          a / 32 < addr / 32 + 1 + k) := by
      rcases h with h | ⟨h, ha, hlo, hhi⟩
      · exact Or.inl (h.maintain _)
      · by_cases hl : addr / 32 = a / 32
        · rw [hl]
          exact Or.inl h.maintain_self
        · exact Or.inr ⟨h.maintain_of_ne hl, ha, by omega, by omega⟩
    rw [cleanInvalidateLines, exec_bind, hfirst, Out.andThen_ok]
    by_cases hadd : addr + 32 < 2 ^ 32
    · have hstep : exec (cached L) n (addUsize addr 32) (c.maintain L (addr / 32)) =
          ⟨.ok (addr + 32), c.maintain L (addr / 32), []⟩ := by
        rw [addUsize, exec_bind, exec_require (cached L) n _ _ hadd]
        rfl
      have hline : (addr + 32) / 32 = addr / 32 + 1 := by omega
      rw [exec_bind, hstep, Out.andThen_ok]
      exact ih _ _ hadd (by rwa [hline])
    · have hstep : exec (cached L) n (addUsize addr 32) (c.maintain L (addr / 32)) =
          ⟨.fail .panic, c.maintain L (addr / 32), []⟩ := by
        unfold addUsize Prog.require
        rw [if_neg hadd]
        rfl
      rw [exec_bind, hstep]
      rcases hnext with h | ⟨-, ha, hlo, -⟩
      · exact h
      · omega

end Maintain

/-- Store bytes, nothing in between. -/
def CachedSys.storeAll (L : Layout) (c : CachedSys) (dst : Nat) : List Byte → CachedSys
  | [] => c
  | x :: xs => (c.store L (.byte dst) x).storeAll L (dst + 1) xs

section StoreAll

variable {c : CachedSys} {l : Nat}

theorem exec_storeAll (n : Nat) (σ : List (List (Nat × Byte))) (bs : List Byte) :
    ∀ dst (c : CachedSys), exec ((cached L).interleaved (dmaInto b)) n (storeBytes dst bs)
        (c, List.replicate bs.length [] ++ σ) =
      ⟨.ok (), (c.storeAll L dst bs, σ), []⟩ := by
  induction bs with
  | nil => exact fun _ _ => rfl
  | cons x bs ih =>
    intro dst c
    rw [storeBytes, storeByte, List.length_cons, List.replicate_succ, List.cons_append,
      exec_undisturbed]
    show (exec ((cached L).interleaved (dmaInto b)) n (storeBytes (dst + 1) bs)
      (c.store L (.byte dst) x, List.replicate bs.length [] ++ σ)).after [] = _
    rw [ih]
    rfl

theorem storeAll_dirty (bs : List Byte) : ∀ dst (c : CachedSys),
    (c.memory.valid l = true ∧ c.memory.dirty l = true) ∨
      (∃ i, i < bs.length ∧ L.line (.byte (dst + i)) = some l) →
    (c.storeAll L dst bs).memory.valid l = true ∧ (c.storeAll L dst bs).memory.dirty l = true := by
  induction bs with
  | nil =>
    rintro dst c (h | ⟨i, hi, -⟩)
    · exact h
    · exact absurd hi (Nat.not_lt_zero i)
  | cons x bs ih =>
    intro dst c h
    refine ih _ _ ?_
    rcases h with ⟨hv, hd⟩ | ⟨i, hi, hl⟩
    · exact Or.inl ⟨Cache.valid_store hv _ _, Cache.dirty_store hv hd _ _⟩
    · cases i with
      | zero => exact Or.inl (Cache.dirty_store_self hl _ _)
      | succ i =>
        refine Or.inr ⟨i, Nat.lt_of_succ_lt_succ hi, ?_⟩
        rwa [show dst + 1 + i = dst + (i + 1) by omega]

theorem storeAll_view (bs : List Byte) : ∀ dst (c : CachedSys), a < dst ∨ dst + bs.length ≤ a →
    (c.storeAll L dst bs).memory.view L.line (.byte a) = c.memory.view L.line (.byte a) := by
  induction bs with
  | nil => exact fun _ _ _ => rfl
  | cons x bs ih =>
    intro dst c h
    rw [List.length_cons] at h
    have hne : Place.byte a ≠ .byte dst := by
      intro heq
      have := Place.byte.inj heq
      omega
    rw [CachedSys.storeAll, ih _ _ (by omega)]
    show (c.memory.store L.line (.byte dst) x).view L.line (.byte a) = _
    rw [Cache.view_store, Function.update_of_ne hne]

/-- After a store to its line, the copy of the address is out of date as soon as
    the controller stores there. -/
theorem storeAll_stale {bs : List Byte} {dst : Nat} (hout : a < dst ∨ dst + bs.length ≤ a)
    (hline : L.line (.byte a) = some (a / 32))
    (hstore : ∃ i, i < bs.length ∧ L.line (.byte (dst + i)) = some (a / 32)) :
    Stale L a (c.memory.view L.line (.byte a)) (c.storeAll L dst bs) := by
  obtain ⟨hv, hd⟩ := storeAll_dirty bs dst c (Or.inr hstore)
  refine ⟨hline, hv, hd, ?_⟩
  rw [← storeAll_view bs dst c hout]
  exact (Cache.view_of_holds ((Cache.holds_some hline).trans hv)).symm

end StoreAll

/-- The controller stores right before the first line is maintained. -/
theorem exec_dma_first (n : Nat) {addr size : Nat} (hsize : 0 < size) {e : Nat × Byte}
    {c c' : CachedSys} (he : dmaInto b e c = some c') :
    exec ((cached L).interleaved (dmaInto b)) n (cleanInvalidateDcacheByAddress addr size)
        (c, [[e]]) =
      ((exec (cached L) n (cleanInvalidateDcacheByAddress addr size) c').alone _).after
        [.event e] := by
  have harrive : arrive (dmaInto b) [e] c = (c', [e]) := by
    rw [arrive, he]
    rfl
  unfold cleanInvalidateDcacheByAddress
  rw [if_neg (by omega), cleanInvalidateLines, dccimvac, exec_arrival, harrive]
  rfl

theorem received_after {v : Byte} (x : Byte) (o : List CacheObs) :
    received a v ([.event (a, x)] ++ o.map .access) = x := by
  show received a (if a = a then x else v) (o.map .access) = x
  rw [if_pos rfl, received_access]

/-- A write that is not interrupted before it maintains its lines. -/
theorem exec_write_stores (ep : Endpoint) (buf : List Byte) (c : CachedSys) (n : Nat)
    (σ : List (List (Nat × Byte))) :
    exec ((cached L).interleaved (dmaInto b)) n (ep.write buf)
        (c, [] :: (List.replicate (ep.stores (c.view L) buf) [] ++ σ)) =
      exec ((cached L).interleaved (dmaInto b)) n
        (cleanInvalidateDcacheByAddress ep.buffer.ptr (ep.stores (c.view L) buf) >>= fun _ =>
          pure (ep.stores (c.view L) buf))
        ((c.load L (.capabilities ep.qh)).2.storeAll L ep.buffer.ptr
          (buf.take (ep.stores (c.view L) buf)), σ) := by
  have hload : ((cached L).act (.loadCapabilities ep.qh) c).1 =
      ((c.view L).qh ep.qh).capabilities := CachedSys.load_fst (L := L) (c := c) (.capabilities _)
  rw [write_eq, exec_undisturbed, hload]
  dsimp only
  generalize hsize : min (CAPABILITIES.MAXIMUM_PACKET_LENGTH.get
    ((c.view L).qh ep.qh).capabilities).toNat buf.length = size
  have hle : size ≤ buf.length := by omega
  have hk : ep.stores (c.view L) buf = min ep.buffer.len size := by rw [Endpoint.stores, hsize]
  -- how many bytes are stored: what the slice, the packet and the buffer leave
  have hslice : ∀ x, exec ((cached L).interleaved (dmaInto b)) n (sliceTo buf size) x =
      ⟨.ok (buf.take size), x, []⟩ := fun x => by
    rw [sliceTo, exec_bind, exec_require _ n _ x hle]
    rfl
  have hwritten : min (buf.take size).length ep.buffer.len = ep.stores (c.view L) buf := by
    rw [hk, List.length_take]
    omega
  have hbytes : (buf.take size).take (ep.stores (c.view L) buf) =
      buf.take (ep.stores (c.view L) buf) := by
    rw [List.take_take, hk]
    congr 1
    omega
  -- the stores, one event slot for each
  have hstore := exec_storeAll (L := L) (b := b) n σ (buf.take (ep.stores (c.view L) buf))
    ep.buffer.ptr (c.load L (.capabilities ep.qh)).2
  have hcount : (buf.take (ep.stores (c.view L) buf)).length = ep.stores (c.view L) buf := by
    rw [List.length_take, hk]
    omega
  rw [hcount] at hstore
  rw [exec_bind, hslice, Out.andThen_ok, exec_bind, Buffer.volatileWrite, exec_bind, hwritten,
    hbytes]
  show (((exec ((cached L).interleaved (dmaInto b)) n _ ((c.load L (.capabilities ep.qh)).2,
    List.replicate (ep.stores (c.view L) buf) [] ++ σ)).andThen _).andThen _).after [] = _
  rw [hstore, Out.andThen_ok, exec_pure, Out.andThen_ok, Buffer.cleanInvalidateDcache, ← hk]
  rfl

/-- A byte that the controller stores between the last store of the write and
    the maintenance of its line is lost. -/
theorem exists_destroyed {ep : Endpoint} {buf : List Byte} {c : CachedSys}
    (hfit : ep.buffer.ptr + ep.buffer.len ≤ 2 ^ 32) (hlt : a < 2 ^ 32)
    (ha : b.ptr ≤ a ∧ a < b.ptr + b.len)
    (hout : a < ep.buffer.ptr ∨ ep.buffer.ptr + ep.buffer.len ≤ a)
    (hcache : ∀ x, x = a ∨ (ep.buffer.ptr ≤ x ∧ x < ep.buffer.ptr + ep.buffer.len) →
      L.cacheable (x / 32) = true)
    (hline : a / 32 ∈ linesOf ep.buffer.ptr (ep.stores (c.view L) buf)) :
    ¬ KeepsReceived L b (ep.write buf) c := by
  intro hkeeps
  have hend := fun v => hkeeps 1
    ([] :: (List.replicate (ep.stores (c.view L) buf) [] ++ [[(a, v)]])) a ha.1 ha.2
  obtain ⟨hpos, hfirst, hlast⟩ := mem_linesOf.mp hline
  have hle : ep.stores (c.view L) buf ≤ ep.buffer.len ∧ ep.stores (c.view L) buf ≤ buf.length := by
    unfold Endpoint.stores
    omega
  have hat : ∀ x, L.cacheable (x / 32) = true → L.line (.byte x) = some (x / 32) :=
    fun x hx => if_pos hx
  have hcount : (buf.take (ep.stores (c.view L) buf)).length = ep.stores (c.view L) buf := by
    rw [List.length_take]
    omega
  have hview : (c.load L (.capabilities ep.qh)).2.memory.view L.line (.byte a) =
      c.memory.view L.line (.byte a) := congrFun (Cache.view_touch c.memory _) _
  simp only [exec_write_stores] at hend
  generalize ep.stores (c.view L) buf = k at *
  -- the stores leave the line dirty
  have hstale : Stale L a (c.memory.view L.line (.byte a))
      ((c.load L (.capabilities ep.qh)).2.storeAll L ep.buffer.ptr (buf.take k)) := by
    rw [← hview]
    refine storeAll_stale (by omega) (hat a (hcache a (Or.inl rfl)))
      ⟨32 * (a / 32 - ep.buffer.ptr / 32), by omega, ?_⟩
    exact (hat _ (hcache _ (Or.inr (by omega)))).trans (congrArg some (by omega))
  generalize c.memory.view L.line (.byte a) = v at *
  generalize (c.load L (.capabilities ep.qh)).2.storeAll L ep.buffer.ptr (buf.take k) = c₁ at *
  -- the controller stores another byte, and the copy is written over it
  have hdma : dmaInto b (a, v + 1) c₁ = some { c₁ with
    memory := c₁.memory.dma (Function.update c₁.memory.ram (.byte a) (v + 1)) } := if_pos ha
  have hback : WrittenBack L a v (exec (cached L) 1 (cleanInvalidateDcacheByAddress ep.buffer.ptr k)
      { c₁ with
        memory := c₁.memory.dma (Function.update c₁.memory.ram (.byte a) (v + 1)) }).post := by
    have hround := div_and_line (a := ep.buffer.ptr) (by omega)
    have hand : ep.buffer.ptr &&& 0xFFFFFFE0 ≤ ep.buffer.ptr := Nat.and_le_left
    rw [cleanInvalidateDcacheByAddress, if_neg (by omega)]
    refine writtenBack_lines 1 _ _ _ (by omega) (Or.inr ⟨?_, hlt, by omega, by omega⟩)
    exact ⟨hstale.line, hstale.valid, hstale.dirty, hstale.copy⟩
  have hend := hend (v + 1)
  have hmap := exec_map ((cached L).interleaved (dmaInto b)) 1
    (cleanInvalidateDcacheByAddress ep.buffer.ptr k) (fun _ => k) (c₁, [[(a, v + 1)]])
  rw [hmap.1, hmap.2, exec_dma_first 1 hpos hdma, Out.after, Out.alone, received_after] at hend
  have hne : v = v + 1 := hback.ram.symm.trans hend
  simp at hne

end Kept

/-- Two buffers granted to different requests do not overlap. -/
theorem Allocator.granted_apart {start len : Nat} {sizes : List Nat} {i j : Nat} {b b' : Buffer}
    (hb : ((fromBuffer start len).granted sizes)[i]? = some b)
    (hb' : ((fromBuffer start len).granted sizes)[j]? = some b') (hij : i ≠ j) :
    b.Disjoint b' := by
  obtain ⟨-, -, htiles⟩ := tiles_granted start len sizes
  obtain ⟨hi, rfl⟩ := List.getElem?_eq_some_iff.mp hb
  obtain ⟨hj, rfl⟩ := List.getElem?_eq_some_iff.mp hb'
  have hpairs := List.pairwise_iff_getElem.mp htiles.pairwise
  rcases Nat.lt_or_gt_of_ne hij with h | h
  · exact Or.inr (hpairs i j hi hj h)
  · exact Or.inl (hpairs j i hj hi h)

/-- For every sequence of requests to the allocator, all buffers of two of
    them, everything written to one, every state of the cache and every
    interleaving with the controller's stores into the other: these survive the
    write exactly if nothing is written, or there is nothing to store to, or the
    other buffer ends before the first line that is maintained, or starts after
    the last one. -/
theorem received_kept_iff {L : Layout} {start len : Nat} (hregion : start + len ≤ 2 ^ 32)
    (hcache : ∀ a, start ≤ a → a < start + len → L.cacheable (a / 32) = true) {sizes : List Nat}
    {i j : Nat} {ep : Endpoint} {b : Buffer}
    (hep : ((Allocator.fromBuffer start len).granted sizes)[i]? = some ep.buffer)
    (hb : ((Allocator.fromBuffer start len).granted sizes)[j]? = some b) (hij : i ≠ j)
    (c : CachedSys) (buf : List Byte) :
    KeepsReceived L b (ep.write buf) c ↔
      ep.stores (c.view L) buf = 0 ∨ b.len = 0 ∨ b.ptr + b.len ≤ ep.buffer.ptr / 32 * 32 ∨
        (ep.buffer.ptr / 32 + (ep.stores (c.view L) buf - 1) / 32 + 1) * 32 ≤ b.ptr := by
  obtain ⟨-, hle, htiles⟩ := Allocator.tiles_granted start len sizes
  have hin := htiles.mem (List.mem_of_getElem? hep)
  have hin' := htiles.mem (List.mem_of_getElem? hb)
  have hapart : ep.buffer.ptr + ep.buffer.len ≤ b.ptr ∨ b.ptr + b.len ≤ ep.buffer.ptr :=
    Allocator.granted_apart hep hb hij
  have hcount : ep.stores (c.view L) buf ≤ ep.buffer.len := Nat.min_le_left _ _
  constructor
  · intro hkeeps
    by_contra hcond
    -- the first byte of the buffer in one of the lines
    have hline : max b.ptr (ep.buffer.ptr / 32 * 32) / 32 ∈
        linesOf ep.buffer.ptr (ep.stores (c.view L) buf) := mem_linesOf.mpr (by omega)
    refine exists_destroyed (by omega) (by omega) (by omega) (by omega) (fun x hx => ?_) hline
      hkeeps
    exact hcache x (by omega) (by omega)
  · intro hcond
    refine kept_of_apart (by omega) (fun a hlo hhi => by omega) fun a hlo hhi hline => ?_
    have := mem_linesOf.mp hline
    omega

/-- The buffers of the device are aligned: packets survive writes to its IN endpoint. -/
theorem received_kept_device :
    KeepsReceived deviceLayout (deviceEndpoint bulkOut 2 .Bulk).buffer
      ((deviceEndpoint bulkIn 3 .Bulk).write [1, 2, 3]) (.cold device) := by
  have hcache : ∀ a, 0x20200000 ≤ a → a < 0x20200000 + 2048 →
      deviceLayout.cacheable (a / 32) = true := by
    intro a hlo hhi
    exact decide_eq_true (by omega)
  have hbulkIn : ((Allocator.fromBuffer 0x20200000 2048).granted [64, 64, 64, 64])[3]? =
      some (deviceEndpoint bulkIn 3 .Bulk).buffer := by decide
  have hbulkOut : ((Allocator.fromBuffer 0x20200000 2048).granted [64, 64, 64, 64])[2]? =
      some (deviceEndpoint bulkOut 2 .Bulk).buffer := by decide
  refine (received_kept_iff (by omega) hcache hbulkIn hbulkOut (by omega) _ _).mpr ?_
  rw [CachedSys.view_cold]
  decide +kernel

/-- The control buffers of the other device share a line: a byte of a data
    packet is lost to the answer that is written meanwhile. -/
theorem received_destroyed :
    Booted oddDevice ∧
      oddDevice.ep .ep0In = some (EpId.ep0In.endpoint ⟨0x202007F0, 8⟩ .Control) ∧
      oddDevice.ep .ep0Out = some (EpId.ep0Out.endpoint ⟨0x202007F8, 8⟩ .Control) ∧
      ¬ KeepsReceived deviceLayout ⟨0x202007F8, 8⟩
        ((EpId.ep0In.endpoint ⟨0x202007F0, 8⟩ .Control).write [1]) (.cold oddDevice) := by
  refine ⟨oddDevice_booted, by decide +kernel, by decide +kernel, fun h => ?_⟩
  have hend := h 1 [[], [], [(0x202007F8, 7)]] 0x202007F8 (Nat.le_refl _) (by decide)
  revert hend
  decide +kernel

end ImxrtUsbd
