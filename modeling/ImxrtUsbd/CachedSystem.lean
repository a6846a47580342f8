/-
  ImxrtUsbd.CachedSystem

  The system with descriptors and endpoint memory in write-back cacheable RAM:
  the driver's loads and stores go through the cache, the controller works on
  what is in RAM.

  What the driver sees of it is a `Sys` (`CachedSys.view`), and on it the
  driver's code does what it does on coherent memory (`cached`): its cache
  maintenance goes to the stack slot of the `self` reference, so that it never
  changes what the driver sees.
-/
import ImxrtUsbd.Lib.Cache
import ImxrtUsbd.Lib.Simulation
import ImxrtUsbd.Controller

namespace ImxrtUsbd

open Lib

/-! ## Places -/

/-- A word of a descriptor, or a byte of endpoint memory. -/
inductive Place where
  | td (t : TdRef) (w : TdWord)
  | capabilities (qh : Nat)
  | setup (qh : Nat) (high : Bool)
  | byte (addr : Nat)
  deriving DecidableEq

/-- What is there. -/
abbrev Place.Val : Place → Type
  | .byte _ => Byte
  | .td _ _ | .capabilities _ | .setup _ _ => Word

/-- The place of a word in its descriptor (`#[repr(C)]`). -/
def TdWord.offset : TdWord → Nat
  | .NEXT => 0
  | .TOKEN => 4
  | .BUFFER_POINTERS i => 8 + 4 * i
  | .lastTransferSize => 28

/-- Where the descriptor lists are, and which lines are cached. -/
structure Layout where
  tdList : Nat
  qhList : Nat
  /-- The cache lines with descriptors or endpoint memory in them. -/
  cacheable : Nat → Bool
  /-- `#[repr(align(32))] struct TdList` -/
  aligned : tdList % 32 = 0

namespace Layout

def addr (L : Layout) : Place → Nat
  | .td (.list i) w => L.tdList + 32 * i + w.offset
  | .td (.overlay i) w => L.qhList + 64 * i + 8 + w.offset
  | .capabilities i => L.qhList + 64 * i
  | .setup i high => L.qhList + 64 * i + 40 + (if high then 4 else 0)
  | .byte a => a

/-- Cache lines have 32 bytes. -/
def line (L : Layout) (p : Place) : Option Nat :=
  if L.cacheable (L.addr p / 32) then some (L.addr p / 32) else none

/-- The stack slot at `stack` is elsewhere, with what the maintenance of a
    queue head there covers. -/
def StackApart (L : Layout) (stack : Nat) : Prop :=
  L.cacheable (stack / 32) = false ∧ L.cacheable (stack / 32 + 1) = false

end Layout

/-- A descriptor of the list is one cache line. -/
theorem TdWord.offset_lt (w : TdWord) : w.offset < 32 := by
  cases w with
  | BUFFER_POINTERS i =>
    have := i.isLt
    show 8 + 4 * i.val < 32
    omega
  | NEXT | TOKEN | lastTransferSize => decide

theorem Layout.line_td (L : Layout) (i : Nat) (w : TdWord) :
    L.line (.td (.list i) w) = L.line (.td (.list i) .TOKEN) := by
  have hlt := w.offset_lt
  have haligned := L.aligned
  have h : ∀ w : TdWord, w.offset < 32 →
      L.addr (.td (.list i) w) / 32 = L.tdList / 32 + i := by
    intro w hw
    show (L.tdList + 32 * i + w.offset) / 32 = _
    omega
  rw [line, line, h w hlt, h .TOKEN (TdWord.offset_lt _)]

theorem Layout.cacheable_of_line (L : Layout) {p : Place} {i : Nat} (h : L.line p = some i) :
    L.cacheable i = true := by
  unfold line at h
  split at h
  · rename_i hc
    rwa [Option.some.inj h] at hc
  · simp at h

/-! ## Memory as places -/

/-- A descriptor, word by word. -/
def Td.ofWords (f : TdWord → Word) : Td :=
  ⟨f .NEXT, f .TOKEN, fun i => f (.BUFFER_POINTERS i), f .lastTransferSize⟩

/-- The system without its memory. -/
structure Core where
  reg : Reg → Word
  stack : Nat
  driver : Driver

/-- With this in memory. -/
def Core.withMemory (k : Core) (f : (p : Place) → p.Val) : Sys where
  reg := k.reg
  td := fun i => .ofWords fun w => f (.td (.list i) w)
  qh := fun i =>
    { capabilities := f (.capabilities i)
      overlay := .ofWords fun w => f (.td (.overlay i) w)
      setup := f (.setup i true) ++ f (.setup i false) }
  mem := fun a => f (.byte a)
  stack := k.stack
  driver := k.driver

namespace Sys

def core (s : Sys) : Core := ⟨s.reg, s.stack, s.driver⟩

/-- What is at a place. -/
def content (s : Sys) : (p : Place) → p.Val
  | .td t w => (s.tdAt t).get w
  | .capabilities i => (s.qh i).capabilities
  | .setup i high => (s.qh i).setup.extractLsb' (if high then 32 else 0) 32
  | .byte a => s.mem a

end Sys

section Memory

variable {k : Core} {f : (p : Place) → p.Val}

theorem Td.get_ofWords (g : TdWord → Word) (w : TdWord) : (Td.ofWords g).get w = g w := by
  cases w <;> rfl

theorem Td.put_ofWords (g : TdWord → Word) (w : TdWord) (v : Word) :
    (Td.ofWords g).put w v = .ofWords (Function.update g w v) := by
  cases w with
  | BUFFER_POINTERS i =>
    have hp : Function.update (fun j => g (.BUFFER_POINTERS j)) i v =
        fun j => Function.update g (.BUFFER_POINTERS i) v (.BUFFER_POINTERS j) := by
      funext j
      by_cases h : j = i
      · subst h
        simp
      · simp [h]
    simp [Td.ofWords, Td.put, hp]
  | NEXT | TOKEN | lastTransferSize => simp [Td.ofWords, Td.put]

theorem tdAt_withMemory (t : TdRef) :
    (k.withMemory f).tdAt t = .ofWords fun w => f (.td t w) := by
  cases t <;> rfl

theorem content_withMemory (p : Place) : (k.withMemory f).content p = f p := by
  cases p with
  | td t w =>
    show ((k.withMemory f).tdAt t).get w = _
    rw [tdAt_withMemory, Td.get_ofWords]
  | setup i high =>
    -- the halves are taken out as they were put in
    have hlo : ∀ x y : Word, (x ++ y).extractLsb' 0 32 = y := by
      intro x y
      apply BitVec.eq_of_getLsbD_eq
      intro j hj
      rw [BitVec.getLsbD_extractLsb', BitVec.getLsbD_append, Nat.zero_add]
      simp [hj]
    have hhi : ∀ x y : Word, (x ++ y).extractLsb' 32 32 = x := by
      intro x y
      apply BitVec.eq_of_getLsbD_eq
      intro j hj
      rw [BitVec.getLsbD_extractLsb', BitVec.getLsbD_append]
      have h1 : ¬ 32 + j < 32 := by omega
      simp [hj, h1]
    cases high with
    | false => exact hlo _ _
    | true => exact hhi _ _
  | capabilities | byte => rfl

theorem withMemory_content (s : Sys) : s.core.withMemory s.content = s := by
  have hsetup : ∀ i, (s.content (.setup i true) ++ s.content (.setup i false) : BitVec 64) =
      (s.qh i).setup := fun i => append_halves (s.qh i).setup
  unfold Core.withMemory
  simp only [hsetup]
  rfl

/-- Storing a word of a descriptor. -/
theorem withMemory_storeTd (t : TdRef) (w : TdWord) (v : Word) :
    k.withMemory (Function.update f (.td t w) v) =
      (k.withMemory f).setTdAt t (((k.withMemory f).tdAt t).put w v) := by
  -- only the words of `t` change
  have hwords : ∀ t', (fun w' => Function.update f (.td t w) v (.td t' w')) =
      if t' = t then Function.update (fun w' => f (.td t w')) w v else fun w' => f (.td t' w') := by
    intro t'
    funext w'
    by_cases ht : t' = t
    · subst ht
      by_cases hw : w' = w
      · subst hw
        simp
      · simp [hw]
    · simp [ht]
  rw [tdAt_withMemory, Td.put_ofWords]
  unfold Core.withMemory
  cases t with
  | list j =>
    have htd : (fun i => Td.ofWords fun w' => Function.update f (.td (.list j) w) v
        (.td (.list i) w')) = Function.update (fun i => Td.ofWords fun w' => f (.td (.list i) w')) j
          (.ofWords (Function.update (fun w' => f (.td (.list j) w')) w v)) := by
      funext i
      rw [hwords]
      by_cases hi : i = j
      · subst hi
        simp
      · simp [hi]
    simp [Sys.setTdAt, htd]
  | overlay j =>
    have htd : ∀ i, (fun w' => Function.update f (.td (.overlay j) w) v (.td (.list i) w')) =
        fun w' => f (.td (.list i) w') := by
      intro i
      rw [hwords]
      simp
    simp only [Sys.setTdAt, htd]
    congr 1
    funext i
    rw [hwords]
    by_cases hi : i = j
    · subst hi
      simp
    · simp [hi]

theorem withMemory_storeCapabilities (i : Nat) (v : Word) :
    k.withMemory (Function.update f (.capabilities i) v) =
      { k.withMemory f with
        qh := Function.update (k.withMemory f).qh i
          { (k.withMemory f).qh i with capabilities := v } } := by
  unfold Core.withMemory
  simp only [Function.update_of_ne, ne_eq, reduceCtorEq, not_false_eq_true]
  congr 1
  funext j
  by_cases hj : j = i
  · subst hj
    simp
  · simp [hj]

theorem withMemory_storeByte (a : Nat) (b : Byte) :
    k.withMemory (Function.update f (.byte a) b) =
      { k.withMemory f with mem := Function.update (k.withMemory f).mem a b } := by
  unfold Core.withMemory
  simp only [Function.update_of_ne, ne_eq, reduceCtorEq, not_false_eq_true]
  congr 1
  funext x
  by_cases hx : x = a
  · subst hx
    simp
  · simp [hx]

/-- A register write does not look at memory. -/
theorem withMemory_writeReg (g : (p : Place) → p.Val) (r : Reg) (v : Word) :
    (k.withMemory f).writeReg r v = ((k.withMemory g).writeReg r v).core.withMemory f := by
  cases r with
  | USBCMD =>
    unfold Sys.writeReg
    dsimp only
    split <;> rfl
  | _ => rfl

end Memory

/-! ## The system behind the cache -/

/-- What is noted of the driver's accesses. -/
inductive CacheObs where
  | usb (o : Obs)
  /-- The `TOKEN` of this element of the TD list was loaded. -/
  | token (td : Nat) (v : Word)
  deriving DecidableEq, Repr

structure CachedSys where
  core : Core
  memory : Cache Place Place.Val

namespace CachedSys

/-- The system as the driver sees it. -/
def view (L : Layout) (c : CachedSys) : Sys := c.core.withMemory (c.memory.view L.line)

/-- The system as the controller sees it. -/
def inRam (c : CachedSys) : Sys := c.core.withMemory c.memory.ram

/-- A load fetches the line and answers from it. -/
def load (L : Layout) (c : CachedSys) (p : Place) : p.Val × CachedSys :=
  ((c.memory.touch L.line p).view L.line p, { c with memory := c.memory.touch L.line p })

def store (L : Layout) (c : CachedSys) (p : Place) (v : p.Val) : CachedSys :=
  { c with memory := c.memory.store L.line p v }

/-- Nothing of the system is in the cache. -/
def cold (s : Sys) : CachedSys :=
  ⟨s.core, ⟨s.content, s.content, fun _ => false, fun _ => false⟩⟩

end CachedSys

/-- The driver's accesses, through the cache. -/
def cachedAct (L : Layout) : {β : Type} → Access β → CachedSys → β × CachedSys × List CacheObs
  | _, .readReg r, c => (c.core.reg r, c, [])
  | _, .writeReg r v, c =>
    ((), { c with core := (c.inRam.writeReg r v).core },
      if r = .ENDPTPRIME then [.usb (.prime v (c.core.reg .ENDPTSTAT))] else [])
  | _, .loadTd t w, c =>
    let r := c.load L (.td t w)
    (r.1, r.2, match t, w with
      | .list i, .TOKEN => [.token i r.1]
      | _, _ => [])
  | _, .storeTd t w v, c => ((), c.store L (.td t w) v, [])
  | _, .loadCapabilities i, c =>
    let r := c.load L (.capabilities i)
    (r.1, r.2, [])
  | _, .storeCapabilities i v, c => ((), c.store L (.capabilities i) v, [])
  | _, .loadSetup i high, c =>
    let r := c.load L (.setup i high)
    (r.1, r.2, [.usb (.setup high r.1)])
  | _, .loadByte a, c =>
    let r := c.load L (.byte a)
    (r.1, r.2, [])
  | _, .storeByte a b, c => ((), c.store L (.byte a) b, [])
  | _, .dccimvac addr, c =>
    ((), { c with memory := c.memory.cleanInvalidate L.line (addr.toNat / 32) }, [])
  | _, .addrOfSelf, c => (c.core.stack, c, [])
  | _, .getDriver, c => (c.core.driver, c, [])
  | _, .setDriver d, c => ((), { c with core := { c.core with driver := d } }, [])

def cached (L : Layout) : Machine Access CachedSys CacheObs := ⟨cachedAct L⟩

/-- Run driver code on cached memory. -/
def runCached {α : Type} (L : Layout) (p : UsbM α) (c : CachedSys) :
    Out CachedSys CacheObs Fault α := exec (cached L) 1 p c

/-! ## What the driver sees -/

/-- What is seen at the bus. -/
def CacheObs.usb? : CacheObs → Option Obs
  | .usb o => some o
  | .token _ _ => none

/-- The system as the driver sees it: a line that was fetched stays. -/
def cacheView (L : Layout) : Simulation (cached L) usb where
  abs := CachedSys.view L
  see := CacheObs.usb?
  inv := fun c => L.StackApart c.core.stack ∧ c.core.stack < 2 ^ 32
  kept := fun c c' => c'.core.stack = c.core.stack ∧
    ∀ l, L.cacheable l = true → c.memory.valid l = true → c'.memory.valid l = true
  refl := fun _ => ⟨rfl, fun _ _ h => h⟩
  trans := fun h h' => ⟨h'.1.trans h.1, fun l hl hv => h'.2 l hl (h.2 l hl hv)⟩

/-- The access is not about the cache, and looks at or changes descriptors of
    the list only if `τ`. -/
def Access.Plain (τ : Prop) : (β : Type) → Access β → Prop
  | _, .loadTd _ _ | _, .storeTd _ _ _ => τ
  | _, .dccimvac _ | _, .addrOfSelf => False
  | _, .readReg _ | _, .writeReg _ _ | _, .loadCapabilities _ | _, .storeCapabilities _ _
  | _, .loadSetup _ _ | _, .loadByte _ | _, .storeByte _ _ | _, .getDriver
  | _, .setDriver _ => True

section View

variable {L : Layout} {c : CachedSys}

theorem Sys.stack_writeReg (s : Sys) (r : Reg) (v : Word) : (s.writeReg r v).stack = s.stack := by
  cases r with
  | USBCMD =>
    unfold Sys.writeReg
    dsimp only
    split <;> rfl
  | _ => rfl

theorem CachedSys.load_fst (p : Place) : (c.load L p).1 = (c.view L).content p := by
  rw [view, content_withMemory]
  exact congrFun (Cache.view_touch c.memory p) p

theorem CachedSys.view_load (p : Place) : (c.load L p).2.view L = c.view L :=
  congrArg c.core.withMemory (Cache.view_touch c.memory p)

theorem CachedSys.holds_cold (s : Sys) (p : Place) :
    (cold s).memory.holds L.line p = false := by
  cases hp : L.line p with
  | none => exact Cache.holds_none hp
  | some i => exact Cache.holds_some hp

theorem CachedSys.view_cold (s : Sys) : (cold s).view L = s := by
  have hmem : (cold s).memory.view L.line = s.content :=
    funext fun p => Cache.view_of_not_holds (holds_cold s p)
  rw [view, hmem]
  exact withMemory_content s

theorem CachedSys.kept_load (p : Place) : (cacheView L).kept c (c.load L p).2 :=
  ⟨rfl, fun _ _ h => Cache.valid_touch h p⟩

theorem CachedSys.kept_store (p : Place) (v : p.Val) : (cacheView L).kept c (c.store L p v) :=
  ⟨rfl, fun _ _ h => Cache.valid_store h p v⟩

theorem CachedSys.view_store (p : Place) (v : p.Val) :
    (c.store L p v).view L = c.core.withMemory (Function.update (c.memory.view L.line) p v) :=
  congrArg c.core.withMemory (Cache.view_store c.memory p v)

/-- Through the cache the driver sees what it would see without one. -/
theorem simulates_access {τ : Prop} {β : Type} {e : Access β} (h : e.Plain τ) :
    (cacheView L).Simulates (φ := Fault) (Prog.access e) := by
  refine Simulation.Simulates.access fun c hc => ?_
  cases e with
  | readReg r => exact ⟨rfl, rfl, rfl, hc, (cacheView L).refl c⟩
  | writeReg r v =>
    -- registers are not cached
    have hstack : (c.inRam.writeReg r v).stack = c.core.stack := c.inRam.stack_writeReg r v
    refine ⟨rfl, withMemory_writeReg _ r v, ?_, ?_, hstack, fun _ _ h => h⟩
    · by_cases hr : r = .ENDPTPRIME
      · subst hr
        rfl
      · simp [usb, cached, usbAct, cachedAct, hr]
    · show L.StackApart (c.inRam.writeReg r v).stack ∧ (c.inRam.writeReg r v).stack < 2 ^ 32
      rw [hstack]
      exact hc
  | loadTd t w =>
    -- a load fills lines and leaves the view
    refine ⟨(CachedSys.load_fst (.td t w)).symm, (CachedSys.view_load (.td t w)).symm, ?_, hc,
      CachedSys.kept_load (.td t w)⟩
    cases t <;> cases w <;> rfl
  | storeTd t w v =>
    -- a store is seen through the cache at once
    refine ⟨rfl, ?_, rfl, hc, CachedSys.kept_store (.td t w) v⟩
    exact (withMemory_storeTd t w v).symm.trans (CachedSys.view_store (.td t w) v).symm
  | loadCapabilities i =>
    exact ⟨(CachedSys.load_fst (.capabilities i)).symm,
      (CachedSys.view_load (.capabilities i)).symm, rfl, hc, CachedSys.kept_load (.capabilities i)⟩
  | storeCapabilities i v =>
    refine ⟨rfl, ?_, rfl, hc, CachedSys.kept_store (.capabilities i) v⟩
    exact (withMemory_storeCapabilities i v).symm.trans
      (CachedSys.view_store (.capabilities i) v).symm
  | loadSetup i high =>
    have hv : ((c.view L).qh i).setup.extractLsb' (if high then 32 else 0) 32 =
        (c.load L (.setup i high)).1 := (CachedSys.load_fst (.setup i high)).symm
    refine ⟨hv, (CachedSys.view_load (.setup i high)).symm, ?_, hc,
      CachedSys.kept_load (.setup i high)⟩
    exact congrArg (fun v => [Obs.setup high v]) hv
  | loadByte a =>
    exact ⟨(CachedSys.load_fst (.byte a)).symm, (CachedSys.view_load (.byte a)).symm, rfl, hc,
      CachedSys.kept_load (.byte a)⟩
  | storeByte a b =>
    refine ⟨rfl, ?_, rfl, hc, CachedSys.kept_store (.byte a) b⟩
    exact (withMemory_storeByte a b).symm.trans (CachedSys.view_store (.byte a) b).symm
  | dccimvac addr => exact absurd h id
  | addrOfSelf => exact absurd h id
  | getDriver => exact ⟨rfl, rfl, rfl, hc, (cacheView L).refl c⟩
  | setDriver d => exact ⟨rfl, rfl, rfl, hc, rfl, fun _ _ h => h⟩

end View

end ImxrtUsbd
