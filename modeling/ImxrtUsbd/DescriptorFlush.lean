/-
  ImxrtUsbd.DescriptorFlush

  What is flushed before a transfer is primed.  `schedule_transfer` maintains
  the lines from the slots of its `self` references on, and no others
  (`maintained_before_prime`).  A slot is outside the descriptors, and a queue
  head is aligned to its size: so its second half is never flushed, of the two
  lines that were written one is not, and neither flush covers the object it
  is called on (`descriptors_unflushed`).
-/
import ImxrtUsbd.CacheUpkeep
import ImxrtUsbd.Footprint

namespace ImxrtUsbd

open Lib

/-- The bytes of a transfer descriptor. -/
def Layout.InTd (L : Layout) (ep : Endpoint) (a : Nat) : Prop :=
  L.tdList + 32 * ep.td ≤ a ∧ a < L.tdList + 32 * ep.td + 32

/-- The bytes of a queue head. -/
def Layout.InQh (L : Layout) (ep : Endpoint) (a : Nat) : Prop :=
  L.qhList + 64 * ep.qh ≤ a ∧ a < L.qhList + 64 * ep.qh + 64

instance (L : Layout) (ep : Endpoint) (a : Nat) : Decidable (L.InTd ep a) :=
  inferInstanceAs (Decidable (_ ∧ _))

instance (L : Layout) (ep : Endpoint) (a : Nat) : Decidable (L.InQh ep a) :=
  inferInstanceAs (Decidable (_ ∧ _))

/-- The line was maintained, and nothing was stored to it since. -/
def Flushed (obs : List Upkeep) (l : Nat) : Prop :=
  ∃ pre post, obs = pre ++ .maintained l :: post ∧ ∀ a, .stored a ∈ post → a / 32 ≠ l

theorem Flushed.maintained {obs : List Upkeep} {l : Nat} (h : Flushed obs l) :
    .maintained l ∈ obs := by
  obtain ⟨pre, post, rfl, -⟩ := h
  simp

section Parts

variable {L : Layout} {n k σ : Nat} {α β : Type}

/-! ## Parts of a program -/

/-- A plain program maintains nothing, and refers to no `self`. -/
theorem unmaintained_plain {p : UsbM α} (h : Plain True p) :
    Keeps (upkeep L) (fun x obs y => y.2 = x.2 ∧ ∀ l, .maintained l ∉ obs) p := by
  have hcomp : Composes fun (x : Sys × List Nat) (obs : List Upkeep) y =>
      y.2 = x.2 ∧ ∀ l, .maintained l ∉ obs :=
    { refl := fun x => ⟨rfl, fun l => List.not_mem_nil⟩
      trans := fun h h' => ⟨h'.1.trans h.1, fun l hl =>
        (List.mem_append.mp hl).elim (h.2 l) (h'.2 l)⟩ }
  refine .of_only hcomp (fun β e x he => ?_) h
  cases e with
  | writeReg r v =>
    refine ⟨rfl, fun l hl => ?_⟩
    have hl : .maintained l ∈ (if r = .ENDPTPRIME then [Upkeep.primed] else []) := hl
    split at hl <;> simp at hl
  | storeTd | storeCapabilities | storeByte =>
    exact ⟨rfl, fun l hl => absurd (List.mem_singleton.mp hl) (by simp)⟩
  | readReg | loadTd | loadCapabilities | loadSetup | loadByte | getDriver | setDriver =>
    exact ⟨rfl, fun l => List.not_mem_nil⟩
  | dccimvac | addrOfSelf => exact he.elim

/-- Only a write to `ENDPTPRIME` primes. -/
theorem unprimed_within {p : UsbM α} (h : Within (· ≠ .ENDPTPRIME) p) :
    Keeps (upkeep L) (fun _ obs _ => .primed ∉ obs) p := by
  have hcomp : Composes fun (_ : Sys × List Nat) (obs : List Upkeep) (_ : Sys × List Nat) =>
      .primed ∉ obs :=
    { refl := fun x => List.not_mem_nil
      trans := fun h h' ho => (List.mem_append.mp ho).elim h h' }
  refine .of_only hcomp (fun β e x he => ?_) h
  cases e with
  | writeReg r v =>
    show .primed ∉ (if r = .ENDPTPRIME then [Upkeep.primed] else [])
    rw [if_neg he]
    exact List.not_mem_nil
  | storeTd | storeCapabilities | storeByte | dccimvac =>
    exact fun ho => absurd (List.mem_singleton.mp ho) (by simp)
  | readReg | loadTd | loadCapabilities | loadSetup | loadByte | addrOfSelf | getDriver
    | setDriver => exact List.not_mem_nil

theorem slots_cleanInvalidate (addr size : Nat) :
    Keeps (upkeep L) (fun x _ y => y.2 = x.2) (cleanInvalidateDcacheByAddress addr size) := by
  have hcomp : Composes fun (x : Sys × List Nat) (_ : List Upkeep) y => y.2 = x.2 :=
    ⟨fun x => rfl, fun h h' => h'.trans h⟩
  have hlines : ∀ k addr, Keeps (upkeep L) (fun x _ y => y.2 = x.2)
      (cleanInvalidateLines k addr) := by
    intro k
    induction k with
    | zero => exact fun _ => .pure hcomp ()
    | succ k ih =>
      intro addr
      have hadd : Plain True (addUsize addr 32) := .bind (.require _ _) fun _ => .pure _
      exact .bind hcomp (.access fun x => rfl) fun _ =>
        .bind hcomp (fun n x => (unmaintained_plain hadd n x).1) ih
  unfold cleanInvalidateDcacheByAddress
  split
  · exact .pure hcomp ()
  · exact hlines _ _

/-! ## On the way to the prime -/

variable {pre post : List Upkeep} {x : Sys × List Nat}

/-- The prime comes after a plain part. -/
theorem prime_after_plain {p : UsbM α} {f : α → UsbM β} (hp : Plain True p)
    (hw : Within (· ≠ .ENDPTPRIME) p)
    (h : (exec (upkeep L) n (p >>= f) x).obs = pre ++ .primed :: post) :
    ∃ a s o pre', exec (upkeep L) n p x = ⟨.ok a, (s, x.2), o⟩ ∧ (∀ l, .maintained l ∉ o) ∧
      (exec (upkeep L) n (f a) (s, x.2)).obs = pre' ++ .primed :: post ∧ pre = o ++ pre' := by
  obtain ⟨a, y, o, pre', hexec, hrest, hpre⟩ := exec_bind_shows _ _ h (unprimed_within hw n x)
  have hkept := unmaintained_plain (L := L) hp n x
  rw [hexec] at hkept
  obtain ⟨s, slots⟩ := y
  obtain rfl : slots = x.2 := hkept.1
  exact ⟨a, s, o, pre', hexec, hkept.2, hrest, hpre⟩

/-- The prime comes after the maintenance of a `self` reference, which starts at
    its slot. -/
theorem prime_after_self {f : Unit → UsbM β} {s : Sys} {σs : List Nat} (hσ : σ < 2 ^ 32)
    (h : (exec (upkeep L) n ((do cleanInvalidateDcacheByAddress (← addrOfSelf) k) >>= f)
      (s, σ :: σs)).obs = pre ++ .primed :: post) :
    ∃ s' o pre', (∀ l, .maintained l ∈ o → l ∈ linesOf σ k) ∧
      (exec (upkeep L) n (f ()) (s', σs)).obs = pre' ++ .primed :: post ∧ pre = o ++ pre' := by
  have hself : exec (upkeep L) n (do cleanInvalidateDcacheByAddress (← addrOfSelf) k) (s, σ :: σs) =
      exec (upkeep L) n (cleanInvalidateDcacheByAddress σ k) (s, σs) := by
    have hslot : exec (upkeep L) n addrOfSelf (s, σ :: σs) =
        (⟨.ok σ, (s, σs), []⟩ : Out _ _ Fault _) := rfl
    rw [exec_bind, hslot, Out.andThen_ok]
  have hw : Within (· ≠ .ENDPTPRIME)
      (do cleanInvalidateDcacheByAddress (← addrOfSelf) k : UsbM Unit) :=
    only_cleanSelf ⟨fun _ => trivial, trivial⟩ k
  obtain ⟨u, y, o, pre', hexec, hrest, hpre⟩ := exec_bind_shows _ _ h (unprimed_within hw n _)
  rw [hself] at hexec
  have hkept := slots_cleanInvalidate (L := L) σ k n (s, σs)
  have hlines : ∀ l,
      .maintained l ∈ (exec (upkeep L) n (cleanInvalidateDcacheByAddress σ k) (s, σs)).obs →
        ∃ l' ∈ linesOf σ k, Upkeep.maintained l = .maintained l' :=
    fun l hl => mem_upkeep_cleanInvalidate hσ hl
  rw [hexec] at hkept hlines
  obtain ⟨s', slots⟩ := y
  obtain rfl : slots = σs := hkept
  refine ⟨s', o, pre', fun l hl => ?_, hrest, hpre⟩
  obtain ⟨l', hl', heq⟩ := hlines l hl
  rwa [Upkeep.maintained.inj heq]

theorem maintained_before_prime {ep : Endpoint} {size : Nat} {s : Sys} {σ' : Nat}
    (hσ : σ < 2 ^ 32) (hσ' : σ' < 2 ^ 32)
    (hrun : (exec (upkeep L) n (ep.scheduleTransfer size) (s, [σ, σ'])).obs =
      pre ++ .primed :: post) :
    (∀ l, .maintained l ∈ pre → l ∈ linesOf σ 32 ∨ l ∈ linesOf σ' 64) ∧
      .stored (L.addr (.td (.list ep.td) .NEXT)) ∈ pre ∧
      .stored (L.addr (.td (.overlay ep.qh) .NEXT)) ∈ pre := by
  -- the descriptor is written and flushed
  obtain ⟨_, s₁, o₁, pre, h₁, hm₁, hrun₁, rfl⟩ :=
    prime_after_plain (p := (TdRef.list ep.td).setTerminate) (.access trivial) (.access trivial)
      hrun
  obtain ⟨_, s₂, o₂, pre, -, hm₂, hrun₂, rfl⟩ :=
    prime_after_plain (only_setBuffer (plain_uses trivial _) _ _)
      (only_setBuffer (within_uses _) _ _) hrun₁
  obtain ⟨_, s₃, o₃, pre, -, hm₃, hrun₃, rfl⟩ :=
    prime_after_plain (only_modifyTd (plain_uses trivial _) _ _ _)
      (only_modifyTd (within_uses _) _ _ _) hrun₂
  obtain ⟨_, s₄, o₄, pre, -, hm₄, hrun₄, rfl⟩ :=
    prime_after_plain (only_modifyTd (plain_uses trivial _) _ _ _)
      (only_modifyTd (within_uses _) _ _ _) hrun₃
  obtain ⟨s₅, o₅, pre, hm₅, hrun₅, rfl⟩ := prime_after_self hσ hrun₄
  -- the overlay is written and flushed
  obtain ⟨d, s₆, o₆, pre, -, hm₆, hrun₆, rfl⟩ :=
    prime_after_plain (p := getDriver) (.access trivial) (.access trivial) hrun₅
  obtain ⟨_, s₇, o₇, pre, h₇, hm₇, hrun₇, rfl⟩ :=
    prime_after_plain (p := (TdRef.overlay ep.qh).setNext (d.epAllocator.tdList + 32 * ep.td))
      (.access ((plain_uses trivial (.overlay ep.qh)).store _ _))
      (.access ((within_uses (.overlay ep.qh)).store _ _)) hrun₆
  obtain ⟨_, s₈, o₈, pre, -, hm₈, hrun₈, rfl⟩ :=
    prime_after_plain (only_modifyTd (plain_uses trivial _) _ _ _)
      (only_modifyTd (within_uses _) _ _ _) hrun₇
  obtain ⟨s₉, o₉, pre, hm₉, hrun₉, rfl⟩ := prime_after_self hσ' hrun₈
  obtain ⟨bit, s₁₀, o₁₀, pre, -, hm₁₀, hrun₁₀, rfl⟩ :=
    prime_after_plain (only_bit32 _) (only_bit32 _) hrun₉
  -- nothing is maintained once the transfer is primed
  have hm : ∀ l, .maintained l ∉ pre := by
    have hall : ∀ l, .maintained l ∉ pre ++ .primed :: post := by
      rw [← hrun₁₀]
      refine fun l => (unmaintained_plain ?_ n _).2 l
      dsimp only
      split <;> exact .bind (.access trivial) fun _ => only_waitZero _
    exact fun l hl => hall l (List.mem_append_left _ hl)
  have hstore : ∀ (t : TdRef) (v : Word) (x y : Sys × List Nat) (o : List Upkeep),
      exec (upkeep L) n (storeTd t .NEXT v) x = ⟨.ok (), y, o⟩ →
        .stored (L.addr (.td t .NEXT)) ∈ o := by
    intro t v x y o h
    rw [storeTd, exec_access] at h
    rw [← (Out.mk.inj h).2.2]
    exact List.mem_singleton_self _
  refine ⟨fun l hl => ?_, ?_, ?_⟩
  · simp only [List.mem_append, hm₁, hm₂, hm₃, hm₄, hm₆, hm₇, hm₈, hm₁₀, hm, false_or,
      or_false] at hl
    exact hl.imp (hm₅ l) (hm₉ l)
  · exact List.mem_append_left _ (hstore _ _ _ _ _ h₁)
  · have h := hstore _ _ _ _ _ h₇
    simp only [List.mem_append, h, true_or, or_true]

end Parts

/-- For every endpoint, all places of its descriptors, every state before and
    every length: wherever the references to the descriptors are stored, when
    the transfer is primed some line that was written has not been flushed, and
    the last line of the queue head has not been maintained.  The flush of the
    descriptor covers none of its bytes, and the flush of the queue head not
    the second half. -/
theorem descriptors_unflushed {L : Layout} {ep : Endpoint} {s : Sys} {σ σ' : Nat}
    (haligned : L.qhList % 64 = 0) (hapart : ∀ a, L.InTd ep a → ¬ L.InQh ep a)
    (hσ : σ < 2 ^ 32 ∧ ¬ L.InTd ep σ ∧ ¬ L.InQh ep σ)
    (hσ' : σ' < 2 ^ 32 ∧ ¬ L.InTd ep σ' ∧ ¬ L.InQh ep σ') :
    (∀ size n pre post,
      (exec (upkeep L) n (ep.scheduleTransfer size) (s, [σ, σ'])).obs = pre ++ .primed :: post →
        (¬ ∀ a, .stored a ∈ pre → Flushed pre (a / 32)) ∧
          ¬ ∀ a, L.InTd ep a ∨ L.InQh ep a → Flushed pre (a / 32)) ∧
    (∀ n a, L.InTd ep a → .maintained (a / 32) ∉
      (exec (upkeep L) n (TdRef.list ep.td).cleanInvalidateDcache (s, [σ])).obs) ∧
    ∀ n a, L.InQh ep a → L.qhList + 64 * ep.qh + 32 ≤ a → .maintained (a / 32) ∉
      (exec (upkeep L) n (Qh.cleanInvalidateDcache ep.qh) (s, [σ'])).obs := by
  have haligned' := L.aligned
  -- the addresses of the words that are written, and the last line
  have htd : L.addr (.td (.list ep.td) .NEXT) = L.tdList + 32 * ep.td := Nat.add_zero _
  have hover : L.addr (.td (.overlay ep.qh) .NEXT) = L.qhList + 64 * ep.qh + 8 := Nat.add_zero _
  refine ⟨fun size n pre post hrun => ?_, fun n a ha hmem => ?_, fun n a ha hhalf hmem => ?_⟩
  · obtain ⟨hlines, hstored, hstored'⟩ := maintained_before_prime hσ.1 hσ'.1 hrun
    rw [htd] at hstored
    rw [hover] at hstored'
    have hline : ∀ l, .maintained l ∈ pre →
        l = σ / 32 ∨ l = σ' / 32 ∨ l = σ' / 32 + 1 := by
      intro l hl
      rcases hlines l hl with h | h <;> have h := mem_linesOf.mp h <;> omega
    have hno := hapart (L.tdList + 32 * ep.td)
    unfold Layout.InTd Layout.InQh at *
    refine ⟨fun hall => ?_, fun hall => ?_⟩
    · -- only one of the two lines can be the one after a slot
      have h := hline _ (hall _ hstored).maintained
      have h' := hline _ (hall _ hstored').maintained
      omega
    · have h := hline _ (hall (L.qhList + 64 * ep.qh + 32) (Or.inr (by omega))).maintained
      have h' := hline _ (hall (L.qhList + 64 * ep.qh) (Or.inr (by omega))).maintained
      omega
  · obtain ⟨l, hl, heq⟩ := mem_upkeep_cleanInvalidate hσ.1 hmem
    obtain rfl := Upkeep.maintained.inj heq
    have hline := mem_linesOf.mp hl
    unfold Layout.InTd Layout.InQh at *
    omega
  · obtain ⟨l, hl, heq⟩ := mem_upkeep_cleanInvalidate hσ'.1 hmem
    obtain rfl := Upkeep.maintained.inj heq
    have hline := mem_linesOf.mp hl
    unfold Layout.InTd Layout.InQh at *
    omega

/-- What the device does for the cache when it schedules a transfer on its bulk
    IN endpoint. -/
def deviceUpkeep : List Upkeep :=
  (exec (upkeep deviceLayout) 1 ((deviceEndpoint bulkIn 3 .Bulk).scheduleTransfer 64)
    (device, [0x20001004, 0x20001010])).obs

/-- The references are on the stack, and the transfer is primed. -/
theorem descriptors_unflushed_device :
    ∃ pre post, deviceUpkeep = pre ++ .primed :: post ∧
      ¬ ∀ a, .stored a ∈ pre → Flushed pre (a / 32) := by
  have hprimed : .primed ∈ deviceUpkeep := by decide +kernel
  obtain ⟨pre, post, hobs⟩ := List.append_of_mem hprimed
  have hapart : ∀ a, deviceLayout.InTd (deviceEndpoint bulkIn 3 .Bulk) a →
      ¬ deviceLayout.InQh (deviceEndpoint bulkIn 3 .Bulk) a := by
    intro a htd hqh
    obtain ⟨hge, -⟩ : 0x20101060 ≤ a ∧ a < 0x20101060 + 32 := htd
    obtain ⟨-, hlt⟩ : 0x201000C0 ≤ a ∧ a < 0x201000C0 + 64 := hqh
    omega
  -- where the reference of the second flush is
  have hslot : 0x20001010 < 2 ^ 32 ∧
      ¬ deviceLayout.InTd (deviceEndpoint bulkIn 3 .Bulk) 0x20001010 ∧
      ¬ deviceLayout.InQh (deviceEndpoint bulkIn 3 .Bulk) 0x20001010 := by decide
  have hsound := descriptors_unflushed (L := deviceLayout) (s := device) (σ := 0x20001004)
    (by decide) hapart (by decide) hslot
  exact ⟨pre, post, hobs, (hsound.1 64 1 pre post hobs).1⟩

/-- The same run: the line of the descriptor is written, and not maintained. -/
theorem descriptors_unflushed_there :
    ∃ pre post, deviceUpkeep = pre ++ .primed :: post ∧
      deviceLayout.InTd (deviceEndpoint bulkIn 3 .Bulk) 0x20101060 ∧ .stored 0x20101060 ∈ pre ∧
      ¬ Flushed pre (0x20101060 / 32) := by
  refine ⟨deviceUpkeep.takeWhile (· ≠ .primed), (deviceUpkeep.dropWhile (· ≠ .primed)).tail,
    by decide +kernel, by decide, by decide +kernel, fun h => ?_⟩
  have hnever : .maintained (0x20101060 / 32) ∉ deviceUpkeep.takeWhile (· ≠ .primed) := by
    decide +kernel
  exact hnever h.maintained

end ImxrtUsbd
