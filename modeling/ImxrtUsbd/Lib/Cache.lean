/-
  ImxrtUsbd.Lib.Cache

  A memory behind a write-back cache.  `line p` is the cache line of a place,
  for the places that are cached at all.  The processor reads and writes what
  `view` shows; other masters see `ram`.

  The view does not depend on what is in the cache (`view_touch`,
  `view_store`), as long as no line is dropped that is clean but out of date
  (`view_cleanInvalidate`), and a store of another master shows at the places
  that are not in the cache, and only there (`view_dma`).

  The processor's accesses do not change `ram` at the places of a line that it
  never maintains (`ram_store`, `ram_cleanInvalidate_of_ne`); maintaining a
  dirty line puts the copy there, whatever another master stored meanwhile
  (`ram_cleanInvalidate_dirty`).  What the processor stored gets to RAM when its
  line is maintained, whatever the processor does before (`Written`).
-/
import Mathlib

namespace Lib

/-- The memory, and the lines of it in the cache. -/
structure Cache (P : Type) (V : P → Type) where
  ram : (p : P) → V p
  /-- What the line of a place holds, while it is valid. -/
  copy : (p : P) → V p
  valid : Nat → Bool
  dirty : Nat → Bool

namespace Cache

variable {P : Type} {V : P → Type} (line : P → Option Nat)

/-- The place is in the cache. -/
def holds (c : Cache P V) (p : P) : Bool := (line p).any c.valid

/-- What the processor sees. -/
def view (c : Cache P V) (p : P) : V p := if c.holds line p then c.copy p else c.ram p

/-- Fetch a line. -/
def fill (c : Cache P V) (l : Nat) : Cache P V :=
  if c.valid l then c
  else
    { c with
      copy := fun p => if line p = some l then c.ram p else c.copy p
      valid := Function.update c.valid l true
      dirty := Function.update c.dirty l false }

/-- An access fetches the line of the place. -/
def touch (c : Cache P V) (p : P) : Cache P V :=
  match line p with
  | none => c
  | some l => c.fill line l

def store [DecidableEq P] (c : Cache P V) (p : P) (v : V p) : Cache P V :=
  match line p with
  | none => { c with ram := Function.update c.ram p v }
  | some l =>
    { c.fill line l with
      copy := Function.update (c.fill line l).copy p v
      dirty := Function.update (c.fill line l).dirty l true }

/-- Write a line back if it is dirty, and drop it. -/
def cleanInvalidate (c : Cache P V) (l : Nat) : Cache P V :=
  { c with
    ram := fun p => if c.valid l && c.dirty l && decide (line p = some l) then c.copy p else c.ram p
    valid := Function.update c.valid l false }

/-- Another master leaves the memory like this. -/
def dma (c : Cache P V) (ram : (p : P) → V p) : Cache P V := { c with ram }

section Lines

variable {line} {c : Cache P V} {p : P} {l : Nat}

theorem holds_some (h : line p = some l) : c.holds line p = c.valid l := by
  rw [holds, h, Option.any_some]

theorem holds_none (h : line p = none) : c.holds line p = false := by
  rw [holds, h, Option.any_none]

theorem view_of_holds (h : c.holds line p = true) : c.view line p = c.copy p := if_pos h

theorem view_of_not_holds (h : c.holds line p = false) : c.view line p = c.ram p := by
  rw [view, h]
  rfl

/-- A line that was fetched stays. -/
theorem valid_fill (h : c.valid l = true) (k : Nat) : (c.fill line k).valid l = true := by
  unfold fill
  split
  · exact h
  · by_cases hl : l = k
    · subst hl
      exact Function.update_self _ _ _
    · exact (Function.update_of_ne hl _ _).trans h

theorem valid_fill_self (c : Cache P V) (l : Nat) : (c.fill line l).valid l = true := by
  unfold fill
  split
  · assumption
  · exact Function.update_self _ _ _

theorem valid_touch (h : c.valid l = true) (p : P) : (c.touch line p).valid l = true := by
  unfold touch
  split
  · exact h
  · exact valid_fill h _

/-- After an access the place is in the cache, if it can be. -/
theorem holds_touch (h : line p = some l) : (c.touch line p).holds line p = true := by
  rw [holds_some h, touch, h]
  exact valid_fill_self c l

end Lines

/-! ## What the processor sees -/

section View

variable {line} {c : Cache P V}

theorem view_fill (c : Cache P V) (l : Nat) : (c.fill line l).view line = c.view line := by
  unfold fill
  split
  · rfl
  · rename_i hl
    funext p
    cases hp : line p with
    | none => rw [view_of_not_holds (holds_none hp), view_of_not_holds (holds_none hp)]
    | some k =>
      unfold view
      rw [holds_some hp, holds_some hp]
      by_cases hk : k = l
      · -- the line of `p` is fetched
        subst hk
        simp [hp, hl]
      · simp [hp, hk]

theorem view_touch (c : Cache P V) (p : P) : (c.touch line p).view line = c.view line := by
  unfold touch
  split
  · rfl
  · exact view_fill c _

/-- Dropping a line does not show, unless it is clean and out of date. -/
theorem view_cleanInvalidate {l : Nat}
    (h : ∀ p, line p = some l → c.valid l = true → c.dirty l = false → c.copy p = c.ram p) :
    (c.cleanInvalidate line l).view line = c.view line := by
  funext p
  cases hp : line p with
  | none =>
    rw [view_of_not_holds (holds_none hp), view_of_not_holds (holds_none hp)]
    simp [cleanInvalidate, hp]
  | some k =>
    unfold view
    rw [holds_some hp, holds_some hp]
    by_cases hk : k = l
    · subst hk
      have hcopy := h p hp
      cases hv : c.valid k with
      | false => simp [cleanInvalidate, hv]
      | true =>
        cases hd : c.dirty k with
        | false => simp [cleanInvalidate, hd, hcopy hv hd]
        | true => simp [cleanInvalidate, hp, hv, hd]
    · simp [cleanInvalidate, hp, hk]

/-- What another master stores shows where nothing is cached. -/
theorem view_dma (c : Cache P V) (ram : (p : P) → V p) (p : P) :
    (c.dma ram).view line p = if c.holds line p then c.view line p else ram p := by
  cases h : c.holds line p with
  | false => exact view_of_not_holds h
  | true =>
    rw [if_pos rfl, view_of_holds h]
    exact view_of_holds (c := c.dma ram) h

end View

/-! ## Stores -/

section Store

variable [DecidableEq P] {line} {c : Cache P V}

theorem valid_store {l : Nat} (h : c.valid l = true) (p : P) (v : V p) :
    (c.store line p v).valid l = true := by
  unfold store
  split
  · exact h
  · exact valid_fill h _

theorem view_store (c : Cache P V) (p : P) (v : V p) :
    (c.store line p v).view line = Function.update (c.view line) p v := by
  funext q
  unfold store
  split
  · rename_i hp
    by_cases hq : q = p
    · subst hq
      rw [view_of_not_holds (holds_none hp), Function.update_self]
      exact Function.update_self _ _ _
    · rw [Function.update_of_ne hq]
      show (if c.holds line q = true then c.copy q else Function.update c.ram p v q) = _
      rw [Function.update_of_ne hq]
      rfl
  · rename_i l hp
    by_cases hq : q = p
    · subst hq
      -- the line is there, so the copy is what is seen
      have hl : (c.fill line l).holds line q = true := (holds_some hp).trans (valid_fill_self c l)
      rw [Function.update_self]
      show (if (c.fill line l).holds line q = true then
        Function.update (c.fill line l).copy q v q else (c.fill line l).ram q) = v
      rw [if_pos hl, Function.update_self]
    · have hfill : (c.fill line l).view line = c.view line := view_fill c l
      rw [Function.update_of_ne hq, ← hfill]
      show (if (c.fill line l).holds line q = true then
        Function.update (c.fill line l).copy p v q else (c.fill line l).ram q) = _
      rw [Function.update_of_ne hq]
      rfl

end Store

/-! ## What is in RAM -/

section Ram

variable {line} {c : Cache P V} {p : P} {l : Nat}

theorem ram_fill (c : Cache P V) (l : Nat) : (c.fill line l).ram = c.ram := by
  unfold fill
  split <;> rfl

theorem ram_touch (c : Cache P V) (p : P) : (c.touch line p).ram = c.ram := by
  unfold touch
  split
  · rfl
  · exact ram_fill c _

/-- A store reaches RAM at most at its own place. -/
theorem ram_store [DecidableEq P] {q : P} (h : p ≠ q) (c : Cache P V) (v : V q) :
    (c.store line q v).ram p = c.ram p := by
  unfold store
  split
  · exact Function.update_of_ne h _ _
  · exact congrFun (ram_fill c _) p

theorem ram_cleanInvalidate_of_ne (h : line p ≠ some l) :
    (c.cleanInvalidate line l).ram p = c.ram p := by
  simp [cleanInvalidate, h]

theorem ram_cleanInvalidate_dirty (h : line p = some l) (hv : c.valid l = true)
    (hd : c.dirty l = true) : (c.cleanInvalidate line l).ram p = c.copy p := by
  simp [cleanInvalidate, h, hv, hd]

theorem dirty_fill (hv : c.valid l = true) (hd : c.dirty l = true) (k : Nat) :
    (c.fill line k).dirty l = true := by
  unfold fill
  split
  · exact hd
  · rename_i hk
    refine (Function.update_of_ne ?_ _ _).trans hd
    rintro rfl
    exact hk hv

/-- A line that is dirty stays dirty. -/
theorem dirty_store [DecidableEq P] (hv : c.valid l = true) (hd : c.dirty l = true) (p : P)
    (v : V p) : (c.store line p v).dirty l = true := by
  unfold store
  split
  · exact hd
  · rename_i k _
    by_cases hk : l = k
    · subst hk
      exact Function.update_self _ _ _
    · exact (Function.update_of_ne hk _ _).trans (dirty_fill hv hd k)

/-- A store makes its line dirty. -/
theorem dirty_store_self [DecidableEq P] (h : line p = some l) (c : Cache P V) (v : V p) :
    (c.store line p v).valid l = true ∧ (c.store line p v).dirty l = true := by
  rw [store, h]
  exact ⟨valid_fill_self c l, Function.update_self _ _ _⟩

end Ram

/-! ## What is on its way to RAM -/

/-- The processor sees `v`, and RAM holds it unless the line is yet to be
    written back. -/
def Written (c : Cache P V) (p : P) (v : V p) : Prop :=
  c.view line p = v ∧
    (c.ram p = v ∨ ∃ l, line p = some l ∧ c.valid l = true ∧ c.dirty l = true)

section Written

variable {line} {c : Cache P V} {p : P} {v : V p}

theorem written_store [DecidableEq P] (c : Cache P V) (p : P) (v : V p) :
    (c.store line p v).Written line p v := by
  refine ⟨?_, ?_⟩
  · rw [view_store, Function.update_self]
  · cases hp : line p with
    | none =>
      left
      rw [store, hp]
      exact Function.update_self _ _ _
    | some l => exact Or.inr ⟨l, rfl, dirty_store_self hp c v⟩

/-- Stores to other places do not get in the way. -/
theorem Written.store [DecidableEq P] {q : P} (h : c.Written line p v) (hne : p ≠ q) (w : V q) :
    (c.store line q w).Written line p v := by
  obtain ⟨hview, hram⟩ := h
  refine ⟨by rw [view_store, Function.update_of_ne hne, hview], ?_⟩
  rcases hram with hram | ⟨l, hl, hv, hd⟩
  · exact Or.inl ((ram_store hne c w).trans hram)
  · exact Or.inr ⟨l, hl, valid_store hv q w, dirty_store hv hd q w⟩

theorem Written.touch (h : c.Written line p v) (q : P) : (c.touch line q).Written line p v := by
  obtain ⟨hview, hram⟩ := h
  refine ⟨by rw [view_touch, hview], ?_⟩
  rcases hram with hram | ⟨l, hl, hv, hd⟩
  · exact Or.inl ((congrFun (ram_touch c q) p).trans hram)
  · refine Or.inr ⟨l, hl, valid_touch hv q, ?_⟩
    unfold Cache.touch
    split
    · exact hd
    · exact dirty_fill hv hd _

/-- Maintaining the line brings it to RAM. -/
theorem Written.ram_cleanInvalidate {l : Nat} (h : c.Written line p v) (hl : line p = some l) :
    (c.cleanInvalidate line l).ram p = v := by
  obtain ⟨hview, hram⟩ := h
  cases hd : c.valid l && c.dirty l with
  | true =>
    obtain ⟨hv, hd⟩ := Bool.and_eq_true_iff.mp hd
    rw [ram_cleanInvalidate_dirty hl hv hd, ← hview]
    exact (view_of_holds ((holds_some hl).trans hv)).symm
  | false =>
    -- the line has nothing that RAM has not
    rcases hram with hram | ⟨k, hk, hv, hd'⟩
    · simp [cleanInvalidate, hd, hram]
    · obtain rfl := Option.some.inj (hk.symm.trans hl)
      rw [hv, hd'] at hd
      cases hd

theorem Written.cleanInvalidate (h : c.Written line p v) (l : Nat) :
    (c.cleanInvalidate line l).Written line p v := by
  by_cases hl : line p = some l
  · have hram := h.ram_cleanInvalidate hl
    refine ⟨?_, Or.inl hram⟩
    rw [view_of_not_holds, hram]
    rw [holds_some hl]
    exact Function.update_self _ _ _
  · obtain ⟨hview, hram⟩ := h
    have hkept := ram_cleanInvalidate_of_ne (c := c) hl
    -- another line: the place stays where it is
    have hvalid : ∀ k, line p = some k → (c.cleanInvalidate line l).valid k = c.valid k := by
      intro k hk
      refine Function.update_of_ne ?_ _ _
      rintro rfl
      exact hl hk
    refine ⟨?_, ?_⟩
    · rw [← hview]
      unfold view
      rw [hkept]
      cases hp : line p with
      | none =>
        rw [holds_none hp, holds_none hp]
        rfl
      | some k =>
        rw [holds_some hp, holds_some hp, hvalid k hp]
        rfl
    · rcases hram with hram | ⟨k, hk, hv, hd⟩
      · exact Or.inl (hkept.trans hram)
      · exact Or.inr ⟨k, hk, (hvalid k hk).trans hv, hd⟩

/-- What is not cached is in RAM at once. -/
theorem Written.ram_of_uncached (h : c.Written line p v) (hp : line p = none) : c.ram p = v := by
  rcases h.2 with hram | ⟨l, hl, -⟩
  · exact hram
  · rw [hp] at hl
    cases hl

/-- A store to a cached place does not reach RAM. -/
theorem ram_store_of_cached [DecidableEq P] {q : P} {l : Nat} (hp : line p = some l)
    (c : Cache P V) (w : V q) : (c.store line q w).ram p = c.ram p := by
  by_cases hq : p = q
  · subst hq
    rw [store, hp]
    exact congrFun (ram_fill c l) p
  · exact ram_store hq c w

end Written

end Cache

end Lib
