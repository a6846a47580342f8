/-
  ImxrtUsbd.Lib.Clock

  An interval timer.  While it runs it counts ticks down, elapses, and either
  starts over by itself or waits to be restarted.  It can be set and asked at
  any time.

  `Clock.repeats_elapses` and `Clock.once_elapses` count how often it elapses in
  a run that leaves its settings alone: once every period, or just once.
  `Clock.elapsed_eq` is what its flag says in any run.
-/
import ImxrtUsbd.Lib.Run

namespace Lib

structure Clock where
  running : Bool
  /-- It starts over when it has elapsed. -/
  repeats : Bool
  /-- The ticks from one start to the elapsing. -/
  period : Nat
  /-- The ticks to go before the one at which it elapses, `none` if it waits for
      a restart. -/
  left : Option Nat
  /-- It has elapsed since the flag was cleared. -/
  elapsed : Bool
  /-- Elapsing calls for attention. -/
  alarm : Bool
  deriving DecidableEq, Repr

namespace Clock

/-- What happens to a clock. -/
inductive Op where
  | start
  | stop
  | restart
  | setRepeats (b : Bool)
  | setPeriod (p : Nat)
  | clear
  | setAlarm (b : Bool)
  | tick
  deriving DecidableEq, Repr

/-- What a clock is asked, with the answer. -/
inductive Reading where
  | running (b : Bool)
  | repeats (b : Bool)
  | period (p : Nat)
  | elapsed (b : Bool)
  | alarm (b : Bool)
  deriving DecidableEq, Repr

inductive Mark where
  | op (o : Op)
  | read (r : Reading)
  deriving DecidableEq, Repr

/-- The next tick is the one at which it elapses. -/
def Due (c : Clock) : Prop := c.running = true ∧ c.left = some 0

instance (c : Clock) : Decidable c.Due := inferInstanceAs (Decidable (_ ∧ _))

/-- A tick of a running clock. -/
def countDown (c : Clock) : Clock :=
  match c.left with
  | none => c
  | some 0 => { c with
      left := if c.repeats then some (c.period - 1) else none
      elapsed := true }
  | some (n + 1) => { c with left := some n }

def apply (c : Clock) : Op → Clock
  | .start => { c with running := true }
  | .stop => { c with running := false }
  | .restart => { c with left := some (c.period - 1) }
  | .setRepeats b => { c with repeats := b }
  | .setPeriod p => { c with period := p }
  | .clear => { c with elapsed := false }
  | .setAlarm b => { c with alarm := b }
  | .tick => if c.running then c.countDown else c

/-- The answer is right. -/
def Shows (c : Clock) : Reading → Prop
  | .running b => c.running = b
  | .repeats b => c.repeats = b
  | .period p => c.period = p
  | .elapsed b => c.elapsed = b
  | .alarm b => c.alarm = b

inductive Step (c : Clock) : Mark → Clock → Prop where
  | op (o : Op) : Step c (.op o) (c.apply o)
  | read {r : Reading} : c.Shows r → Step c (.read r) c

/-- Neither counting nor what happens at its end is changed. -/
def Mark.Leaves : Mark → Prop
  | .op .stop | .op .restart | .op (.setRepeats _) | .op (.setPeriod _) => False
  | .op .start | .op .clear | .op (.setAlarm _) | .op .tick | .read _ => True

instance (k : Mark) : Decidable k.Leaves := by
  unfold Mark.Leaves
  split <;> infer_instance

/-- How many ticks there were. -/
def ticks (tr : Hist Clock Mark) : Nat := tr.countP fun x => x.2 == .op .tick

/-- How often it elapsed. -/
def elapses (tr : Hist Clock Mark) : Nat := tr.countP fun x => x.2 == .op .tick && decide x.1.Due

section Counting

variable {c c' : Clock} {tr : Hist Clock Mark} {k : Mark}

theorem ticks_snoc (tr : Hist Clock Mark) (c : Clock) (k : Mark) :
    ticks (tr ++ [(c, k)]) = ticks tr + if k = .op .tick then 1 else 0 := by
  rw [ticks, List.countP_append, List.countP_singleton]
  simp [ticks]

theorem elapses_snoc (tr : Hist Clock Mark) (c : Clock) (k : Mark) :
    elapses (tr ++ [(c, k)]) = elapses tr + if k = .op .tick ∧ c.Due then 1 else 0 := by
  rw [elapses, List.countP_append, List.countP_singleton]
  simp [elapses]

/-- What a step that leaves the settings alone does to them and to the count. -/
theorem Step.leaves (h : Step c k c') (hk : k.Leaves) (hr : c.running = true) :
    c'.running = true ∧ c'.repeats = c.repeats ∧ c'.period = c.period ∧
      c'.left = if k = .op .tick then c.countDown.left else c.left := by
  cases h with
  | read => exact ⟨hr, rfl, rfl, rfl⟩
  | op o =>
    cases o with
    | start => exact ⟨rfl, rfl, rfl, rfl⟩
    | stop | restart | setRepeats | setPeriod => exact hk.elim
    | clear | setAlarm => exact ⟨hr, rfl, rfl, rfl⟩
    | tick =>
      have happly : c.apply .tick = c.countDown := if_pos hr
      rw [happly, if_pos rfl]
      refine ⟨?_, ?_, ?_, rfl⟩ <;> unfold countDown <;> split <;> first | rfl | exact hr

/-- A clock that repeats goes round once in every period. -/
theorem repeats_left {n : Nat} (h : Run Step c tr c')
    (hl : Always (fun _ _ k => k.Leaves) tr) (hr : c.running = true) (hrep : c.repeats = true)
    (hp : 0 < c.period) (hn : c.left = some n) (hlt : n < c.period) :
    c'.running = true ∧ c'.repeats = true ∧ c'.period = c.period ∧
      ∃ m, c'.left = some m ∧ m < c.period ∧
        ticks tr + (c.period - 1 - n) = c.period * elapses tr + (c.period - 1 - m) := by
  induction h with
  | nil => exact ⟨hr, hrep, rfl, n, hn, hlt, by simp [ticks, elapses]⟩
  | @snoc tr d d' k _ hstep ih =>
    obtain ⟨hl, hk⟩ := always_snoc.mp hl
    obtain ⟨hr', hrep', hper, m, hm, hmlt, hcount⟩ := ih hl
    obtain ⟨hr'', hrep'', hper'', hleft⟩ := hstep.leaves hk hr'
    refine ⟨hr'', hrep''.trans hrep', hper''.trans hper, ?_⟩
    rw [ticks_snoc, elapses_snoc, hleft]
    by_cases hkt : k = .op .tick
    · rw [if_pos hkt, if_pos hkt]
      cases m with
      | zero =>
        -- the tick at which it elapses, and starts over
        have hdue : d.Due := ⟨hr', hm⟩
        have hcd : d.countDown.left = some (c.period - 1) := by
          rw [countDown, hm]
          show (if d.repeats then _ else _) = _
          rw [hrep', if_pos rfl, hper]
        rw [if_pos ⟨hkt, hdue⟩, hcd]
        refine ⟨c.period - 1, rfl, by omega, ?_⟩
        rw [Nat.mul_add, Nat.mul_one]
        omega
      | succ m =>
        have hdue : ¬ d.Due := by
          rintro ⟨-, h0⟩
          rw [hm] at h0
          simp at h0
        have hcd : d.countDown.left = some m := by rw [countDown, hm]
        rw [if_neg fun hd => hdue hd.2, hcd]
        refine ⟨m, rfl, by omega, ?_⟩
        show ticks tr + 1 + (c.period - 1 - n) = c.period * elapses tr + (c.period - 1 - m)
        omega
    · rw [if_neg hkt, if_neg hkt, if_neg fun hd => hkt hd.1]
      exact ⟨m, hm, hmlt, hcount⟩

/-- Started afresh, a clock that repeats elapses once in every period. -/
theorem repeats_elapses (h : Run Step c tr c') (hl : Always (fun _ _ k => k.Leaves) tr)
    (hr : c.running = true) (hrep : c.repeats = true) (hp : 0 < c.period)
    (hn : c.left = some (c.period - 1)) : elapses tr = ticks tr / c.period := by
  obtain ⟨-, -, -, m, -, hm, hcount⟩ := repeats_left h hl hr hrep hp hn (by omega)
  -- what is left of the last round is less than a period
  symm
  apply Nat.div_eq_of_lt_le
  · rw [Nat.mul_comm]
    omega
  · rw [Nat.mul_comm, Nat.mul_add, Nat.mul_one]
    omega

/-- A clock that does not repeat elapses once, and then waits. -/
theorem once_left {n : Nat} (h : Run Step c tr c') (hl : Always (fun _ _ k => k.Leaves) tr)
    (hr : c.running = true) (hrep : c.repeats = false) (hn : c.left = some n) :
    c'.running = true ∧ c'.repeats = false ∧
      (ticks tr ≤ n ∧ c'.left = some (n - ticks tr) ∧ elapses tr = 0 ∨
        n < ticks tr ∧ c'.left = none ∧ elapses tr = 1) := by
  induction h with
  | nil => exact ⟨hr, hrep, Or.inl ⟨Nat.zero_le _, hn, rfl⟩⟩
  | @snoc tr d d' k _ hstep ih =>
    obtain ⟨hl, hk⟩ := always_snoc.mp hl
    obtain ⟨hr', hrep', hcases⟩ := ih hl
    obtain ⟨hr'', hrep'', -, hleft⟩ := hstep.leaves hk hr'
    refine ⟨hr'', hrep''.trans hrep', ?_⟩
    rw [ticks_snoc, elapses_snoc, hleft]
    by_cases hkt : k = .op .tick
    · rw [if_pos hkt, if_pos hkt]
      rcases hcases with ⟨hle, hm, helapsed⟩ | ⟨hgt, hm, helapsed⟩
      -- it elapses at the tick that finds nothing left
      · generalize hj : n - ticks tr = j at hm
        cases j with
        | zero =>
          have hdue : d.Due := ⟨hr', hm⟩
          have hcd : d.countDown.left = none := by
            rw [countDown, hm]
            show (if d.repeats then _ else _) = _
            rw [hrep', if_neg Bool.false_ne_true]
          rw [if_pos ⟨hkt, hdue⟩, hcd]
          exact Or.inr ⟨by omega, rfl, by omega⟩
        | succ j =>
          have hdue : ¬ d.Due := by
            rintro ⟨-, h0⟩
            rw [hm] at h0
            simp at h0
          have hcd : d.countDown.left = some j := by rw [countDown, hm]
          rw [if_neg fun hd => hdue hd.2, hcd]
          refine Or.inl ⟨by omega, ?_, helapsed⟩
          congr 1
          omega
      -- a clock that has elapsed stays elapsed
      · have hdue : ¬ d.Due := by
          rintro ⟨-, h0⟩
          rw [hm] at h0
          simp at h0
        have hcd : d.countDown.left = none := by rw [countDown, hm]; exact hm
        rw [if_neg fun hd => hdue hd.2, hcd]
        exact Or.inr ⟨by omega, rfl, helapsed⟩
    · rw [if_neg hkt, if_neg hkt, if_neg fun hd => hkt hd.1]
      exact hcases

theorem once_elapses {n : Nat} (h : Run Step c tr c') (hl : Always (fun _ _ k => k.Leaves) tr)
    (hr : c.running = true) (hrep : c.repeats = false) (hn : c.left = some n) :
    elapses tr = if n < ticks tr then 1 else 0 := by
  obtain ⟨-, -, ⟨hle, -, he⟩ | ⟨hlt, -, he⟩⟩ := once_left h hl hr hrep hn
  · rw [he, if_neg (Nat.not_lt.mpr hle)]
  · rw [he, if_pos hlt]

end Counting

/-! ## The flag -/

section Flag

variable {α β : Type}

/-- A flag that some happenings set, and others clear. -/
def latch (sets clears : α → Bool) (b : Bool) (l : List α) : Bool :=
  l.foldl (fun b x => !clears x && (b || sets x)) b

theorem latch_snoc (sets clears : α → Bool) (b : Bool) (l : List α) (x : α) :
    latch sets clears b (l ++ [x]) = (!clears x && (latch sets clears b l || sets x)) := by
  rw [latch, List.foldl_append, List.foldl_cons, List.foldl_nil, latch]

/-- It was set, and not cleared since. -/
theorem latch_iff {sets clears : α → Bool} {l : List α} :
    latch sets clears false l = true ↔
      ∃ pre x post, l = pre ++ x :: post ∧ sets x = true ∧ ∀ y ∈ x :: post, clears y = false := by
  induction l using List.reverseRecOn with
  | nil => simp [latch]
  | append_singleton l x ih =>
    rw [latch_snoc, Bool.and_eq_true, Bool.not_eq_true', Bool.or_eq_true, ih]
    constructor
    · rintro ⟨hx, ⟨pre, y, post, rfl, hy, hpost⟩ | hset⟩
      · refine ⟨pre, y, post ++ [x], by simp, hy, fun z hz => ?_⟩
        rcases List.mem_append.mp (show z ∈ (y :: post) ++ [x] from hz) with hz | hz
        · exact hpost z hz
        · rw [List.mem_singleton.mp hz]
          exact hx
      · refine ⟨l, x, [], rfl, hset, fun z hz => ?_⟩
        rw [List.mem_singleton.mp hz]
        exact hx
    · rintro ⟨pre, y, post, heq, hy, hpost⟩
      rcases snoc_eq_iff.mp heq with ⟨rfl, rfl, rfl⟩ | ⟨mid, rfl, rfl⟩
      · -- the last one set it
        exact ⟨hpost x List.mem_cons_self, Or.inr hy⟩
      · refine ⟨hpost x (by simp), Or.inl ⟨pre, y, mid, rfl, hy, fun w hw => hpost w ?_⟩⟩
        rw [← List.cons_append]
        exact List.mem_append_left _ hw

/-- In any run the flag is set if the clock has elapsed since it was cleared. -/
theorem elapsed_eq {c c' : Clock} {tr : Hist Clock Mark} (h : Run Step c tr c') :
    c'.elapsed = latch (fun x => decide (x.2 = .op .tick ∧ x.1.Due))
      (fun x => decide (x.2 = .op .clear)) c.elapsed tr := by
  induction h with
  | nil => rfl
  | @snoc tr d d' k _ hstep ih =>
    rw [latch_snoc, ← ih]
    cases hstep with
    | read => simp
    | op o =>
      cases o with
      | start | stop | restart | setRepeats | setPeriod | clear | setAlarm => simp [apply]
      | tick =>
        have hdue : d.Due ↔ d.running = true ∧ d.left = some 0 := Iff.rfl
        -- a tick that is due sets the flag, whatever is set already
        have htick : (d.apply .tick).elapsed = (d.elapsed || decide d.Due) := by
          show (if d.running then d.countDown else d).elapsed = _
          cases hr : d.running with
          | false => simp [hdue, hr]
          | true =>
            rw [if_pos rfl, countDown]
            split
            · rename_i hl
              simp [hdue, hl]
            · rename_i hl
              simp [hdue, hr, hl]
            · rename_i n hl
              simp [hdue, hl]
        rw [htick]
        simp

end Flag

end Clock

end Lib
