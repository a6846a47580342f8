/-
  ImxrtUsbd.Lib.Simulation

  A machine seen as another one.  A `Simulation` looks at the states of a
  machine through `abs`, and lets through what `see` keeps of the
  observations; a program is simulated when it then does what it does on the
  other machine.  The rules follow the structure of programs, so that a
  program is simulated when its accesses, or larger pieces of it, are.
-/
import ImxrtUsbd.Lib.Kept

namespace Lib

variable {E : Type → Type} {S T O O' φ α β : Type}

/-- How to look at the states of `M` as states of `M'`. -/
structure Simulation (M : Machine E S O) (M' : Machine E T O') where
  abs : S → T
  see : O → Option O'
  /-- The states it works for. -/
  inv : S → Prop
  /-- What becomes of a state on the way. -/
  kept : S → S → Prop
  refl : ∀ s, kept s s
  trans : ∀ {s s' s''}, kept s s' → kept s' s'' → kept s s''

/-- An outcome, looked at. -/
def Out.through (r : Out S O φ α) (abs : S → T) (see : O → Option O') : Out T O' φ α :=
  ⟨r.res, abs r.post, r.obs.filterMap see⟩

namespace Simulation

variable {M : Machine E S O} {M' : Machine E T O'} (B : Simulation M M')

/-- An outcome on `M` is one on `M'`. -/
structure Match (s : S) (r : Out S O φ α) (r' : Out T O' φ α) : Prop where
  eq : r' = r.through B.abs B.see
  inv : B.inv r.post
  kept : B.kept s r.post

/-- The program does on `M` what it does on `M'`. -/
def Simulates (p : Prog E φ α) : Prop :=
  ∀ n s, B.inv s → B.Match s (exec M n p s) (exec M' n p (B.abs s))

variable {B}

theorem Match.andThen {s : S} {r : Out S O φ α} {r' : Out T O' φ α} {f : α → S → Out S O φ β}
    {f' : α → T → Out T O' φ β} (h : B.Match s r r')
    (hf : ∀ a s', B.inv s' → B.Match s' (f a s') (f' a (B.abs s'))) :
    B.Match s (r.andThen f) (r'.andThen f') := by
  obtain ⟨res, post, obs⟩ := r
  obtain ⟨rfl, hinv, hkept⟩ := h
  cases res with
  | ok a =>
    obtain ⟨heq, hinv', hkept'⟩ := hf a post hinv
    refine ⟨?_, hinv', B.trans hkept hkept'⟩
    rw [Out.andThen_ok_obs]
    show (Out.mk (.ok a) (B.abs post) (obs.filterMap B.see)).andThen f' = _
    rw [Out.andThen_ok_obs, heq]
    simp [Out.through]
  | fail e => exact ⟨rfl, hinv, hkept⟩
  | spin => exact ⟨rfl, hinv, hkept⟩

/-- The passes of a loop match when each pass does. -/
theorem Match.iterate {pass : S → Out S O φ (Option β)} {pass' : T → Out T O' φ (Option β)}
    (h : ∀ s, B.inv s → B.Match s (pass s) (pass' (B.abs s))) (n : Nat) (s : S) (hs : B.inv s) :
    B.Match s (Lib.iterate pass n s) (Lib.iterate pass' n (B.abs s)) := by
  induction n generalizing s with
  | zero => exact ⟨rfl, hs, B.refl s⟩
  | succ n ih =>
    rw [Lib.iterate, Lib.iterate]
    refine (h s hs).andThen fun b s' hs' => ?_
    cases b with
    | some b => exact ⟨rfl, hs', B.refl s'⟩
    | none => exact ih s' hs'

namespace Simulates

theorem ret (a : α) : B.Simulates (.ret a : Prog E φ α) :=
  fun _ s hs => ⟨rfl, hs, B.refl s⟩

theorem pure (a : α) : B.Simulates (Pure.pure a : Prog E φ α) :=
  fun _ s hs => ⟨rfl, hs, B.refl s⟩

theorem fail (f : φ) : B.Simulates (.fail f : Prog E φ α) :=
  fun _ s hs => ⟨rfl, hs, B.refl s⟩

theorem access {e : E β}
    (h : ∀ s, B.inv s → (M'.act e (B.abs s)).1 = (M.act e s).1 ∧
      (M'.act e (B.abs s)).2.1 = B.abs (M.act e s).2.1 ∧
      (M'.act e (B.abs s)).2.2 = (M.act e s).2.2.filterMap B.see ∧
      B.inv (M.act e s).2.1 ∧ B.kept s (M.act e s).2.1) :
    B.Simulates (Prog.access e : Prog E φ β) := by
  intro n s hs
  obtain ⟨hres, hpost, hobs, hinv, hkept⟩ := h s hs
  rw [exec_access, exec_access, hres, hpost, hobs]
  exact ⟨rfl, hinv, hkept⟩

theorem bind {p : Prog E φ α} {f : α → Prog E φ β} (hp : B.Simulates p)
    (hf : ∀ a, B.Simulates (f a)) : B.Simulates (p >>= f) := by
  intro n s hs
  rw [exec_bind, exec_bind]
  exact (hp n s hs).andThen fun a s' hs' => hf a n s' hs'

theorem repeatUntil {body : Prog E φ (Option β)} (h : B.Simulates body) :
    B.Simulates (Prog.repeatUntil body) := by
  intro n s hs
  rw [Prog.repeatUntil, exec, exec]
  exact (Match.iterate (h n) n s hs).andThen fun b s' hs' => ⟨rfl, hs', B.refl s'⟩

/-- A program is simulated when each of its accesses is. -/
theorem of_only {P : (β : Type) → E β → Prop} {p : Prog E φ α}
    (hact : ∀ (β : Type) (e : E β), P β e → B.Simulates (Prog.access e : Prog E φ β))
    (hp : p.Only P) : B.Simulates p := by
  induction p with
  | ret a => exact ret a
  | fail e => exact fail e
  | op e k ih => exact bind (p := Prog.access e) (hact _ e hp.1) fun b => ih b (hp.2 b)
  | loop body k ihb ih =>
    exact bind (p := Prog.repeatUntil body) (repeatUntil (ihb hp.1)) fun b => ih b (hp.2 b)

/-- What a simulated program did is what it does on the other machine. -/
theorem exec_eq {p : Prog E φ α} (h : B.Simulates p) {n : Nat} {s s' : S} (hs : B.inv s)
    {res : Res φ α} {o : List O} (hrun : exec M n p s = ⟨res, s', o⟩) :
    exec M' n p (B.abs s) = ⟨res, B.abs s', o.filterMap B.see⟩ ∧ B.inv s' ∧ B.kept s s' := by
  obtain ⟨heq, hinv, hkept⟩ := h n s hs
  rw [hrun] at heq hinv hkept
  exact ⟨heq, hinv, hkept⟩

end Simulates

end Simulation

end Lib
