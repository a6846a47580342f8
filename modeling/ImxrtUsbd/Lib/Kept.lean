/-
  ImxrtUsbd.Lib.Kept

  What every execution of a program keeps.

  - `Keeps M R p`: the relation `R` holds between the start of an execution of
    `p` on the machine `M`, what it shows, and the state it leaves, however the
    execution ends.  For a relation that composes there is one rule for each
    program construct.
  - `Prog.Only P p`: all accesses of the program satisfy `P`, whatever they are
    answered.  This is a property of the text alone; `Keeps.of_only` turns it
    into a frame rule for a machine.
  - `Machine.withGhost` lets a ghost watch the accesses of a machine.  The ghost
    changes nothing about the execution (`erase_withGhost`).
-/
import ImxrtUsbd.Lib.Prog

namespace Lib

variable {E : Type → Type} {S O φ α β : Type}

/-! ## Accesses of a program -/

namespace Prog

/-- Every access of the program satisfies `P`, whatever it is answered. -/
def Only (P : (β : Type) → E β → Prop) : {α : Type} → Prog E φ α → Prop
  | _, .ret _ => True
  | _, .fail _ => True
  | _, .op e k => P _ e ∧ ∀ b, (k b).Only P
  | _, .loop body k => body.Only P ∧ ∀ b, (k b).Only P

namespace Only

variable {P : (β : Type) → E β → Prop}

theorem pure (a : α) : (Pure.pure a : Prog E φ α).Only P := trivial

theorem fail (f : φ) : (Prog.fail f : Prog E φ α).Only P := trivial

theorem access {e : E β} (h : P β e) : (Prog.access e : Prog E φ β).Only P := ⟨h, fun _ => trivial⟩

theorem bind {p : Prog E φ α} {f : α → Prog E φ β} (hp : p.Only P) (hf : ∀ a, (f a).Only P) :
    (p >>= f).Only P := by
  -- on the program, as `Prog.bind` is defined
  show (p.bind f).Only P
  induction p with
  | ret a => exact hf a
  | fail e => trivial
  | op e k ih => exact ⟨hp.1, fun b => ih b (hp.2 b) hf⟩
  | loop body k _ ih => exact ⟨hp.1, fun b => ih b (hp.2 b) hf⟩

theorem repeatUntil {body : Prog E φ (Option β)} (h : body.Only P) :
    (Prog.repeatUntil body).Only P := ⟨h, fun _ => trivial⟩

theorem getOr (f : φ) (o : Option α) : (Prog.getOr f o : Prog E φ α).Only P := by
  cases o <;> trivial

theorem require (f : φ) (c : Prop) [Decidable c] : (Prog.require f c : Prog E φ Unit).Only P := by
  unfold Prog.require
  split <;> trivial

theorem each {body : α → Prog E φ Unit} (h : ∀ a, (body a).Only P) (as : List α) :
    (Prog.each body as).Only P := by
  induction as with
  | nil => trivial
  | cons a as ih => exact (h a).bind fun _ => ih

end Only

end Prog

/-! ## Relations kept by executions -/

/-- A relation between the start of an execution, what it shows, and its end,
    that can be followed through the parts of the execution. -/
structure Composes (R : S → List O → S → Prop) : Prop where
  refl : ∀ s, R s [] s
  trans : ∀ {s s' s'' o o'}, R s o s' → R s' o' s'' → R s (o ++ o') s''

/-- A list loop composes its passes. -/
theorem Composes.trail {R : S → List O → S → Prop} (hR : Composes R) {eff : S → α → S}
    {see : S → α → List O} (h : ∀ s a, R s (see s a) (eff s a)) (as : List α) (s : S) :
    R s (Lib.trail eff see s as) (as.foldl eff s) := by
  induction as generalizing s with
  | nil => exact hR.refl s
  | cons a as ih => exact hR.trans (h s a) (ih _)

/-- Continuing an outcome continues the relation. -/
theorem Composes.andThen {R : S → List O → S → Prop} (hR : Composes R) {s : S}
    {r : Out S O φ α} {f : α → S → Out S O φ β} (h : R s r.obs r.post)
    (hf : ∀ a s', R s' (f a s').obs (f a s').post) :
    R s (r.andThen f).obs (r.andThen f).post := by
  obtain ⟨res, post, obs⟩ := r
  cases res with
  | ok a =>
    rw [Out.andThen_ok_obs]
    exact hR.trans h (hf a post)
  | fail e => exact h
  | spin => exact h

/-- Every execution of the program is in the relation, however it ends. -/
def Keeps (M : Machine E S O) (R : S → List O → S → Prop) (p : Prog E φ α) : Prop :=
  ∀ n s, R s (exec M n p s).obs (exec M n p s).post

namespace Keeps

variable {M : Machine E S O} {R : S → List O → S → Prop}

theorem ret (hR : Composes R) (a : α) : Keeps M R (.ret a : Prog E φ α) := fun _ s => hR.refl s

theorem pure (hR : Composes R) (a : α) : Keeps M R (Pure.pure a : Prog E φ α) :=
  fun _ s => hR.refl s

theorem fail (hR : Composes R) (f : φ) : Keeps M R (.fail f : Prog E φ α) := fun _ s => hR.refl s

theorem access {e : E β} (h : ∀ s, R s (M.act e s).2.2 (M.act e s).2.1) :
    Keeps M R (Prog.access e : Prog E φ β) := by
  intro n s
  rw [exec_access]
  exact h s

theorem bind (hR : Composes R) {p : Prog E φ α} {f : α → Prog E φ β} (hp : Keeps M R p)
    (hf : ∀ a, Keeps M R (f a)) : Keeps M R (p >>= f) := by
  intro n s
  rw [exec_bind]
  exact hR.andThen (hp n s) fun a s' => hf a n s'

/-- The passes of a loop keep what its body keeps. -/
theorem iterate (hR : Composes R) {pass : S → Out S O φ (Option β)}
    (h : ∀ s, R s (pass s).obs (pass s).post) (n : Nat) (s : S) :
    R s (Lib.iterate pass n s).obs (Lib.iterate pass n s).post := by
  induction n generalizing s with
  | zero => exact hR.refl s
  | succ n ih =>
    rw [Lib.iterate]
    refine hR.andThen (h s) fun b s' => ?_
    cases b with
    | some b => exact hR.refl s'
    | none => exact ih s'

theorem repeatUntil (hR : Composes R) {body : Prog E φ (Option β)} (h : Keeps M R body) :
    Keeps M R (Prog.repeatUntil body) := by
  intro n s
  rw [Prog.repeatUntil, exec]
  exact hR.andThen (iterate hR (h n) n s) fun b s' => hR.refl s'

theorem getOr (hR : Composes R) (f : φ) (o : Option α) : Keeps M R (.getOr f o : Prog E φ α) := by
  cases o with
  | none => exact fail hR f
  | some a => exact ret hR a

theorem each (hR : Composes R) {body : α → Prog E φ Unit} (h : ∀ a, Keeps M R (body a))
    (as : List α) : Keeps M R (Prog.each body as) := by
  induction as with
  | nil => exact ret hR ()
  | cons a as ih => exact bind hR (h a) fun _ => ih

/-- A program is framed by its accesses: what each of them keeps, it keeps. -/
theorem of_only (hR : Composes R) {P : (β : Type) → E β → Prop} {p : Prog E φ α}
    (hact : ∀ (β : Type) (e : E β) (s : S), P β e → R s (M.act e s).2.2 (M.act e s).2.1)
    (hp : p.Only P) : Keeps M R p := by
  induction p with
  | ret a => exact ret hR a
  | fail e => exact fail hR e
  | op e k ih =>
    exact bind (p := Prog.access e) hR (access fun s => hact _ e s hp.1) fun b => ih b (hp.2 b)
  | loop body k ihb ih =>
    exact bind (p := Prog.repeatUntil body) hR (repeatUntil hR (ihb hp.1)) fun b => ih b (hp.2 b)

/-- What every access of the machine keeps, every program keeps. -/
theorem of_act (hR : Composes R)
    (hact : ∀ (β : Type) (e : E β) (s : S), R s (M.act e s).2.2 (M.act e s).2.1)
    (p : Prog E φ α) : Keeps M R p := by
  have hp : p.Only fun _ _ => True := by
    induction p with
    | ret | fail => trivial
    | op e k ih => exact ⟨trivial, ih⟩
    | loop body k ihb ih => exact ⟨ihb, ih⟩
  exact of_only hR (fun β e s _ => hact β e s) hp

end Keeps

/-! ## Ghosts -/

/-- A machine with a ghost that watches the accesses. -/
def Machine.withGhost {G : Type} (M : Machine E S O) (watch : {β : Type} → E β → S → G → G) :
    Machine E (S × G) O :=
  ⟨fun e x => ((M.act e x.1).1, ((M.act e x.1).2.1, watch e x.1 x.2), (M.act e x.1).2.2)⟩

/-- Forget the ghost. -/
def Out.erase {G : Type} (r : Out (S × G) O φ α) : Out S O φ α := ⟨r.res, r.post.1, r.obs⟩

section Ghost

variable {G : Type}

theorem Out.erase_andThen (r : Out (S × G) O φ α) (f : α → S × G → Out (S × G) O φ β)
    (f' : α → S → Out S O φ β) (hf : ∀ a x, (f a x).erase = f' a x.1) :
    (r.andThen f).erase = r.erase.andThen f' := by
  obtain ⟨res, post, obs⟩ := r
  cases res with
  | ok a =>
    have h := hf a post
    rw [andThen_ok_obs]
    show Out.mk (f a post).erase.res (f a post).erase.post (obs ++ (f a post).erase.obs) = _
    rw [h]
    rfl
  | fail e => rfl
  | spin => rfl

theorem erase_iterate {pass : S × G → Out (S × G) O φ (Option β)}
    {pass' : S → Out S O φ (Option β)} (h : ∀ x, (pass x).erase = pass' x.1) (n : Nat)
    (x : S × G) : (iterate pass n x).erase = iterate pass' n x.1 := by
  induction n generalizing x with
  | zero => rfl
  | succ n ih =>
    rw [iterate, iterate, ← h]
    refine Out.erase_andThen _ _ _ fun b y => ?_
    cases b with
    | some b => rfl
    | none => exact ih y

/-- The ghost changes neither the result, nor the state, nor what is shown. -/
theorem erase_withGhost (M : Machine E S O) (watch : {β : Type} → E β → S → G → G) (n : Nat)
    (p : Prog E φ α) (x : S × G) :
    (exec (M.withGhost watch) n p x).erase = exec M n p x.1 := by
  induction p generalizing x with
  | ret a => rfl
  | fail e => rfl
  | op e k ih =>
    rw [exec, exec]
    exact Out.erase_andThen _ _ _ fun b y => ih b y
  | loop body k ihb ih =>
    rw [exec, exec, ← erase_iterate ihb]
    exact Out.erase_andThen _ _ _ fun b y => ih b y

end Ghost

end Lib
