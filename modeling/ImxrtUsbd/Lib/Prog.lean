/-
  ImxrtUsbd.Lib.Prog

  Programs over a signature of accesses, and their execution on a machine.

  - `Prog E φ α` is a program that performs accesses of the signature
    `E : Type → Type` (`E β` answers with a `β`), may fault with a `φ`, and
    returns an `α`.  Unbounded loops are a constructor, not a recursion.
  - `Machine E S O` gives each access a meaning on a state `S`; whatever an
    observer can see of the access is a list of `O`.
  - `exec M n p s` runs `p` on `M` from `s`, giving every loop `n` passes.

  Nothing here depends on what the accesses are: the same program can be run
  on several machines.
-/
import Mathlib

namespace Lib

/-- How an execution ends: with a value, with a fault, or still inside a loop
    after the passes it was given. -/
inductive Res (φ α : Type) where
  | ok (a : α)
  | fail (f : φ)
  | spin
  deriving DecidableEq, Repr

/-- A program over the accesses `E`, with faults `φ` and result `α`.
    `loop body k` repeats `body` until it answers `some b`, then goes on
    with `k b`. -/
inductive Prog (E : Type → Type) (φ : Type) : Type → Type 1 where
  | ret {α : Type} (a : α) : Prog E φ α
  | fail {α : Type} (f : φ) : Prog E φ α
  | op {α β : Type} (e : E β) (k : β → Prog E φ α) : Prog E φ α
  | loop {α β : Type} (body : Prog E φ (Option β)) (k : β → Prog E φ α) : Prog E φ α

namespace Prog

variable {E : Type → Type} {φ α β : Type}

/-- Sequential composition. -/
protected def bind : Prog E φ α → (α → Prog E φ β) → Prog E φ β
  | .ret a, f => f a
  | .fail e, _ => .fail e
  | .op e k, f => .op e fun b => (k b).bind f
  | .loop body k, f => .loop body fun b => (k b).bind f

instance : Monad (Prog E φ) where
  pure := .ret
  bind := Prog.bind

/-- One access. -/
def access (e : E β) : Prog E φ β := .op e .ret

/-- Repeat `body` until it answers. -/
def repeatUntil (body : Prog E φ (Option β)) : Prog E φ β := .loop body .ret

/-- The value of an option, or the fault `f`. -/
def getOr (f : φ) : Option α → Prog E φ α
  | some a => .ret a
  | none => .fail f

/-- Go on only if `c` holds. -/
def require (f : φ) (c : Prop) [Decidable c] : Prog E φ Unit :=
  if c then .ret () else .fail f

/-- Run `body` for every element of a list, in order. -/
def each (body : α → Prog E φ Unit) : List α → Prog E φ Unit
  | [] => .ret ()
  | a :: as => do body a; each body as

end Prog

/-- The outcome of an execution: its result, the state it leaves and what was
    observed on the way. -/
structure Out (S O φ α : Type) where
  res : Res φ α
  post : S
  obs : List O

namespace Out

variable {S O φ α β : Type}

/-- Continue after a result; a fault or an unfinished loop ends the execution. -/
def andThen (r : Out S O φ α) (f : α → S → Out S O φ β) : Out S O φ β :=
  match r.res with
  | .ok a => ⟨(f a r.post).res, (f a r.post).post, r.obs ++ (f a r.post).obs⟩
  | .fail e => ⟨.fail e, r.post, r.obs⟩
  | .spin => ⟨.spin, r.post, r.obs⟩

@[simp] theorem andThen_ok (a : α) (s : S) (f : α → S → Out S O φ β) :
    (Out.mk (.ok a) s []).andThen f = f a s := (rfl)

theorem andThen_ok_obs (a : α) (s : S) (o : List O) (f : α → S → Out S O φ β) :
    (Out.mk (.ok a) s o).andThen f =
      ⟨(f a s).res, (f a s).post, o ++ (f a s).obs⟩ := (rfl)

@[simp] theorem andThen_fail (e : φ) (s : S) (o : List O) (f : α → S → Out S O φ β) :
    (Out.mk (.fail e) s o).andThen f = ⟨.fail e, s, o⟩ := (rfl)

theorem andThen_assoc {γ : Type} (r : Out S O φ α) (f : α → S → Out S O φ β)
    (g : β → S → Out S O φ γ) :
    (r.andThen f).andThen g = r.andThen fun a s => (f a s).andThen g := by
  obtain ⟨res, post, obs⟩ := r
  cases res with
  | ok a =>
    simp only [andThen_ok_obs]
    cases hres : (f a post).res <;> simp [andThen, hres]
  | fail e => rfl
  | spin => rfl

/-- An outcome, with something observed before it. -/
def after (o : List O) (r : Out S O φ α) : Out S O φ α := ⟨r.res, r.post, o ++ r.obs⟩

theorem after_after (o o' : List O) (r : Out S O φ α) :
    (r.after o').after o = r.after (o ++ o') :=
  congrArg (Out.mk _ _) (List.append_assoc o o' r.obs).symm

end Out

/-- A machine: the meaning of each access on the state, with what can be
    observed of it. -/
structure Machine (E : Type → Type) (S O : Type) where
  act : {β : Type} → E β → S → β × S × List O

/-- Up to `n` passes of a loop body. -/
def iterate {S O φ β : Type} (pass : S → Out S O φ (Option β)) : Nat → S → Out S O φ β
  | 0, s => ⟨.spin, s, []⟩
  | n + 1, s => (pass s).andThen fun
    | some b, s' => ⟨.ok b, s', []⟩
    | none, s' => iterate pass n s'

section Iterate

variable {S O φ β : Type} {pass : S → Out S O φ (Option β)} {s s' : S} {o : List O}

/-- A pass that does not answer is followed by the others. -/
theorem iterate_again (n : Nat) (h : pass s = ⟨.ok none, s', o⟩) :
    iterate pass (n + 1) s = (iterate pass n s').after o := by
  rw [iterate, h]
  rfl

/-- A pass that answers is the last. -/
theorem iterate_done (n : Nat) {b : β} (h : pass s = ⟨.ok (some b), s', o⟩) :
    iterate pass (n + 1) s = ⟨.ok b, s', o⟩ := by
  rw [iterate, h, Out.andThen_ok_obs, List.append_nil]

end Iterate

/-- What is observed of a list loop whose body has the effect `eff` and shows `see`. -/
def trail {S O α : Type} (eff : S → α → S) (see : S → α → List O) : S → List α → List O
  | _, [] => []
  | s, a :: as => see s a ++ trail eff see (eff s a) as

section Exec

variable {E : Type → Type} {S O φ : Type} (M : Machine E S O) (n : Nat)

/-- Run a program, every loop of it for at most `n` passes. -/
def exec {α : Type} : Prog E φ α → S → Out S O φ α
  | .ret a, s => ⟨.ok a, s, []⟩
  | .fail e, s => ⟨.fail e, s, []⟩
  | .op e k, s =>
    (Out.mk (.ok (M.act e s).1) (M.act e s).2.1 (M.act e s).2.2).andThen fun b s' =>
      exec (k b) s'
  | .loop body k, s =>
    -- the same number of passes for every loop, nested ones included
    (iterate (fun s => exec body s) n s).andThen fun b s' => exec (k b) s'

variable {α β : Type}

@[simp] theorem exec_ret (a : α) (s : S) :
    exec M n (.ret a : Prog E φ α) s = ⟨.ok a, s, []⟩ := (rfl)

@[simp] theorem exec_pure (a : α) (s : S) :
    exec M n (pure a : Prog E φ α) s = ⟨.ok a, s, []⟩ := (rfl)

@[simp] theorem exec_fail (e : φ) (s : S) :
    exec M n (.fail e : Prog E φ α) s = ⟨.fail e, s, []⟩ := (rfl)

/-- Execution is compositional. -/
theorem exec_bind' (p : Prog E φ α) (f : α → Prog E φ β) (s : S) :
    exec M n (p.bind f) s = (exec M n p s).andThen fun a s' => exec M n (f a) s' := by
  -- on the program: what follows moves behind its first access or loop
  induction p generalizing s with
  | ret a => rfl
  | fail e => rfl
  | op e k ih =>
    simp only [Prog.bind, exec, ih, Out.andThen_assoc]
  | loop body k _ ih =>
    simp only [Prog.bind, exec, ih, Out.andThen_assoc]

@[simp] theorem exec_bind (p : Prog E φ α) (f : α → Prog E φ β) (s : S) :
    exec M n (p >>= f) s = (exec M n p s).andThen fun a s' => exec M n (f a) s' :=
  exec_bind' M n p f s

/-- Both parts of a sequence that returns return. -/
theorem exec_bind_ok {p : Prog E φ α} {f : α → Prog E φ β} {s s' : S} {b : β} {o : List O}
    (h : exec M n (p >>= f) s = ⟨.ok b, s', o⟩) :
    ∃ a s₁ o₁ o₂, exec M n p s = ⟨.ok a, s₁, o₁⟩ ∧ exec M n (f a) s₁ = ⟨.ok b, s', o₂⟩ ∧
      o = o₁ ++ o₂ := by
  rw [exec_bind] at h
  generalize exec M n p s = r at h ⊢
  obtain ⟨res, s₁, o₁⟩ := r
  cases res with
  | ok a =>
    rw [Out.andThen_ok_obs] at h
    generalize hrest : exec M n (f a) s₁ = r at h
    obtain ⟨res', post, o₂⟩ := r
    obtain ⟨rfl, rfl, rfl⟩ := Out.mk.inj h
    exact ⟨a, s₁, o₁, o₂, rfl, hrest, rfl⟩
  | fail e => simp [Out.andThen] at h
  | spin => simp [Out.andThen] at h

/-- What the first part does not show is shown by the second, after it returned. -/
theorem exec_bind_shows {p : Prog E φ α} {f : α → Prog E φ β} {s : S} {x : O} {pre post : List O}
    (h : (exec M n (p >>= f) s).obs = pre ++ x :: post) (hp : x ∉ (exec M n p s).obs) :
    ∃ a s₁ o pre', exec M n p s = ⟨.ok a, s₁, o⟩ ∧
      (exec M n (f a) s₁).obs = pre' ++ x :: post ∧ pre = o ++ pre' := by
  rw [exec_bind] at h
  generalize exec M n p s = r at h hp ⊢
  obtain ⟨res, s₁, o⟩ := r
  have hx : x ∈ pre ++ x :: post := List.mem_append_right _ List.mem_cons_self
  cases res with
  | ok a =>
    rw [Out.andThen_ok_obs] at h
    -- `x` is not in `o`, so the observations part inside `pre`
    obtain ⟨pre', rfl, hrest⟩ | ⟨more, rfl, hrest⟩ := List.append_eq_append_iff.mp h
    · exact ⟨a, s₁, o, pre', rfl, hrest, rfl⟩
    · cases more with
      | nil => exact ⟨a, s₁, pre ++ [], [], rfl, hrest.symm, (List.append_nil _).symm.trans
          (List.append_nil _).symm⟩
      | cons y more =>
        obtain ⟨rfl, -⟩ := List.cons.inj hrest
        simp at hp
  | fail e =>
    rw [← h] at hx
    exact absurd hx hp
  | spin =>
    rw [← h] at hx
    exact absurd hx hp

/-- A value made of the result changes neither the state nor what is shown. -/
theorem exec_map (p : Prog E φ α) (f : α → β) (s : S) :
    (exec M n (p >>= fun a => pure (f a)) s).post = (exec M n p s).post ∧
      (exec M n (p >>= fun a => pure (f a)) s).obs = (exec M n p s).obs := by
  rw [exec_bind]
  generalize exec M n p s = r
  obtain ⟨res, post, obs⟩ := r
  cases res with
  | ok a => exact ⟨rfl, List.append_nil obs⟩
  | fail e => exact ⟨rfl, rfl⟩
  | spin => exact ⟨rfl, rfl⟩

theorem exec_access (e : E β) (s : S) :
    exec M n (Prog.access e : Prog E φ β) s =
      ⟨.ok (M.act e s).1, (M.act e s).2.1, (M.act e s).2.2⟩ := by
  simp [Prog.access, exec, Out.andThen_ok_obs]

@[simp] theorem exec_getOr_some (f : φ) (a : α) (s : S) :
    exec M n (Prog.getOr f (some a) : Prog E φ α) s = ⟨.ok a, s, []⟩ := (rfl)

@[simp] theorem exec_getOr_none (f : φ) (s : S) :
    exec M n (Prog.getOr f none : Prog E φ α) s = ⟨.fail f, s, []⟩ := (rfl)

theorem exec_require {c : Prop} [Decidable c] (f : φ) (s : S) (hc : c) :
    exec M n (Prog.require f c : Prog E φ Unit) s = ⟨.ok (), s, []⟩ := by
  simp [Prog.require, hc]

/-- A loop whose first pass answers is left after that pass. -/
theorem exec_repeatUntil_some (body : Prog E φ (Option β)) {s s' : S} {b : β} {o : List O}
    (h : exec M (n + 1) body s = ⟨.ok (some b), s', o⟩) :
    exec M (n + 1) (Prog.repeatUntil body) s = ⟨.ok b, s', o⟩ := by
  rw [Prog.repeatUntil, exec, iterate_done n h, Out.andThen_ok_obs]
  exact congrArg (Out.mk _ _) (List.append_nil o)

/-- A list loop whose body always ends normally, under an invariant that the
    body keeps, folds the body's effect over the list. -/
theorem exec_each {body : α → Prog E φ Unit} {eff : S → α → S} {see : S → α → List O}
    {I : S → Prop} (as : List α) (s : S)
    (hbody : ∀ a ∈ as, ∀ s, I s →
      exec M n (body a) s = ⟨.ok (), eff s a, see s a⟩ ∧ I (eff s a)) (hI : I s) :
    exec M n (Prog.each body as) s = ⟨.ok (), as.foldl eff s, trail eff see s as⟩ := by
  induction as generalizing s with
  | nil => rfl
  | cons a as ih =>
    obtain ⟨ha, hI'⟩ := hbody a (List.mem_cons_self ..) s hI
    -- the body's effect keeps the invariant, so the rest runs from `eff s a`
    have ih' := ih (eff s a) (fun b hb => hbody b (List.mem_cons_of_mem _ hb)) hI'
    rw [Prog.each, exec_bind, ha, Out.andThen_ok_obs, ih']
    rfl

end Exec

end Lib
