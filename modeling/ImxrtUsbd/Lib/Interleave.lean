/-
  ImxrtUsbd.Lib.Interleave

  Programs that share their state with an environment.

  `Machine.interleaved M env` runs a program while events arrive: the state
  carries a schedule, which gives for every access the events that arrive right
  before it.  An execution under some schedule is an execution with the events
  at arbitrary places between the accesses; what is observed are the accesses
  and the events, in their order.

  - `exec_interleaved` takes an execution apart at its first access.
  - `exec_unscheduled`: once the schedule is over, the program runs alone.
  - `Keeps.interleaved` says that a relation is kept by an interleaved program
    when every event keeps it, and the program keeps it on its own accesses.
-/
import ImxrtUsbd.Lib.Kept

namespace Lib

variable {E : Type → Type} {S O ev φ α β : Type}

/-- What can be observed: an event that arrives, or an access. -/
inductive Moment (ev O : Type) where
  | event (e : ev)
  | access (o : O)
  deriving DecidableEq

/-- Let the events arrive that can, one after the other. -/
def arrive (env : ev → S → Option S) : List ev → S → S × List ev
  | [], s => (s, [])
  | e :: es, s =>
    match env e s with
    | some s' => ((arrive env es s').1, e :: (arrive env es s').2)
    | none => arrive env es s

/-- A machine whose accesses are interleaved with events, after a schedule. -/
def Machine.interleaved (M : Machine E S O) (env : ev → S → Option S) :
    Machine E (S × List (List ev)) (Moment ev O) where
  act e x :=
    let arrived := arrive env (x.2.headD []) x.1
    let done := M.act e arrived.1
    (done.1, (done.2.1, x.2.tail), arrived.2.map .event ++ done.2.2.map .access)

/-- The same accesses with other observations. -/
def Machine.showing {O' : Type} (M : Machine E S O) (see : {β : Type} → E β → S → List O') :
    Machine E S O' :=
  ⟨fun e s => ((M.act e s).1, (M.act e s).2.1, see e s)⟩

/-- A relation of states, between states with schedules. -/
def Shared (R : S → List (Moment ev O) → S → Prop) (x : S × List (List ev))
    (o : List (Moment ev O)) (y : S × List (List ev)) : Prop :=
  R x.1 o y.1

section Interleaved

variable {env : ev → S → Option S} {R : S → List (Moment ev O) → S → Prop}

theorem Composes.shared (hR : Composes R) : Composes (Shared R) where
  refl := fun x => hR.refl x.1
  trans := fun h h' => hR.trans h h'

/-- What every event keeps, arriving events keep. -/
theorem arrive_kept (hR : Composes R)
    (hev : ∀ e s s', env e s = some s' → R s [.event e] s') (es : List ev) (s : S) :
    R s ((arrive env es s).2.map .event) (arrive env es s).1 := by
  induction es generalizing s with
  | nil => exact hR.refl s
  | cons e es ih =>
    rw [arrive]
    split
    · rename_i s' h
      exact hR.trans (hev e s s' h) (ih s')
    · exact ih s

/-- An access keeps what the events before it and the access itself keep. -/
theorem interleaved_act (hR : Composes R) {M : Machine E S O}
    (hev : ∀ e s s', env e s = some s' → R s [.event e] s') {e : E β}
    (hact : ∀ s, R s ((M.act e s).2.2.map .access) (M.act e s).2.1) (x : S × List (List ev)) :
    Shared R x ((M.interleaved env).act e x).2.2 ((M.interleaved env).act e x).2.1 :=
  hR.trans (arrive_kept hR hev _ _) (hact _)

/-- A program keeps what the events keep, and its accesses. -/
theorem Keeps.interleaved (hR : Composes R) {M : Machine E S O}
    (hev : ∀ e s s', env e s = some s' → R s [.event e] s')
    {P : (β : Type) → E β → Prop} {p : Prog E φ α}
    (hact : ∀ (β : Type) (e : E β) (s : S), P β e →
      R s ((M.act e s).2.2.map .access) (M.act e s).2.1)
    (hp : p.Only P) : Keeps (M.interleaved env) (Shared R) p :=
  .of_only hR.shared (fun _ _ x ha => interleaved_act hR hev (fun s => hact _ _ s ha) x) hp

/-- The first access of an execution: events arrive, the access takes place, and
    the rest of the program runs on. -/
theorem exec_interleaved (M : Machine E S O) (env : ev → S → Option S) (n : Nat) (e : E β)
    (f : β → Prog E φ α) (s : S) (σ : List (List ev)) :
    exec (M.interleaved env) n (Prog.access e >>= f) (s, σ) =
      (exec (M.interleaved env) n (f (M.act e (arrive env (σ.headD []) s).1).1)
        ((M.act e (arrive env (σ.headD []) s).1).2.1, σ.tail)).after
        ((arrive env (σ.headD []) s).2.map .event ++
          (M.act e (arrive env (σ.headD []) s).1).2.2.map .access) := by
  rw [exec_bind, exec_access]
  rfl

/-- The same, when nothing arrives before the access. -/
theorem exec_undisturbed (M : Machine E S O) (env : ev → S → Option S) (n : Nat) (e : E β)
    (f : β → Prog E φ α) (s : S) (σ : List (List ev)) :
    exec (M.interleaved env) n (Prog.access e >>= f) (s, [] :: σ) =
      (exec (M.interleaved env) n (f (M.act e s).1) ((M.act e s).2.1, σ)).after
        ((M.act e s).2.2.map .access) :=
  exec_interleaved M env n e f s ([] :: σ)

/-- The first access of an execution that returns. -/
theorem interleaved_ok (hR : Composes R) {M : Machine E S O}
    (hev : ∀ e s s', env e s = some s' → R s [.event e] s') {n : Nat} {e : E β}
    {f : β → Prog E φ α} {x y : S × List (List ev)} {a : α} {o : List (Moment ev O)}
    (h : exec (M.interleaved env) n (Prog.access e >>= f) x = ⟨.ok a, y, o⟩) :
    ∃ (s : S) (es : List ev) (σ : List (List ev)) (o' : List (Moment ev O)),
      R x.1 (es.map .event) s ∧ o = es.map .event ++ ((M.act e s).2.2.map .access ++ o') ∧
      exec (M.interleaved env) n (f (M.act e s).1) ((M.act e s).2.1, σ) = ⟨.ok a, y, o'⟩ := by
  have hkept := arrive_kept hR hev (x.2.headD []) x.1
  obtain ⟨s, σ⟩ := x
  rw [exec_interleaved] at h
  generalize hrest : exec (M.interleaved env) n
    (f (M.act e (arrive env (σ.headD []) s).1).1) _ = r at h
  obtain ⟨res, post, o'⟩ := r
  obtain ⟨rfl, rfl, rfl⟩ := Out.mk.inj h
  exact ⟨_, _, σ.tail, o', hkept, List.append_assoc _ _ _, hrest⟩

end Interleaved

/-! ## No events -/

/-- An outcome of the machine on its own, among no events. -/
def Out.alone (ev : Type) (r : Out S O φ α) :
    Out (S × List (List ev)) (Moment ev O) φ α :=
  ⟨r.res, (r.post, []), r.obs.map .access⟩

section Alone

theorem Out.alone_andThen (r : Out S O φ α) {f : α → S → Out S O φ β}
    {f' : α → S × List (List ev) → Out (S × List (List ev)) (Moment ev O) φ β}
    (hf : ∀ a s, f' a (s, []) = (f a s).alone ev) :
    (r.alone ev).andThen f' = (r.andThen f).alone ev := by
  obtain ⟨res, post, obs⟩ := r
  cases res with
  | ok a =>
    have h := hf a post
    rw [andThen_ok_obs]
    show Out.mk (f' a (post, [])).res (f' a (post, [])).post
      (obs.map .access ++ (f' a (post, [])).obs) = _
    rw [h]
    simp [alone]
  | fail e => rfl
  | spin => rfl

theorem iterate_alone {pass : S → Out S O φ (Option β)}
    {pass' : S × List (List ev) → Out (S × List (List ev)) (Moment ev O) φ (Option β)}
    (h : ∀ s, pass' (s, []) = (pass s).alone ev) (n : Nat) (s : S) :
    iterate pass' n (s, []) = (iterate pass n s).alone ev := by
  induction n generalizing s with
  | zero => rfl
  | succ n ih =>
    rw [iterate, iterate, h]
    refine Out.alone_andThen _ fun b s' => ?_
    cases b with
    | some b => rfl
    | none => exact ih s'

/-- With no more events to come, a program runs as it does alone. -/
theorem exec_unscheduled (M : Machine E S O) (env : ev → S → Option S) (n : Nat)
    (p : Prog E φ α) (s : S) :
    exec (M.interleaved env) n p (s, []) = (exec M n p s).alone ev := by
  induction p generalizing s with
  | ret a => rfl
  | fail e => rfl
  | op e k ih =>
    rw [exec, exec]
    exact Out.alone_andThen (Out.mk (.ok (M.act e s).1) (M.act e s).2.1 (M.act e s).2.2)
      fun b s' => ih b s'
  | loop body k ihb ih =>
    rw [exec, exec, iterate_alone ihb]
    exact Out.alone_andThen _ fun b s' => ih b s'

/-- Events arrive before the first access, and then no more. -/
theorem exec_arrival (M : Machine E S O) (env : ev → S → Option S) (n : Nat) (e : E β)
    (f : β → Prog E φ α) (s : S) (es : List ev) :
    exec (M.interleaved env) n (Prog.access e >>= f) (s, [es]) =
      ((exec M n (Prog.access e >>= f) (arrive env es s).1).alone ev).after
        ((arrive env es s).2.map .event) := by
  rw [exec_interleaved]
  show (exec (M.interleaved env) n _ (_, [])).after ((arrive env es s).2.map .event ++ _) = _
  rw [exec_unscheduled, exec_bind, exec_access, ← Out.after_after]
  refine congrArg (Out.after _) ?_
  rw [Out.andThen_ok_obs]
  simp [Out.alone, Out.after]

end Alone

end Lib
