/-
  ImxrtUsbd.Lib.Steps

  Programs one access at a time.

  `Prog.next` performs the next access of a program and says what is left of
  it.  `Leads` follows a program for any number of such steps; one that is led
  to its end has been executed (`Leads.exec_eq`).  More passes for the loops
  change nothing about an execution that has ended (`exec_mono`).

  `Prog.hoist` performs a program by the accesses of another machine, which
  then does to a part of its state what the program does (`exec_hoist`).
-/
import ImxrtUsbd.Lib.Kept

namespace Lib

variable {E F : Type → Type} {S T O O' φ α β : Type}

/-! ## Single steps -/

/-- The next access, or the next pass of a loop written out.  There is none at
    the end. -/
def Prog.next (M : Machine E S O) : Prog E φ α → S → Option (Prog E φ α × S × List O)
  | .ret _, _ => none
  | .fail _, _ => none
  | .op e k, s => some (k (M.act e s).1, (M.act e s).2.1, (M.act e s).2.2)
  | .loop body k, s => some (body.bind fun b => b.elim (.loop body k) k, s, [])

/-- From the one program and state to the other in steps, showing a list. -/
inductive Leads (M : Machine E S O) (p : Prog E φ α) (s : S) :
    List O → Prog E φ α → S → Prop where
  | refl : Leads M p s [] p s
  | next {q q' : Prog E φ α} {t t' : S} {o o' : List O} :
      Leads M p s o q t → q.next M t = some (q', t', o') → Leads M p s (o ++ o') q' t'

/-! ## Passes -/

section Passes

variable {M : Machine E S O} {m n : Nat} {s s' : S}

/-- Where the first part of an outcome did not end, the whole did not. -/
theorem Out.ne_spin_of_andThen {r : Out S O φ α} {f : α → S → Out S O φ β}
    (h : (r.andThen f).res ≠ .spin) : r.res ≠ .spin := by
  intro hr
  rw [andThen, hr] at h
  exact h rfl

/-- Continue an outcome in two ways that agree where the first one ends. -/
theorem Out.andThen_congr {r r' : Out S O φ α} {f f' : α → S → Out S O φ β}
    (h : (r.andThen f).res ≠ .spin) (hr : r' = r)
    (hf : ∀ a s, (f a s).res ≠ .spin → f' a s = f a s) : r'.andThen f' = r.andThen f := by
  subst hr
  obtain ⟨res, post, obs⟩ := r'
  cases res with
  | ok a =>
    rw [andThen_ok_obs] at h
    rw [andThen_ok_obs, andThen_ok_obs, hf a post h]
  | fail e => rfl
  | spin => rfl

theorem iterate_mono {pass pass' : S → Out S O φ (Option β)}
    (hp : ∀ s, (pass s).res ≠ .spin → pass' s = pass s) (hmn : n ≤ m)
    (h : (iterate pass n s).res ≠ .spin) : iterate pass' m s = iterate pass n s := by
  induction n generalizing m s with
  | zero => exact absurd rfl h
  | succ n ih =>
    obtain ⟨m, rfl⟩ := Nat.exists_eq_succ_of_ne_zero (Nat.ne_of_gt (Nat.lt_of_lt_of_le
      (Nat.succ_pos n) hmn))
    rw [iterate] at h
    rw [iterate, iterate]
    refine Out.andThen_congr h (hp s (Out.ne_spin_of_andThen h)) fun b t hb => ?_
    cases b with
    | some b => rfl
    | none => exact ih (Nat.le_of_succ_le_succ hmn) hb

/-- An execution that ended ends so with more passes, too. -/
theorem exec_mono {p : Prog E φ α} (hmn : n ≤ m) (h : (exec M n p s).res ≠ .spin) :
    exec M m p s = exec M n p s := by
  induction p generalizing s with
  | ret a => rfl
  | fail e => rfl
  | op e k ih => exact Out.andThen_congr h rfl fun b t hb => ih b hb
  | loop body k ihb ih =>
    rw [exec] at h
    rw [exec, exec]
    refine Out.andThen_congr h ?_ fun b t hb => ih b hb
    exact iterate_mono (fun t ht => ihb ht) hmn (Out.ne_spin_of_andThen h)

/-- An execution that ended is the execution with any other number of passes
    that are enough. -/
theorem exec_unique {p : Prog E φ α} {r r' : Out S O φ α} (h : exec M n p s = r)
    (h' : exec M m p s = r') (hr : r.res ≠ .spin) (hr' : r'.res ≠ .spin) : r = r' := by
  subst h h'
  rcases Nat.le_total n m with hle | hle
  · exact (exec_mono hle hr).symm
  · exact exec_mono hle hr'

/-! ## Steps and executions -/

/-- What is left of a loop after a pass was written out. -/
theorem exec_unfold {body : Prog E φ (Option β)} {k : β → Prog E φ α} {a : α} {o : List O}
    (h : exec M n (body.bind fun b => b.elim (.loop body k) k) s = ⟨.ok a, s', o⟩) :
    exec M (n + 1) (.loop body k) s = ⟨.ok a, s', o⟩ := by
  rw [← h]
  have hne : (exec M n (body.bind fun b => b.elim (.loop body k) k) s).res ≠ .spin := by
    rw [h]
    simp
  rw [exec_bind'] at hne ⊢
  rw [exec, iterate, Out.andThen_assoc]
  refine Out.andThen_congr hne (exec_mono (Nat.le_succ n) (Out.ne_spin_of_andThen hne))
    fun b t hb => ?_
  cases b with
  | some b =>
    have hb : (exec M n (k b) t).res ≠ .spin := hb
    show (Out.mk (.ok b) t []).andThen _ = _
    rw [Out.andThen_ok]
    exact exec_mono (Nat.le_succ n) hb
  | none =>
    have hb : (exec M n (.loop body k) t).res ≠ .spin := hb
    show (iterate (fun s => exec M (n + 1) body s) n t).andThen _ = exec M n (.loop body k) t
    rw [exec] at hb ⊢
    refine Out.andThen_congr hb ?_ fun b u hu => exec_mono (Nat.le_succ n) hu
    exact iterate_mono (fun u hu => exec_mono (Nat.le_succ n) hu) (Nat.le_refl n)
      (Out.ne_spin_of_andThen hb)

/-- A step, and an execution of what is left. -/
theorem exec_of_next {p q : Prog E φ α} {t : S} {a : α} {o o' : List O}
    (hn : p.next M s = some (q, t, o)) (h : exec M n q t = ⟨.ok a, s', o'⟩) :
    ∃ m, exec M m p s = ⟨.ok a, s', o ++ o'⟩ := by
  cases p with
  | ret | fail => simp [Prog.next] at hn
  | op e k =>
    obtain ⟨rfl, hrest⟩ := Prod.mk.inj (Option.some.inj hn)
    obtain ⟨rfl, rfl⟩ := Prod.mk.inj hrest
    refine ⟨n, ?_⟩
    rw [exec, Out.andThen_ok_obs, h]
  | loop body k =>
    obtain ⟨rfl, hrest⟩ := Prod.mk.inj (Option.some.inj hn)
    obtain ⟨rfl, rfl⟩ := Prod.mk.inj hrest
    exact ⟨n + 1, exec_unfold h⟩

/-- A program that was led to its end was executed. -/
theorem Leads.exec_eq {p q : Prog E φ α} {t : S} {a : α} {o o' : List O}
    (h : Leads M p s o q t) (hq : exec M n q t = ⟨.ok a, s', o'⟩) :
    ∃ m, exec M m p s = ⟨.ok a, s', o ++ o'⟩ := by
  induction h generalizing n o' with
  | refl => exact ⟨n, hq⟩
  | next _ hn ih =>
    obtain ⟨m, hm⟩ := exec_of_next hn hq
    obtain ⟨m', hm'⟩ := ih hm
    exact ⟨m', by rw [hm', List.append_assoc]⟩

/-- Steps of a program whose accesses keep the state keep it. -/
theorem Leads.only {P : (β : Type) → E β → Prop} {p q : Prog E φ α} {t : S} {o : List O}
    (hP : ∀ (β : Type) (e : E β) (s : S), P β e → (M.act e s).2.1 = s) (hp : p.Only P)
    (h : Leads M p s o q t) : q.Only P ∧ t = s := by
  induction h with
  | refl => exact ⟨hp, rfl⟩
  | @next q q' t t' o o' _ hn ih =>
    obtain ⟨hq, rfl⟩ := ih
    cases q with
    | ret | fail => simp [Prog.next] at hn
    | op e k =>
      obtain ⟨rfl, hrest⟩ := Prod.mk.inj (Option.some.inj hn)
      obtain ⟨rfl, -⟩ := Prod.mk.inj hrest
      exact ⟨hq.2 _, hP _ e t hq.1⟩
    | loop body k =>
      obtain ⟨rfl, hrest⟩ := Prod.mk.inj (Option.some.inj hn)
      obtain ⟨rfl, -⟩ := Prod.mk.inj hrest
      refine ⟨Prog.Only.bind hq.1 fun b => ?_, rfl⟩
      cases b with
      | some b => exact hq.2 b
      | none => exact hq

end Passes

/-! ## Another machine -/

/-- The same program, by other accesses. -/
def Prog.hoist (f : (β : Type) → E β → F β) : {α : Type} → Prog E φ α → Prog F φ α
  | _, .ret a => .ret a
  | _, .fail e => .fail e
  | _, .op e k => .op (f _ e) fun b => (k b).hoist f
  | _, .loop body k => .loop (body.hoist f) fun b => (k b).hoist f

/-- An outcome on a part of the state, `put` back into the whole. -/
def Out.into (put : S → T) (see : O → O') (r : Out S O φ α) : Out T O' φ α :=
  ⟨r.res, put r.post, r.obs.map see⟩

section Hoist

variable {M : Machine E S O} {N : Machine F T O'} {f : (β : Type) → E β → F β} (get : T → S)
  (put : T → S → T) (see : O → O')

theorem Prog.Only.hoist {P : (β : Type) → E β → Prop} {Q : (β : Type) → F β → Prop}
    (hPQ : ∀ β e, P β e → Q β (f β e)) {p : Prog E φ α} (h : p.Only P) : (p.hoist f).Only Q := by
  induction p with
  | ret | fail => trivial
  | op e k ih => exact ⟨hPQ _ e h.1, fun b => ih b (h.2 b)⟩
  | loop body k ihb ih => exact ⟨ihb h.1, fun b => ih b (h.2 b)⟩

theorem Out.into_andThen (x : T) {r : Out S O φ α} {g : α → S → Out S O φ β}
    {g' : α → T → Out T O' φ β}
    (h : ∀ a s, g' a (put x s) = (g a s).into (put x) see) :
    (r.into (put x) see).andThen g' = (r.andThen g).into (put x) see := by
  obtain ⟨res, post, obs⟩ := r
  cases res with
  | ok a =>
    show (Out.mk (.ok a) (put x post) (obs.map see)).andThen g' = _
    rw [andThen_ok_obs, andThen_ok_obs, h]
    simp [into]
  | fail e => rfl
  | spin => rfl

/-- A hoisted program does to its part what the program does. -/
theorem exec_hoist (hget : ∀ x s, get (put x s) = s) (hput : ∀ x s t, put (put x s) t = put x t)
    (hact : ∀ (β : Type) (e : E β) (x : T), N.act (f β e) x =
      ((M.act e (get x)).1, put x (M.act e (get x)).2.1, (M.act e (get x)).2.2.map see))
    (n : Nat) (p : Prog E φ α) (x : T) (s : S) :
    exec N n (p.hoist f) (put x s) = (exec M n p s).into (put x) see := by
  induction p generalizing s with
  | ret a => rfl
  | fail e => rfl
  | op e k ih =>
    rw [Prog.hoist, exec, exec, hact, hget, hput]
    exact Out.into_andThen put see x
      (r := Out.mk (.ok (M.act e s).1) (M.act e s).2.1 (M.act e s).2.2) fun b t => ih b t
  | loop body k ihb ih =>
    have hiter : ∀ m s, iterate (fun x => exec N n (body.hoist f) x) m (put x s) =
        (iterate (fun s => exec M n body s) m s).into (put x) see := by
      intro m
      induction m with
      | zero => exact fun s => rfl
      | succ m ihm =>
        intro s
        rw [iterate, iterate, ihb]
        refine Out.into_andThen put see x fun b t => ?_
        cases b with
        | some b => rfl
        | none => exact ihm t
    rw [Prog.hoist, exec, exec, hiter]
    exact Out.into_andThen put see x fun b t => ih b t

end Hoist

end Lib
