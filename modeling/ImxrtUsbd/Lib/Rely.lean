/-
  ImxrtUsbd.Lib.Rely

  Hoare triples for programs that share their state with an environment.

  - A `World` is a machine with its environment, and a ghost that sees whatever
    happens: events and accesses.
  - An assertion is about the ghost and the state.  It is `Stable` when no event
    undoes it.
  - `W.Triple P p Q`: if `P` holds and `p` runs with events at arbitrary places
    between its accesses, then `Q a` holds when it returns `a`.

  There is one rule for each program construct.  Events arrive before an access,
  so stability is asked for in the rule for accesses and nowhere else.
-/
import ImxrtUsbd.Lib.Interleave

namespace Lib

/-- A machine, its environment, and a ghost that sees what happens. -/
structure World (E : Type → Type) (S O ev G : Type) where
  machine : Machine E S O
  env : ev → S → Option S
  see : G → Moment ev O → G

namespace World

variable {E : Type → Type} {S O ev G φ α β : Type} (W : World E S O ev G)

/-- The machine with events between its accesses. -/
abbrev busy : Machine E (S × List (List ev)) (Moment ev O) := W.machine.interleaved W.env

/-- Events do not undo the assertion. -/
def Stable (P : G → S → Prop) : Prop :=
  ∀ e g s s', P g s → W.env e s = some s' → P (W.see g (.event e)) s'

/-- From `P`, whatever arrives in between, the program returns only with `Q`. -/
def Triple (P : G → S → Prop) (p : Prog E φ α) (Q : α → G → S → Prop) : Prop :=
  ∀ n g x a y o, P g x.1 → exec W.busy n p x = ⟨.ok a, y, o⟩ → Q a (o.foldl W.see g) y.1

variable {W} {P P' : G → S → Prop} {Q Q' R : α → G → S → Prop}

/-! ## Stability -/

theorem Stable.and (h : W.Stable P) (h' : W.Stable P') : W.Stable fun g s => P g s ∧ P' g s :=
  fun e g s s' hP hev => ⟨h e g s s' hP.1 hev, h' e g s s' hP.2 hev⟩

/-- A stable assertion outlasts whatever arrives before an access. -/
theorem Stable.arrive (h : W.Stable P) (es : List ev) {g : G} {s : S} (hP : P g s) :
    P (((Lib.arrive W.env es s).2.map .event).foldl W.see g) (Lib.arrive W.env es s).1 := by
  induction es generalizing g s with
  | nil => exact hP
  | cons e es ih =>
    rw [Lib.arrive]
    split
    · rename_i s' hev
      exact ih (h e g s s' hP hev)
    · exact ih hP

/-! ## Rules -/

namespace Triple

theorem ret {a : α} (h : ∀ g s, P g s → Q a g s) : W.Triple P (.ret a : Prog E φ α) Q := by
  intro n g x b y o hP hrun
  obtain ⟨hb, rfl, rfl⟩ := Out.mk.inj hrun
  rw [← Res.ok.inj hb]
  exact h g x.1 hP

theorem pure {a : α} (h : ∀ g s, P g s → Q a g s) : W.Triple P (Pure.pure a : Prog E φ α) Q :=
  ret h

theorem fail (f : φ) : W.Triple P (.fail f : Prog E φ α) Q :=
  fun _ _ _ _ _ _ _ hrun => absurd (Out.mk.inj hrun).1 (by simp)

/-- A stronger precondition, a weaker postcondition. -/
theorem weaken {p : Prog E φ α} (h : W.Triple P p Q) (hP : ∀ g s, P' g s → P g s)
    (hQ : ∀ a g s, Q a g s → Q' a g s) : W.Triple P' p Q' :=
  fun n g x a y o hpre hrun => hQ _ _ _ (h n g x a y o (hP _ _ hpre) hrun)

/-- What the precondition says besides the state may be assumed. -/
theorem assume {c : Prop} {p : Prog E φ α} (h : c → W.Triple P p Q) :
    W.Triple (fun g s => c ∧ P g s) p Q :=
  fun n g x a y o hpre hrun => h hpre.1 n g x a y o hpre.2 hrun

theorem bind {p : Prog E φ β} {f : β → Prog E φ α} {R : β → G → S → Prop} (hp : W.Triple P p R)
    (hf : ∀ b, W.Triple (R b) (f b) Q) : W.Triple P (p >>= f) Q := by
  intro n g x a z o hP hrun
  obtain ⟨b, y, o₁, o₂, hp', hf', rfl⟩ := exec_bind_ok _ _ hrun
  rw [List.foldl_append]
  exact hf b n _ y a z o₂ (hp n g x b y o₁ hP hp') hf'

theorem access {e : E α} (hP : W.Stable P)
    (h : ∀ g s, P g s → Q (W.machine.act e s).1
      (((W.machine.act e s).2.2.map .access).foldl W.see g) (W.machine.act e s).2.1) :
    W.Triple P (Prog.access e : Prog E φ α) Q := by
  intro n g x a y o hpre hrun
  rw [exec_access] at hrun
  obtain ⟨ha, rfl, rfl⟩ := Out.mk.inj hrun
  rw [← Res.ok.inj ha]
  show Q _ (List.foldl W.see g (_ ++ _)) _
  rw [List.foldl_append]
  exact h _ _ (hP.arrive _ hpre)

theorem getOr (f : φ) {o : Option α} (h : ∀ a g s, o = some a → P g s → Q a g s) :
    W.Triple P (Prog.getOr f o) Q := by
  cases o with
  | none => exact fail f
  | some a => exact ret fun g s => h a g s rfl

theorem require (f : φ) (c : Prop) [Decidable c] :
    W.Triple P (Prog.require f c) fun _ g s => c ∧ P g s := by
  unfold Prog.require
  split
  · rename_i hc
    exact ret fun g s hP => ⟨hc, hP⟩
  · exact fail f

/-- The invariant of a loop holds before every pass. -/
theorem repeatUntil {body : Prog E φ (Option α)}
    (h : W.Triple P body fun o g s => (∀ a, o = some a → Q a g s) ∧ (o = none → P g s)) :
    W.Triple P (Prog.repeatUntil body) Q := by
  have hloop : ∀ n k g x a y o, P g x.1 →
      iterate (fun x => exec W.busy n body x) k x = ⟨.ok a, y, o⟩ →
        Q a (o.foldl W.see g) y.1 := by
    intro n k
    -- on the passes: the first one answers, or leaves the invariant to the rest
    induction k with
    | zero => exact fun _ _ _ _ _ _ hrun => absurd (Out.mk.inj hrun).1 (by simp)
    | succ k ih =>
      intro g x a z o hP hrun
      generalize hpass : exec W.busy n body x = r at hrun
      obtain ⟨res, y, o₁⟩ := r
      cases res with
      | ok b =>
        obtain ⟨hdone, hagain⟩ := h n g x b y o₁ hP hpass
        cases b with
        | some b =>
          rw [iterate_done k hpass] at hrun
          obtain ⟨ha, rfl, rfl⟩ := Out.mk.inj hrun
          rw [← Res.ok.inj ha]
          exact hdone b rfl
        | none =>
          rw [iterate_again k hpass] at hrun
          generalize hrest : iterate (fun x => exec W.busy n body x) k y = r at hrun
          obtain ⟨res, y', o₂⟩ := r
          obtain ⟨rfl, rfl, rfl⟩ := Out.mk.inj hrun
          rw [List.foldl_append]
          exact ih _ y a y' o₂ (hagain rfl) hrest
      | fail e => simp [iterate, hpass, Out.andThen] at hrun
      | spin => simp [iterate, hpass, Out.andThen] at hrun
  intro n g x a y o hP hrun
  rw [Prog.repeatUntil, exec] at hrun
  generalize hpasses : iterate (fun x => exec W.busy n body x) n x = r at hrun
  obtain ⟨res, y', o₁⟩ := r
  cases res with
  | ok b =>
    rw [Out.andThen_ok_obs, exec_ret, List.append_nil] at hrun
    obtain ⟨hb, rfl, rfl⟩ := Out.mk.inj hrun
    rw [← Res.ok.inj hb]
    exact hloop n n g x b y' o₁ hP hpasses
  | fail e => simp [Out.andThen] at hrun
  | spin => simp [Out.andThen] at hrun

/-- A list loop keeps what its body keeps. -/
theorem each {body : β → Prog E φ Unit} (h : ∀ b, W.Triple P (body b) fun _ => P)
    (bs : List β) : W.Triple P (Prog.each body bs) fun _ => P := by
  induction bs with
  | nil => exact ret fun _ _ hP => hP
  | cons b bs ih => exact bind (h b) fun _ => ih

/-- Accesses that keep a stable assertion make up programs that do. -/
theorem only (hP : W.Stable P) {C : (β : Type) → E β → Prop} {p : Prog E φ α}
    (hact : ∀ (β : Type) (e : E β) g s, C β e → P g s →
      P (((W.machine.act e s).2.2.map .access).foldl W.see g) (W.machine.act e s).2.1)
    (hp : p.Only C) : W.Triple P p fun _ => P := by
  induction p with
  | ret a => exact ret fun _ _ h => h
  | fail e => exact fail e
  | op e k ih =>
    exact bind (p := Prog.access e) (access hP fun g s => hact _ e g s hp.1) fun b => ih b (hp.2 b)
  | loop body k ihb ih =>
    have hbody : W.Triple P (Prog.repeatUntil body) fun _ => P :=
      repeatUntil ((ihb hp.1).weaken (fun _ _ h => h) fun _ _ _ h => ⟨fun _ _ => h, fun _ => h⟩)
    exact bind hbody fun b => ih b (hp.2 b)

end Triple

end World

end Lib
