/-
  ImxrtUsbd.Lib.Run

  Runs of a labelled transition system, with their history.

  - A history records, for every step of the run, the state it was taken in
    and its label; `Run step s₀ tr s` says that `tr` leads from `s₀` to `s`.
  - `Always φ tr` says that `φ` holds at every step of `tr`; `φ` sees the
    history before the step, the state and the label.
  - `Throughout φ tr s` says that `φ` holds in every state of the run.
  - A monitor is a left fold over the history, so that what it knows after one
    more step is one step of the monitor: `List.foldl`, or `monitor` where the
    step needs to see the history before it.

  `Run.hist_invariant` is the induction over runs.  `Run.always_iff` and
  `Run.throughout_iff` are the shape of an exactness result: if an invariant
  holds as long as every step meets a condition, and under the invariant a step
  is good exactly when it meets the condition, then a run is good throughout
  exactly when it meets the condition throughout.
-/
import Mathlib

namespace Lib

variable {σ lab : Type}

/-- What happened so far: the state before each step, and its label. -/
abbrev Hist (σ lab : Type) := List (σ × lab)

/-- `tr` is the history of a run from `s₀` to the last state. -/
inductive Run (step : σ → lab → σ → Prop) (s₀ : σ) : Hist σ lab → σ → Prop where
  | nil : Run step s₀ [] s₀
  | snoc {tr : Hist σ lab} {s s' : σ} {l : lab} :
      Run step s₀ tr s → step s l s' → Run step s₀ (tr ++ [(s, l)]) s'

/-- `φ` holds at every step of the history. -/
def Always (φ : Hist σ lab → σ → lab → Prop) (tr : Hist σ lab) : Prop :=
  ∀ pre s l post, tr = pre ++ (s, l) :: post → φ pre s l

/-- What stands in a list with a last element is that element, or stands before it. -/
theorem snoc_eq_iff {α : Type} {l pre post : List α} {x y : α} :
    l ++ [x] = pre ++ y :: post ↔
      (l = pre ∧ x = y ∧ post = []) ∨ ∃ mid, post = mid ++ [x] ∧ l = pre ++ y :: mid := by
  constructor
  · intro heq
    rcases List.eq_nil_or_concat post with rfl | ⟨mid, z, rfl⟩
    · obtain ⟨rfl, hx⟩ := List.append_inj' heq rfl
      exact Or.inl ⟨rfl, List.head_eq_of_cons_eq hx, rfl⟩
    · rw [List.concat_eq_append, ← List.cons_append, ← List.append_assoc] at heq
      obtain ⟨rfl, hx⟩ := List.append_inj' heq rfl
      obtain rfl := List.head_eq_of_cons_eq hx
      exact Or.inr ⟨mid, List.concat_eq_append, rfl⟩
  · rintro (⟨rfl, rfl, rfl⟩ | ⟨mid, rfl, rfl⟩)
    · rfl
    · simp

theorem Always.nil {φ : Hist σ lab → σ → lab → Prop} : Always φ [] := by
  intro pre s l post h
  simp at h

theorem always_snoc {φ : Hist σ lab → σ → lab → Prop} {tr : Hist σ lab} {s : σ} {l : lab} :
    Always φ (tr ++ [(s, l)]) ↔ Always φ tr ∧ φ tr s l := by
  constructor
  · intro h
    refine ⟨fun pre t k post heq => ?_, h tr s l [] rfl⟩
    exact h pre t k (post ++ [(s, l)]) (by rw [heq]; simp)
  · rintro ⟨h, hl⟩ pre t k post heq
    -- the step asked about is the last one, or one of `tr`
    rcases List.eq_nil_or_concat post with rfl | ⟨post', x, rfl⟩
    · obtain ⟨rfl, hx⟩ := List.append_inj' heq rfl
      obtain ⟨rfl, rfl⟩ := Prod.mk.inj (List.cons.inj hx).1
      exact hl
    · rw [List.concat_eq_append, ← List.cons_append, ← List.append_assoc] at heq
      obtain ⟨rfl, -⟩ := List.append_inj' heq rfl
      exact h pre t k post' rfl

theorem always_true (tr : Hist σ lab) : Always (fun _ _ _ => True) tr :=
  fun _ _ _ _ _ => trivial

theorem always_single {φ : Hist σ lab → σ → lab → Prop} {s : σ} {l : lab} :
    Always φ [(s, l)] ↔ φ [] s l := by
  rw [← List.nil_append [(s, l)], always_snoc]
  exact ⟨And.right, fun h => ⟨Always.nil, h⟩⟩

theorem always_and {φ ψ : Hist σ lab → σ → lab → Prop} {tr : Hist σ lab} :
    Always (fun pre s l => φ pre s l ∧ ψ pre s l) tr ↔ Always φ tr ∧ Always ψ tr :=
  ⟨fun h => ⟨fun pre s l post heq => (h pre s l post heq).1,
      fun pre s l post heq => (h pre s l post heq).2⟩,
    fun h pre s l post heq => ⟨h.1 pre s l post heq, h.2 pre s l post heq⟩⟩

theorem Always.mono {φ ψ : Hist σ lab → σ → lab → Prop} {tr : Hist σ lab}
    (hφ : Always φ tr) (h : ∀ pre s l, φ pre s l → ψ pre s l) : Always ψ tr :=
  fun pre s l post heq => h pre s l (hφ pre s l post heq)

/-- `Always`, for the rest of a history that begins with `pre`. -/
def AlwaysFrom (φ : Hist σ lab → σ → lab → Prop) (pre : Hist σ lab) : Hist σ lab → Prop
  | [] => True
  | x :: post => φ pre x.1 x.2 ∧ AlwaysFrom φ (pre ++ [x]) post

instance AlwaysFrom.decidable {φ : Hist σ lab → σ → lab → Prop}
    [∀ pre s l, Decidable (φ pre s l)] (pre : Hist σ lab) : (tr : Hist σ lab) →
    Decidable (AlwaysFrom φ pre tr)
  | [] => isTrue trivial
  | x :: post =>
    have := AlwaysFrom.decidable (φ := φ) (pre ++ [x]) post
    inferInstanceAs (Decidable (φ pre x.1 x.2 ∧ AlwaysFrom φ (pre ++ [x]) post))

theorem alwaysFrom_iff {φ : Hist σ lab → σ → lab → Prop} (pre tr : Hist σ lab) :
    AlwaysFrom φ pre tr ↔ Always (fun p s l => φ (pre ++ p) s l) tr := by
  induction tr generalizing pre with
  | nil => exact iff_of_true trivial Always.nil
  | cons x tr ih =>
    rw [AlwaysFrom, ih]
    constructor
    · rintro ⟨hx, htr⟩ p s l post heq
      cases p with
      | nil =>
        obtain ⟨rfl, -⟩ := List.cons.inj heq
        simpa using hx
      | cons y p =>
        obtain ⟨rfl, htail⟩ := List.cons.inj heq
        simpa using htr p s l post htail
    · intro h
      refine ⟨by simpa using h [] x.1 x.2 tr rfl, fun p s l post heq => ?_⟩
      simpa using h (x :: p) s l post (by rw [heq]; rfl)

instance Always.decidable {φ : Hist σ lab → σ → lab → Prop}
    [∀ pre s l, Decidable (φ pre s l)] (tr : Hist σ lab) : Decidable (Always φ tr) :=
  decidable_of_iff (AlwaysFrom φ [] tr) (alwaysFrom_iff [] tr)

/-- `φ` holds in every state the run goes through, the last one included. -/
def Throughout (φ : Hist σ lab → σ → Prop) (tr : Hist σ lab) (s : σ) : Prop :=
  Always (fun pre t _ => φ pre t) tr ∧ φ tr s

theorem throughout_snoc {φ : Hist σ lab → σ → Prop} {tr : Hist σ lab} {s s' : σ} {l : lab} :
    Throughout φ (tr ++ [(s, l)]) s' ↔ Throughout φ tr s ∧ φ (tr ++ [(s, l)]) s' := by
  unfold Throughout
  rw [always_snoc]

/-- Follow a history from `b`, with what came before each step. -/
def monitorFrom {β : Type} (next : Hist σ lab → β → lab → β) (pre : Hist σ lab) (b : β) :
    Hist σ lab → β
  | [] => b
  | x :: post => monitorFrom next (pre ++ [x]) (next pre b x.2) post

def monitor {β : Type} (next : Hist σ lab → β → lab → β) (b : β) (tr : Hist σ lab) : β :=
  monitorFrom next [] b tr

theorem monitor_snoc {β : Type} (next : Hist σ lab → β → lab → β) (b : β) (tr : Hist σ lab)
    (s : σ) (l : lab) : monitor next b (tr ++ [(s, l)]) = next tr (monitor next b tr) l := by
  -- generalized over where the monitor starts, for the induction
  have hfrom : ∀ pre b, monitorFrom next pre b (tr ++ [(s, l)]) =
      next (pre ++ tr) (monitorFrom next pre b tr) l := by
    induction tr with
    | nil =>
      intro pre b
      rw [List.append_nil]
      rfl
    | cons x tr ih =>
      intro pre b
      rw [List.cons_append, monitorFrom, ih, List.append_assoc]
      rfl
  exact hfrom [] b

namespace Run

variable {step : σ → lab → σ → Prop} {s₀ s s' : σ} {tr tr' : Hist σ lab}

theorem single {l : lab} (h : step s l s') : Run step s [(s, l)] s' := by
  simpa using Run.snoc Run.nil h

theorem trans (h : Run step s₀ tr s) (h' : Run step s tr' s') :
    Run step s₀ (tr ++ tr') s' := by
  induction h' with
  | nil => simpa using h
  | snoc _ hstep ih => simpa [← List.append_assoc] using Run.snoc ih hstep

/-- A property of history and state that holds at the start and is kept by
    every step taken under `cond` holds at the end of every run that meets
    `cond` throughout. -/
theorem hist_invariant {cond : Hist σ lab → σ → lab → Prop} {I : Hist σ lab → σ → Prop}
    (h : Run step s₀ tr s) (hc : Always cond tr) (h0 : I [] s₀)
    (hstep : ∀ tr s l s', I tr s → cond tr s l → step s l s' → I (tr ++ [(s, l)]) s') :
    I tr s := by
  induction h with
  | nil => exact h0
  | snoc _ hs ih =>
    obtain ⟨hc, hl⟩ := always_snoc.mp hc
    exact hstep _ _ _ _ (ih hc) hl hs

/-- An invariant of states, for runs that meet `cond` throughout. -/
theorem invariant {cond : Hist σ lab → σ → lab → Prop} {I : σ → Prop}
    (h : Run step s₀ tr s) (hc : Always cond tr) (h0 : I s₀)
    (hstep : ∀ tr s l s', I s → cond tr s l → step s l s' → I s') : I s :=
  h.hist_invariant (I := fun _ s => I s) hc h0 hstep

/-- Under an invariant that the condition maintains, the steps of a run are all
    good exactly when they all meet the condition. -/
theorem always_iff {asm good cond : Hist σ lab → σ → lab → Prop} {I : Hist σ lab → σ → Prop}
    (h : Run step s₀ tr s) (ha : Always asm tr) (h0 : I [] s₀)
    (hstep : ∀ tr s l s', I tr s → asm tr s l → cond tr s l → step s l s' →
      I (tr ++ [(s, l)]) s')
    (hiff : ∀ tr s l s', I tr s → asm tr s l → step s l s' → (good tr s l ↔ cond tr s l)) :
    Always good tr ↔ Always cond tr := by
  induction h with
  | nil => exact ⟨fun _ => Always.nil, fun _ => Always.nil⟩
  | snoc hr hs ih =>
    obtain ⟨ha, hl⟩ := always_snoc.mp ha
    rw [always_snoc, always_snoc, ih ha]
    -- the steps before met the condition, so the invariant holds at the last one
    refine and_congr_right fun hc => ?_
    have hI := hr.hist_invariant (always_and.mpr ⟨ha, hc⟩) h0
      fun tr s l s' hI hac hs => hstep tr s l s' hI hac.1 hac.2 hs
    exact hiff _ _ _ _ hI hl hs

/-- Under an invariant that makes every step good, the steps of a run are all good. -/
theorem always {asm good : Hist σ lab → σ → lab → Prop} {I : Hist σ lab → σ → Prop}
    (h : Run step s₀ tr s) (ha : Always asm tr) (h0 : I [] s₀)
    (hstep : ∀ tr s l s', I tr s → asm tr s l → step s l s' → I (tr ++ [(s, l)]) s')
    (hgood : ∀ tr s l s', I tr s → asm tr s l → step s l s' → good tr s l) : Always good tr :=
  (h.always_iff ha h0 (fun tr s l s' hI hl _ => hstep tr s l s' hI hl) fun tr s l s' hI hl hs =>
    iff_of_true (hgood tr s l s' hI hl hs) trivial).mpr (always_true tr)

/-- The same for the states of a run: under an invariant that the condition
    maintains, that makes a state good, and that a step which misses the
    condition leaves for a bad state. -/
theorem throughout_iff {asm cond : Hist σ lab → σ → lab → Prop}
    {good I : Hist σ lab → σ → Prop}
    (h : Run step s₀ tr s) (ha : Always asm tr) (h0 : I [] s₀)
    (hstep : ∀ tr s l s', I tr s → asm tr s l → cond tr s l → step s l s' →
      I (tr ++ [(s, l)]) s')
    (hgood : ∀ tr s, I tr s → good tr s)
    (hbad : ∀ tr s l s', I tr s → asm tr s l → step s l s' → good (tr ++ [(s, l)]) s' →
      cond tr s l) :
    Throughout good tr s ↔ Always cond tr := by
  induction h with
  | nil => exact ⟨fun _ => Always.nil, fun _ => ⟨Always.nil, hgood _ _ h0⟩⟩
  | snoc hr hs ih =>
    obtain ⟨ha, hl⟩ := always_snoc.mp ha
    rw [throughout_snoc, always_snoc, ih ha]
    -- the state before the last step was good, so the invariant holds there
    refine and_congr_right fun hc => ?_
    have hI := hr.hist_invariant (always_and.mpr ⟨ha, hc⟩) h0
      fun tr s l s' hI hac hs => hstep tr s l s' hI hac.1 hac.2 hs
    exact ⟨hbad _ _ _ _ hI hl hs, fun hl' => hgood _ _ (hstep _ _ _ _ hI hl hl' hs)⟩

end Run

end Lib
