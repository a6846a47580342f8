/-
  ImxrtUsbd.Lib.Refinement

  One labelled transition system as another one.  `view` says what a step of
  the first looks like on the second, if it can be seen there at all; `Refines`
  asks that a relation of states is kept, visible steps being steps of the
  second system and the others none.  Then every run is a run
  (`Refines.run`), and what holds in the runs of the second system holds of
  what is seen of the first.
-/
import ImxrtUsbd.Lib.Run

namespace Lib

variable {σ α lab mark : Type}

/-- What is seen of a history. -/
def seen (view : σ → lab → Option mark) (tr : Hist σ lab) : List mark :=
  tr.filterMap fun x => view x.1 x.2

/-- The labels of a history. -/
def marks (tr : Hist σ lab) : List lab := tr.map Prod.snd

theorem seen_snoc (view : σ → lab → Option mark) (tr : Hist σ lab) (s : σ) (l : lab) :
    seen view (tr ++ [(s, l)]) = seen view tr ++ (view s l).toList := by
  rw [seen, List.filterMap_append]
  cases h : view s l <;> simp [seen, h]

theorem marks_snoc (tr : Hist σ lab) (s : σ) (l : lab) :
    marks (tr ++ [(s, l)]) = marks tr ++ [l] := List.map_append

/-- Under `R`, every step taken under `cond` is a step of the other system, or
    none at all. -/
structure Refines (step : σ → lab → σ → Prop) (step' : α → mark → α → Prop)
    (cond : σ → lab → Prop) (view : σ → lab → Option mark) (R : σ → α → Prop) : Prop where
  visible : ∀ {s s' a l k}, R s a → cond s l → step s l s' → view s l = some k →
    ∃ a', step' a k a' ∧ R s' a'
  silent : ∀ {s s' a l}, R s a → cond s l → step s l s' → view s l = none → R s' a

/-- Every run is a run of the other system, over what is seen of it. -/
theorem Refines.run {step : σ → lab → σ → Prop} {step' : α → mark → α → Prop}
    {cond : σ → lab → Prop} {view : σ → lab → Option mark} {R : σ → α → Prop}
    (h : Refines step step' cond view R) {s₀ s : σ} {a₀ : α} {tr : Hist σ lab}
    (hrun : Run step s₀ tr s) (hc : Always (fun _ s l => cond s l) tr) (h₀ : R s₀ a₀) :
    ∃ tr' a, Run step' a₀ tr' a ∧ marks tr' = seen view tr ∧ R s a := by
  induction hrun with
  | nil => exact ⟨[], a₀, .nil, rfl, h₀⟩
  | @snoc tr s s' l _ hstep ih =>
    obtain ⟨hc, hl⟩ := always_snoc.mp hc
    obtain ⟨tr', a, hrun', hmarks, hR⟩ := ih hc
    rw [seen_snoc]
    cases hv : view s l with
    | none =>
      refine ⟨tr', a, hrun', ?_, h.silent hR hl hstep hv⟩
      rw [hmarks, Option.toList_none, List.append_nil]
    | some k =>
      obtain ⟨a', hstep', hR'⟩ := h.visible hR hl hstep hv
      refine ⟨tr' ++ [(a, k)], a', hrun'.snoc hstep', ?_, hR'⟩
      rw [marks_snoc, hmarks, Option.toList_some]

/-! ## Functional abstraction -/

/-- The history, as the other system goes through it. -/
def shadow (abs : σ → α) (view : σ → lab → Option mark) (tr : Hist σ lab) : Hist α mark :=
  tr.filterMap fun x => (view x.1 x.2).map fun k => (abs x.1, k)

theorem shadow_snoc (abs : σ → α) (view : σ → lab → Option mark) (tr : Hist σ lab) (s : σ)
    (l : lab) : shadow abs view (tr ++ [(s, l)]) =
      shadow abs view tr ++ ((view s l).map fun k => (abs s, k)).toList := by
  rw [shadow, List.filterMap_append]
  cases h : view s l <;> simp [shadow, h]

/-- A run, and the run of the other system that it is. -/
theorem Refines.run_shadow {step : σ → lab → σ → Prop} {step' : α → mark → α → Prop}
    {cond : σ → lab → Prop} {view : σ → lab → Option mark} {abs : σ → α} {I : σ → Prop}
    (h : Refines step step' cond view fun s a => a = abs s ∧ I s) {s₀ s : σ} {tr : Hist σ lab}
    (hrun : Run step s₀ tr s) (hc : Always (fun _ s l => cond s l) tr) (h₀ : I s₀) :
    Run step' (abs s₀) (shadow abs view tr) (abs s) ∧ I s := by
  induction hrun with
  | nil => exact ⟨.nil, h₀⟩
  | @snoc tr s s' l _ hstep ih =>
    obtain ⟨hc, hl⟩ := always_snoc.mp hc
    obtain ⟨hrun', hI⟩ := ih hc
    rw [shadow_snoc]
    cases hv : view s l with
    | none =>
      obtain ⟨heq, hI'⟩ := h.silent ⟨rfl, hI⟩ hl hstep hv
      rw [Option.map_none, Option.toList_none, List.append_nil, ← heq]
      exact ⟨hrun', hI'⟩
    | some k =>
      obtain ⟨a', hstep', rfl, hI'⟩ := h.visible ⟨rfl, hI⟩ hl hstep hv
      exact ⟨hrun'.snoc hstep', hI'⟩

/-- What all labels have, all marks have. -/
theorem Always.shadow {abs : σ → α} {view : σ → lab → Option mark} {φ : lab → Prop}
    {ψ : mark → Prop} (h : ∀ s l k, φ l → view s l = some k → ψ k) {tr : Hist σ lab}
    (ha : Always (fun _ _ l => φ l) tr) : Always (fun _ _ k => ψ k) (shadow abs view tr) := by
  intro pre a k post heq
  have hmem : (a, k) ∈ Lib.shadow abs view tr := by
    rw [heq]
    exact List.mem_append_right _ List.mem_cons_self
  obtain ⟨⟨s, l⟩, hx, hk⟩ := List.mem_filterMap.mp hmem
  obtain ⟨k', hv, hk⟩ := Option.map_eq_some_iff.mp hk
  obtain ⟨-, rfl⟩ := Prod.mk.inj hk
  obtain ⟨pre', post', rfl⟩ := List.append_of_mem hx
  exact h s l k' (ha pre' s l post' rfl) hv

end Lib
