/-
  ImxrtUsbd.Lib.Replay

  Finding runs by evaluation.  `perform` carries out one command in a state, if
  that is possible, and `performAll` a list of them; where `perform` is sound
  for a step relation, what `performAll` finds is a run (`performAll_sound`).
-/
import ImxrtUsbd.Lib.Run

namespace Lib

variable {σ lab cmd : Type}

/-- Carry out commands in order. -/
def performAll (perform : σ → cmd → Option (lab × σ)) (s : σ) :
    List cmd → Option (Hist σ lab × σ)
  | [] => some ([], s)
  | c :: cs => do
    let (l, s₁) ← perform s c
    let (tr, s₂) ← performAll perform s₁ cs
    return ((s, l) :: tr, s₂)

section Sound

variable {perform : σ → cmd → Option (lab × σ)} {step : σ → lab → σ → Prop}

theorem performAll_sound (hp : ∀ s c l s', perform s c = some (l, s') → step s l s')
    {s s' : σ} {tr : Hist σ lab} {cs : List cmd} (h : performAll perform s cs = some (tr, s')) :
    Run step s tr s' := by
  induction cs generalizing s tr with
  | nil =>
    obtain ⟨rfl, rfl⟩ := Prod.mk.inj (Option.some.inj h)
    exact .nil
  | cons c cs ih =>
    rw [performAll] at h
    obtain ⟨⟨l, s₁⟩, hl, h⟩ := Option.bind_eq_some_iff.mp h
    obtain ⟨⟨tr₁, s₂⟩, htr, h⟩ := Option.bind_eq_some_iff.mp h
    obtain ⟨rfl, rfl⟩ := Prod.mk.inj (Option.some.inj h)
    exact (Run.single (hp _ _ _ _ hl)).trans (ih htr)

/-- A run with a decidable property. -/
theorem exists_performed (hp : ∀ s c l s', perform s c = some (l, s') → step s l s')
    {p : Hist σ lab → σ → Prop} [∀ tr s, Decidable (p tr s)] (s : σ) (cs : List cmd)
    (h : ((performAll perform s cs).any fun x => decide (p x.1 x.2)) = true) :
    ∃ tr s', Run step s tr s' ∧ p tr s' := by
  obtain ⟨⟨tr, s'⟩, hx, hdec⟩ := (Option.any_eq_true _ _).mp h
  exact ⟨tr, s', performAll_sound hp hx, of_decide_eq_true hdec⟩

/-- A run and one more step. -/
theorem exists_performed_step
    (hp : ∀ s c l s', perform s c = some (l, s') → step s l s')
    {p : Hist σ lab → σ → lab → σ → Prop} [∀ tr s l s', Decidable (p tr s l s')] (s : σ)
    (cs : List cmd) (c : cmd)
    (h : ((performAll perform s cs).any fun x =>
      (perform x.2 c).any fun y => decide (p x.1 x.2 y.1 y.2)) = true) :
    ∃ tr t l s', Run step s tr t ∧ step t l s' ∧ p tr t l s' := by
  obtain ⟨⟨tr, t⟩, hx, hy⟩ := (Option.any_eq_true _ _).mp h
  obtain ⟨⟨l, s'⟩, hl, hdec⟩ := (Option.any_eq_true _ _).mp hy
  exact ⟨tr, t, l, s', performAll_sound hp hx, hp _ _ _ _ hl, of_decide_eq_true hdec⟩

end Sound

end Lib
