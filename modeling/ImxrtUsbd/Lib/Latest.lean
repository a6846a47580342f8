/-
  ImxrtUsbd.Lib.Latest

  A value that some events set and others leave alone: `latest_iff` says that
  it is what the latest of them set it to, and `Run.latest` that a part of the
  state is such a value in every run, if every step sets it or leaves it alone.
-/
import ImxrtUsbd.Lib.Run

namespace Lib

variable {α β σ lab : Type} {f : α → Option β} {b v : β} {l : List α} {x : α}

/-- What the latest event to set the value set it to; `b` if none set it. -/
def latest (f : α → Option β) (b : β) (l : List α) : β := l.foldl (fun b x => (f x).getD b) b

theorem latest_snoc (f : α → Option β) (b : β) (l : List α) (x : α) :
    latest f b (l ++ [x]) = (f x).getD (latest f b l) := by
  rw [latest, List.foldl_append, List.foldl_cons, List.foldl_nil, latest]

/-- The value was set and nothing set it since, or nothing ever set it. -/
theorem latest_iff : latest f b l = v ↔
    (∃ pre x post, l = pre ++ x :: post ∧ f x = some v ∧ ∀ y ∈ post, f y = none) ∨
      (b = v ∧ ∀ x ∈ l, f x = none) := by
  induction l using List.reverseRecOn with
  | nil => simp [latest]
  | append_singleton l x ih =>
    rw [latest_snoc]
    cases hx : f x with
    | some w =>
      -- the last event set it
      have hlast : ∀ P : Prop, f x = none → P := fun P h => by rw [hx] at h; cases h
      rw [Option.getD_some]
      constructor
      · rintro rfl
        exact Or.inl ⟨l, x, [], rfl, hx, by simp⟩
      · rintro (⟨pre, y, post, heq, hy, hpost⟩ | ⟨-, hnone⟩)
        · rcases snoc_eq_iff.mp heq with ⟨-, rfl, -⟩ | ⟨mid, rfl, -⟩
          · exact Option.some.inj (hx.symm.trans hy)
          · exact hlast _ (hpost x (by simp))
        · exact hlast _ (hnone x (by simp))
    | none =>
      -- it left the value alone
      rw [Option.getD_none, ih]
      have hall : ∀ {l : List α}, (∀ y ∈ l ++ [x], f y = none) ↔ ∀ y ∈ l, f y = none := by
        intro l
        rw [List.forall_mem_append, List.forall_mem_singleton]
        exact and_iff_left hx
      rw [hall]
      refine or_congr_left ⟨?_, ?_⟩
      · rintro ⟨pre, y, post, rfl, hy, hpost⟩
        exact ⟨pre, y, post ++ [x], by simp, hy, hall.mpr hpost⟩
      · rintro ⟨pre, y, post, heq, hy, hpost⟩
        rcases snoc_eq_iff.mp heq with ⟨-, rfl, -⟩ | ⟨mid, rfl, rfl⟩
        · rw [hx] at hy
          cases hy
        · exact ⟨pre, y, mid, rfl, hy, hall.mp hpost⟩

/-- A part of the state that every step sets or leaves alone. -/
theorem Run.latest {step : σ → lab → σ → Prop} {s₀ s : σ} {tr : Hist σ lab} {I : σ → Prop}
    {get : σ → β} {f : lab → Option β} (h : Run step s₀ tr s) (h0 : I s₀)
    (hkeep : ∀ s l s', I s → step s l s' → I s')
    (hset : ∀ s l s', I s → step s l s' → get s' = (f l).getD (get s)) :
    get s = Lib.latest (fun x => f x.2) (get s₀) tr := by
  induction h with
  | nil => rfl
  | @snoc tr s s' l hr hstep ih =>
    have hI := hr.invariant (I := I) (always_true tr) h0 fun _ s l s' hI _ hs => hkeep s l s' hI hs
    rw [latest_snoc, ← ih]
    exact hset s l s' hI hstep

end Lib
