/-
  ImxrtUsbd.Lib.Local

  Operations that work on a part of the state.

  - `Places` sees a state place by place; what is the same at every place is
    the same.
  - `Local I D F f`: among states with `I`, the operation `f` changes nothing
    outside `F`, and what it leaves there depends on `F` and `D` only.
  - `Sees I F r`: the value `r` of a state depends on `F` only.

  `Local.comm` says that operations on disjoint parts commute, and
  `Sees.unmoved` that they do not see each other.
-/
import Mathlib

namespace Lib

variable {L S α : Type}

/-- A state seen place by place. -/
structure Places (L S : Type) where
  same : L → S → S → Prop
  equiv : ∀ l, Equivalence (same l)
  ext : ∀ {s s'}, (∀ l, same l s s') → s = s'

variable (P : Places L S)

/-- The states are the same at every place of `F`. -/
def Places.Agree (F : Set L) (s s' : S) : Prop := ∀ l ∈ F, P.same l s s'

/-- An operation that works on `F`, with a look at `D`. -/
structure Local (I : S → Prop) (D F : Set L) (f : S → S) : Prop where
  keeps : ∀ s, I s → I (f s)
  frame : ∀ s, I s → ∀ l ∉ F, P.same l (f s) s
  depends : ∀ s s', I s → I s' → P.Agree (F ∪ D) s s' → P.Agree F (f s) (f s')

/-- A value that depends on `F` only. -/
def Sees (I : S → Prop) (F : Set L) (r : S → α) : Prop :=
  ∀ s s', I s → I s' → P.Agree F s s' → r s = r s'

namespace Places

variable {P} {F G : Set L} {s s' s'' : S}

theorem Agree.symm (h : P.Agree F s s') : P.Agree F s' s := fun l hl => (P.equiv l).symm (h l hl)

theorem Agree.trans (h : P.Agree F s s') (h' : P.Agree F s' s'') : P.Agree F s s'' :=
  fun l hl => (P.equiv l).trans (h l hl) (h' l hl)

theorem Agree.union (h : P.Agree F s s') (h' : P.Agree G s s') : P.Agree (F ∪ G) s s' :=
  fun l hl => hl.elim (h l) (h' l)

end Places

section Rules

variable {P} {I : S → Prop} {D F G : Set L} {f g : S → S}

/-- An operation leaves what is outside its part. -/
theorem Local.agree (hf : Local P I D F f) (hG : Disjoint F G) {s : S} (hs : I s) :
    P.Agree G (f s) s :=
  fun l hl => hf.frame s hs l fun hF => Set.disjoint_left.mp hG hF hl

theorem Local.id : Local P I D F fun s => s where
  keeps := fun _ hs => hs
  frame := fun s _ l _ => (P.equiv l).refl s
  depends := fun _ _ _ _ h l hl => h l (Or.inl hl)

theorem Local.comp (hg : Local P I D F g) (hf : Local P I D F f) (hD : Disjoint F D) :
    Local P I D F fun s => g (f s) where
  keeps := fun s hs => hg.keeps _ (hf.keeps s hs)
  frame := fun s hs l hl =>
    (P.equiv l).trans (hg.frame _ (hf.keeps s hs) l hl) (hf.frame s hs l hl)
  depends := by
    intro s s' hs hs' h
    refine hg.depends _ _ (hf.keeps s hs) (hf.keeps s' hs') ?_
    -- `D` is as it was, on both sides
    have hDs := (hf.agree hD hs).trans (Places.Agree.trans (fun l hl => h l (Or.inr hl))
      (hf.agree hD hs').symm)
    exact (hf.depends s s' hs hs' h).union hDs

theorem Local.ite {c : S → Prop} [DecidablePred c] (hc : Sees P I (F ∪ D) c)
    (hf : Local P I D F f) (hg : Local P I D F g) :
    Local P I D F fun s => if c s then f s else g s where
  keeps := by
    intro s hs
    split
    · exact hf.keeps s hs
    · exact hg.keeps s hs
  frame := by
    intro s hs l hl
    split
    · exact hf.frame s hs l hl
    · exact hg.frame s hs l hl
  depends := by
    intro s s' hs hs' h
    have hcc := hc s s' hs hs' h
    by_cases hcs : c s
    · rw [if_pos hcs, if_pos (hcc ▸ hcs)]
      exact hf.depends s s' hs hs' h
    · rw [if_neg hcs, if_neg (hcc ▸ hcs)]
      exact hg.depends s s' hs hs' h

/-- A value does not change when another part does. -/
theorem Sees.unmoved {r : S → α} (hr : Sees P I F r) (hg : Local P I D G g) (hGF : Disjoint G F)
    {s : S} (hs : I s) : r (g s) = r s :=
  hr _ _ (hg.keeps s hs) hs (hg.agree hGF hs)

/-- Operations on disjoint parts commute. -/
theorem Local.comm (hf : Local P I D F f) (hg : Local P I D G g) (hFG : Disjoint F G)
    (hFD : Disjoint F D) (hGD : Disjoint G D) {s : S} (hs : I s) : f (g s) = g (f s) := by
  apply P.ext
  intro l
  by_cases hF : l ∈ F
  · -- in the part of `f`, both are what `f` makes of `s`
    have hgs := (hg.agree hFG.symm hs).union (hg.agree hGD hs)
    have hdep := hf.depends _ _ (hg.keeps s hs) hs hgs l hF
    have hframe := hg.frame (f s) (hf.keeps s hs) l (Set.disjoint_left.mp hFG hF)
    exact (P.equiv l).trans hdep ((P.equiv l).symm hframe)
  · have hframe := hf.frame (g s) (hg.keeps s hs) l hF
    by_cases hG : l ∈ G
    · have hfs := (hf.agree hFG hs).union (hf.agree hFD hs)
      have hdep := hg.depends _ _ (hf.keeps s hs) hs hfs l hG
      exact (P.equiv l).trans hframe ((P.equiv l).symm hdep)
    · have hgf := (P.equiv l).trans (hg.frame (f s) (hf.keeps s hs) l hG) (hf.frame s hs l hF)
      exact (P.equiv l).trans hframe ((P.equiv l).trans (hg.frame s hs l hG)
        ((P.equiv l).symm hgf))

end Rules

end Lib
