/-
  ImxrtUsbd.Lib.Mailbox

  A place for one message.  A message can be posted when the place is free, and
  is taken or dropped before the next one; a post that finds it occupied is
  turned away.

  `Mailbox.Run.order`: the messages taken, with the one that still waits, are
  those posted, in the order in which they were posted, but for the dropped
  ones.
-/
import ImxrtUsbd.Lib.Run
import ImxrtUsbd.Lib.Refinement

namespace Lib

/-- What can happen at the place. -/
inductive Mail (μ : Type) where
  | post (m : μ)
  /-- A message is turned away. -/
  | busy
  | take (m : μ)
  /-- Whatever is there is discarded. -/
  | drop
  deriving DecidableEq

namespace Mail

variable {μ : Type}

def posted? : Mail μ → Option μ
  | .post m => some m
  | .busy | .take _ | .drop => none

def taken? : Mail μ → Option μ
  | .take m => some m
  | .post _ | .busy | .drop => none

def isDrop : Mail μ → Bool
  | .drop => true
  | .post _ | .busy | .take _ => false

/-- The messages posted, in order. -/
def posts (ms : List (Mail μ)) : List μ := ms.filterMap posted?

/-- The messages taken, in order. -/
def takes (ms : List (Mail μ)) : List μ := ms.filterMap taken?

/-- How many times something was discarded. -/
def drops (ms : List (Mail μ)) : Nat := ms.countP isDrop

variable (ms : List (Mail μ)) (k : Mail μ)

theorem posts_snoc : posts (ms ++ [k]) = posts ms ++ (posted? k).toList := by
  rw [posts, List.filterMap_append]
  cases k <;> rfl

theorem takes_snoc : takes (ms ++ [k]) = takes ms ++ (taken? k).toList := by
  rw [takes, List.filterMap_append]
  cases k <;> rfl

theorem drops_snoc : drops (ms ++ [k]) = drops ms + if isDrop k then 1 else 0 := by
  rw [drops, List.countP_append]
  cases k <;> rfl

end Mail

/-- The state is the message that waits, if there is one. -/
inductive Mailbox {μ : Type} : Option μ → Mail μ → Option μ → Prop where
  | post (m : μ) : Mailbox none (.post m) (some m)
  | busy (m : μ) : Mailbox (some m) .busy (some m)
  | take (m : μ) : Mailbox (some m) (.take m) none
  | drop (b : Option μ) : Mailbox b .drop none

namespace Mailbox

open Mail

variable {μ : Type} {b : Option μ} {tr : Hist (Option μ) (Mail μ)}

/-- The messages taken and the one that waits were posted in this order, and at
    most one other was posted for every drop. -/
theorem order (h : Run Mailbox none tr b) :
    (takes (marks tr) ++ b.toList).Sublist (posts (marks tr)) ∧
      (posts (marks tr)).length ≤ (takes (marks tr) ++ b.toList).length + drops (marks tr) := by
  induction h with
  | nil => exact ⟨List.Sublist.refl _, Nat.le_refl _⟩
  | @snoc tr b b' l _ hstep ih =>
    obtain ⟨hsub, hlen⟩ := ih
    rw [List.length_append] at hlen
    rw [marks_snoc, posts_snoc, takes_snoc, drops_snoc, List.length_append, List.length_append]
    cases hstep with
    | post m =>
      rw [Option.toList_none, List.append_nil] at hsub
      refine ⟨?_, ?_⟩
      · simpa [taken?, posted?] using hsub.append (List.Sublist.refl [m])
      · simp only [taken?, posted?, isDrop, Option.toList_some, Option.toList_none,
          List.length_append, List.length_cons, List.length_nil] at hlen ⊢
        omega
    | busy m => exact ⟨by simpa [taken?, posted?] using hsub, by simpa [taken?, posted?, isDrop]
        using hlen⟩
    | take m =>
      -- the one that waits is the last one taken
      exact ⟨by simpa [taken?, posted?] using hsub, by simpa [taken?, posted?, isDrop] using hlen⟩
    | drop b =>
      have hleft := (List.sublist_append_left (takes (marks tr)) b.toList).trans hsub
      refine ⟨by simpa [taken?, posted?] using hleft, ?_⟩
      have hone : b.toList.length ≤ 1 := by cases b <;> simp
      simp only [taken?, posted?, isDrop, Option.toList_none, List.length_append,
        List.length_nil, if_true]
      omega

/-- Where nothing is dropped, everything posted is taken, in order, but for the
    one that waits. -/
theorem order_eq (h : Run Mailbox none tr b) (hd : drops (marks tr) = 0) :
    posts (marks tr) = takes (marks tr) ++ b.toList := by
  obtain ⟨hsub, hlen⟩ := order h
  rw [hd, Nat.add_zero] at hlen
  exact (hsub.eq_of_length_le hlen).symm

end Mailbox

end Lib
