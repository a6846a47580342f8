/-
  ImxrtUsbd.InCompletions

  From the completions of IN transfers to the polls that report them, with the
  controller at work between any two accesses of a poll.

  A completion is outstanding from the moment it happens to the moment a poll
  acknowledges it (`outstanding`), and unread until a poll or a read of the IN
  endpoint does (`unread`).  `Tracked` is the invariant: `ENDPTCOMPLETE` holds
  exactly what is unread, and the interrupt flag is set for all of it, but for
  what the poll in progress still answers for.  `in_completions_reported`
  concludes that polls lose no completion that is unread, and never invent one.
-/
import ImxrtUsbd.BusySystem
import ImxrtUsbd.Moves
import ImxrtUsbd.OutEndpoint

namespace ImxrtUsbd

open Lib

/-! ## Completions and reports -/

/-- The IN transfers that completed and were not acknowledged by a poll, after
    one more moment. -/
def outstandingNext (p : Fin 8 → Bool) : Moment HwEvent Seen → Fin 8 → Bool
  | .event (.inDone n _) => Function.update p n true
  | .access (.wrote .ENDPTCOMPLETE v) => fun i => p i && !v.getLsbD (EpId.bit ⟨.In, i⟩)
  | .event _ | .access _ => p

/-- The same, after what happened during a poll. -/
def outstandingAfter (p : Fin 8 → Bool) (ms : Moments) : Fin 8 → Bool := ms.foldl outstandingNext p

/-- What a step means to them: a completion, a poll, or nothing. -/
def outstandingStep (p : Fin 8 → Bool) : BusyLabel → Fin 8 → Bool
  | .step (.hw event) => outstandingNext p (.event event)
  | .step (.call _ _ _) => p
  | .busy _ _ ms => outstandingAfter p ms

/-- The IN transfers that completed and that no poll has acknowledged. -/
def outstanding (tr : BusyTrace) : Fin 8 → Bool :=
  tr.foldl (fun p x => outstandingStep p x.2) fun _ => false

theorem outstanding_snoc (tr : BusyTrace) (s : Sys) (l : BusyLabel) :
    outstanding (tr ++ [(s, l)]) = outstandingStep (outstanding tr) l := by
  rw [outstanding, List.foldl_append]
  rfl

/-- A read of the IN endpoint returns; it acknowledges the completion. -/
def Label.ReadsIn (i : Fin 8) : Label → Prop
  | .call (.read addr _) (.read (.ok _)) _ => addr.index ≠ 0 ∧ addr = EpId.address ⟨.In, i⟩
  | _ => False

theorem Label.readsIn_iff (i : Fin 8) (l : Label) :
    l.ReadsIn i ↔ i ≠ 0 ∧ (l.returned ⟨.In, i⟩).isSome = true := by
  have hindex : (EpId.address ⟨.In, i⟩).index ≠ 0 ↔ i ≠ 0 := by
    rw [EpId.address_index]
    exact not_congr Fin.val_eq_zero_iff
  unfold ReadsIn returned
  split
  · rename_i addr buf x obs
    show _ ↔ i ≠ 0 ∧
      (if addr = EpId.address ⟨.In, i⟩ then some (buf, x) else none).isSome = true
    by_cases ha : addr = EpId.address ⟨.In, i⟩
    · rw [if_pos ha, ha, hindex]
      simp
    · simp [ha]
  · simp

instance (i : Fin 8) (l : Label) : Decidable (l.ReadsIn i) :=
  decidable_of_iff _ (l.readsIn_iff i).symm

/-- The same, where such a read counts too. -/
def unreadStep (p : Fin 8 → Bool) : BusyLabel → Fin 8 → Bool
  | .step (.call c r obs) => fun i => p i && !decide ((Label.call c r obs).ReadsIn i)
  | l => outstandingStep p l

/-- The IN transfers that completed, and that neither a poll has acknowledged nor a
    read of the endpoint that returned. -/
def unread (tr : BusyTrace) : Fin 8 → Bool :=
  tr.foldl (fun p x => unreadStep p x.2) fun _ => false

theorem unread_snoc (tr : BusyTrace) (s : Sys) (l : BusyLabel) :
    unread (tr ++ [(s, l)]) = unreadStep (unread tr) l := by
  rw [unread, List.foldl_append]
  rfl

section Mono

variable {p q : Fin 8 → Bool}

theorem outstandingNext_mono (h : ∀ i, p i = true → q i = true) (m : Moment HwEvent Seen)
    (i : Fin 8) (hi : outstandingNext p m i = true) : outstandingNext q m i = true := by
  unfold outstandingNext at hi ⊢
  split at hi
  · rename_i n _
    by_cases hn : i = n
    · rw [hn, Function.update_self]
    · rw [Function.update_of_ne hn] at hi ⊢
      exact h i hi
  · rw [Bool.and_eq_true] at hi ⊢
    exact ⟨h i hi.1, hi.2⟩
  · exact h i hi
  · exact h i hi

theorem outstandingAfter_mono (h : ∀ i, p i = true → q i = true) (ms : Moments) (i : Fin 8)
    (hi : outstandingAfter p ms i = true) : outstandingAfter q ms i = true := by
  unfold outstandingAfter at hi ⊢
  induction ms generalizing p q with
  | nil => exact h i hi
  | cons m ms ih => exact ih (outstandingNext_mono h m) hi

/-- What is unread is outstanding. -/
theorem outstanding_of_unread {tr : BusyTrace} {i : Fin 8} (h : unread tr i = true) :
    outstanding tr i = true := by
  induction tr using List.reverseRecOn generalizing i with
  | nil => exact h
  | append_singleton tr x ih =>
    obtain ⟨s, l⟩ := x
    rw [unread_snoc] at h
    rw [outstanding_snoc]
    cases l with
    | step l =>
      cases l with
      | hw ev => exact outstandingNext_mono (fun _ => ih) _ i h
      | call c r obs =>
        have h : (unread tr i && !decide ((Label.call c r obs).ReadsIn i)) = true := h
        rw [Bool.and_eq_true] at h
        exact ih h.1
    | busy c r ms => exact outstandingAfter_mono (fun _ => ih) ms i h

end Mono

/-- Bit `i` of `ep_in_complete`. -/
def PollResult.inBit (i : Fin 8) : PollResult → Bool
  | .Data _ epInComplete _ => epInComplete.getLsbD i.val
  | .None | .Reset => false

/-- A poll acknowledges endpoint `i` at this moment. -/
def Seen.acks (i : Fin 8) : Seen → Bool
  | .wrote .ENDPTCOMPLETE v => v.getLsbD (EpId.bit ⟨.In, i⟩)
  | .wrote _ _ | .loadedSetup _ _ => false

theorem Seen.acks_wrote (i : Fin 8) (v : Word) :
    (Seen.wrote .ENDPTCOMPLETE v).acks i = v.getLsbD (EpId.bit ⟨.In, i⟩) := rfl

/-- What a poll reports when `p` was unread at its beginning, and `q` outstanding. -/
structure ReportsExactly (p q : Fin 8 → Bool) (r : PollResult) (ms : Moments) : Prop where
  /-- It reports everything that was unread when it began. -/
  complete : ∀ i, p i = true → r.inBit i = true
  /-- It reports what it acknowledges, -/
  acked : ∀ i o, .access o ∈ ms → o.acks i = true → r.inBit i = true
  /-- and it acknowledges what it reports, at a moment when that is outstanding. -/
  sound : ∀ i, r.inBit i = true → ∃ pre o post, ms = pre ++ .access o :: post ∧
    o.acks i = true ∧ outstandingAfter q pre i = true

/-! ## Events -/

namespace HwEvent

variable {s : Sys}

/-- The event completes a transfer of the endpoint. -/
def completes (e : EpId) : HwEvent → Bool
  | .outDone n _ => e == ⟨.Out, n⟩
  | .inDone n _ => e == ⟨.In, n⟩
  | .error _ _ _ _ | .setup _ | .nak _ | .resetBegin | .resetEnd => false

end HwEvent

theorem Sys.getLsbD_raise (s : Sys) (r : Reg) (m : Word) (j : Nat) :
    ((s.raise r m).reg r).getLsbD j = ((s.reg r).getLsbD j || m.getLsbD j) := by
  rw [raise, reg_setReg_self, BitVec.getLsbD_or]

theorem Sys.reg_raise_of_ne (s : Sys) {r r' : Reg} (m : Word) (h : r' ≠ r) :
    (s.raise r m).reg r' = s.reg r' :=
  reg_setReg_of_ne s _ h

namespace HwEvent

variable {s : Sys}

theorem completed_apply (ev : HwEvent) (e : EpId) :
    (ev.apply s).completed e = (s.completed e || ev.completes e) := by
  have hraise : ∀ (t : Sys) (f : EpId) (m : Word), t.reg .ENDPTCOMPLETE = s.reg .ENDPTCOMPLETE →
      ((t.raise .ENDPTCOMPLETE f.mask).raise .USBSTS m).completed e =
        (s.completed e || e == f) := by
    intro t f m ht
    have hbit : decide (e.bit = f.bit) = (e == f) := decide_eq_decide.mpr EpId.bit_inj
    rw [Sys.completed, Sys.reg_raise_of_ne _ _ (by simp), Sys.getLsbD_raise, ht,
      EpId.getLsbD_mask, hbit, Sys.completed]
  cases ev with
  | outDone n data => exact hraise _ _ _ rfl
  | inDone n k => exact hraise _ _ _ rfl
  | error | setup | nak | resetBegin | resetEnd => exact (Bool.or_false _).symm

/-- Events never take back the interrupt, and a completion raises it. -/
theorem usbInterrupt_apply (ev : HwEvent)
    (h : s.usbInterrupt = true ∨ ∃ e, ev.completes e = true) :
    (ev.apply s).usbInterrupt = true := by
  have hui : ∀ m : Word, m.getLsbD 0 = true → ∀ t : Sys,
      (t.raise .USBSTS m).usbInterrupt = true := by
    intro m hm t
    rw [Sys.usbInterrupt, Sys.getLsbD_raise, hm, Bool.or_true]
  cases ev with
  | outDone | inDone | error | setup => exact hui _ (by decide) _
  | nak | resetEnd => exact h.resolve_right (by simp [completes])
  | resetBegin =>
    have h' := h.resolve_right (by simp [completes])
    show ((s.raise .USBSTS _).reg .USBSTS).getLsbD 0 = true
    rw [Sys.getLsbD_raise, show (s.reg .USBSTS).getLsbD 0 = true from h', Bool.true_or]

/-- Only a bus reset raises the reset interrupt. -/
theorem resetReceived_apply {ev : HwEvent} (hev : ev ≠ .resetBegin) :
    (ev.apply s).resetReceived = s.resetReceived := by
  have huri : ∀ m : Word, m.getLsbD 6 = false → ∀ t : Sys, t.reg .USBSTS = s.reg .USBSTS →
      (t.raise .USBSTS m).resetReceived = s.resetReceived := by
    intro m hm t ht
    rw [Sys.resetReceived, Sys.getLsbD_raise, hm, Bool.or_false, ht, Sys.resetReceived]
  cases ev with
  | outDone | inDone | error | setup => exact huri _ (by decide) _ rfl
  | nak | resetEnd => rfl
  | resetBegin => exact absurd rfl hev

end HwEvent

/-! ## The invariant -/

/-- `ENDPTCOMPLETE` holds what is unread, and the interrupt flag is set for it,
    except for the endpoints in `m`, which the poll in progress answers for. -/
structure Tracked (m p : Fin 8 → Bool) (s : Sys) : Prop where
  wf : s.WF
  noReset : s.resetReceived = false
  allocated : ∀ e, s.completed e = true → (s.ep e).isSome = true
  outstanding : ∀ i, p i = s.completed ⟨.In, i⟩
  interrupt : ∀ i, s.completed ⟨.In, i⟩ = true → m i = true ∨ s.usbInterrupt = true

namespace Tracked

variable {m p : Fin 8 → Bool} {s : Sys}

theorem event (h : Tracked m p s) {ev : HwEvent} (hev : ev.Enabled s) (hr : ev ≠ .resetBegin) :
    Tracked m (outstandingNext p (.event ev)) (ev.apply s) where
  wf := (HwEvent.effect h.wf hev).wf
  noReset := (HwEvent.resetReceived_apply hr).trans h.noReset
  allocated := by
    intro e he
    rw [(HwEvent.effect h.wf hev).frame.ep]
    rw [HwEvent.completed_apply, Bool.or_eq_true] at he
    rcases he with he | he
    · exact h.allocated e he
    · -- what completes was primed
      apply h.wf.primed
      cases ev with
      | outDone n data =>
        rw [show e = ⟨.Out, n⟩ by simpa [HwEvent.completes] using he]
        exact hev.1
      | inDone n k =>
        rw [show e = ⟨.In, n⟩ by simpa [HwEvent.completes] using he]
        exact hev.1
      | error | setup | nak | resetBegin | resetEnd => simp [HwEvent.completes] at he
  outstanding := by
    intro i
    rw [HwEvent.completed_apply, ← h.outstanding i]
    cases ev with
    | inDone n k =>
      by_cases hi : i = n
      · subst hi
        simp [outstandingNext, HwEvent.completes]
      · simp [outstandingNext, HwEvent.completes, hi]
    | outDone | error | setup | nak | resetBegin | resetEnd =>
      simp [outstandingNext, HwEvent.completes]
  interrupt := by
    intro i hi
    rw [HwEvent.completed_apply, Bool.or_eq_true] at hi
    rcases hi with hi | hi
    · exact (h.interrupt i hi).imp_right fun hu => HwEvent.usbInterrupt_apply ev (Or.inl hu)
    · exact Or.inr (HwEvent.usbInterrupt_apply ev (Or.inr ⟨_, hi⟩))

/-- The poll clears the interrupt, and answers for everything from here on. -/
theorem clearInterrupt (h : Tracked m p s) (v : Word) (hv : v.getLsbD 6 = false) :
    Tracked (fun _ => true) p (s.lower .USBSTS v) where
  wf := (Effect.lower h.wf v (by simp)).wf
  noReset := by
    have hbit : (s.reg .USBSTS).getLsbD 6 = true → (v.getLsbD 6 = true ↔ False) :=
      fun _ => iff_of_false (by rw [hv]; simp) id
    rw [Sys.resetReceived, Sys.getLsbD_lower _ _ _ False hbit]
    exact (Bool.and_true _).trans h.noReset
  allocated := h.allocated
  outstanding := h.outstanding
  interrupt := fun _ _ => Or.inl rfl

theorem setEpOut (h : Tracked m p s) (v : BitVec 16) :
    Tracked m p { s with driver := { s.driver with epOut := v } } where
  wf := (Effect.setEpOut h.wf v).wf
  noReset := h.noReset
  allocated := h.allocated
  outstanding := h.outstanding
  interrupt := h.interrupt

/-- The poll has seen what is complete, and answers for no more than that. -/
theorem seen (h : Tracked m p s) : Tracked (fun i => s.completed ⟨.In, i⟩) p s where
  wf := h.wf
  noReset := h.noReset
  allocated := h.allocated
  outstanding := h.outstanding
  interrupt := fun _ hi => Or.inl hi

/-- The poll acknowledges what it answers for. -/
theorem acknowledge (h : Tracked m p s) {v : Word}
    (hv : ∀ i, v.getLsbD (EpId.bit ⟨.In, i⟩) = m i) :
    Tracked (fun _ => false) (outstandingNext p (.access (.wrote .ENDPTCOMPLETE v)))
      (s.lower .ENDPTCOMPLETE v) := by
  have hcomp : ∀ e, (s.lower .ENDPTCOMPLETE v).completed e =
      (s.completed e && !v.getLsbD e.bit) := by
    intro e
    rw [Sys.completed, Sys.getLsbD_lower _ _ _ (v.getLsbD e.bit = true) fun _ => Iff.rfl,
      Bool.decide_eq_true, Sys.completed]
  refine ⟨?_, h.noReset, fun e he => ?_, fun i => ?_, fun i hi => ?_⟩
  · exact (Effect.lowerComplete h.wf v (fun e => v.getLsbD e.bit = true) fun _ _ => Iff.rfl).wf
  · rw [hcomp, Bool.and_eq_true] at he
    exact h.allocated e he.1
  · show (p i && !v.getLsbD _) = _
    rw [hcomp, h.outstanding]
  · rw [hcomp, Bool.and_eq_true, hv, Bool.not_eq_true'] at hi
    refine Or.inr ((h.interrupt i hi.1).resolve_left ?_)
    rw [hi.2]
    simp

end Tracked

/-! ## A poll and its interruptions -/

/-- The transmit half of a register, endpoint by endpoint. -/
theorem getLsbD_txHalf_get (c : Word) (i : Fin 8) :
    ((txHalf.get c).setWidth 16).getLsbD i.val = c.getLsbD (EpId.bit ⟨.In, i⟩) := by
  have h8 : i.val < txHalf.width := i.isLt
  have h16 : i.val < 16 := by
    have := i.isLt
    omega
  rw [BitVec.getLsbD_setWidth, Field.getLsbD_get, decide_eq_true h16, decide_eq_true h8,
    Bool.true_and, Bool.true_and]
  congr 1
  show 16 + i.val = i.val + 16 * 1
  omega

theorem getLsbD_txHalf_put (c : Word) (i : Fin 8) :
    (txHalf.put (txHalf.get c)).getLsbD (EpId.bit ⟨.In, i⟩) = c.getLsbD (EpId.bit ⟨.In, i⟩) := by
  have hbit : EpId.bit ⟨.In, i⟩ = 16 + i.val := Nat.add_comm _ _
  have hi := i.isLt
  have hoff : txHalf.offset + (16 + i.val - txHalf.offset) = 16 + i.val := by
    show 16 + (16 + i.val - 16) = _
    omega
  rw [hbit, Field.getLsbD_put _ _ (by omega), Field.getLsbD_get, hoff]
  have hhas : txHalf.Has (16 + i.val) := ⟨by show 16 ≤ _; omega, by show _ < 16 + 8; omega⟩
  have hw : 16 + i.val - txHalf.offset < txHalf.width := by
    show 16 + i.val - 16 < 8
    omega
  rw [decide_eq_true hhas, decide_eq_true hw, Bool.true_and, Bool.true_and]

/-- No bus reset begins. -/
def Moments.NoReset (ms : Moments) : Prop := ∀ ev, .event ev ∈ ms → ev ≠ .resetBegin

/-- Events leave the driver's fields alone, and keep the invariant, whatever it is
    relative to. -/
structure TracksEvents (s : Sys) (ms : Moments) (s' : Sys) : Prop where
  driver : s'.driver = s.driver
  tracked : Moments.NoReset ms → ∀ m p, Tracked m p s → Tracked m (outstandingAfter p ms) s'

theorem tracksEvents_composes : Composes TracksEvents where
  refl := fun _ => ⟨rfl, fun _ _ _ h => h⟩
  trans := by
    intro s s' s'' o o' h h'
    refine ⟨h'.driver.trans h.driver, fun hr m p ht => ?_⟩
    have ht' := h.tracked (fun ev hev => hr ev (List.mem_append_left _ hev)) m p ht
    rw [outstandingAfter, List.foldl_append]
    exact h'.tracked (fun ev hev => hr ev (List.mem_append_right _ hev)) m _ ht'

theorem tracksEvents_occur (ev : HwEvent) (s s' : Sys) (h : ev.occur s = some s') :
    TracksEvents s [.event ev] s' := by
  obtain ⟨hev, rfl⟩ := HwEvent.occur_eq_some h
  refine ⟨?_, fun hr m p ht => ht.event hev (hr ev (List.mem_singleton.mpr rfl))⟩
  cases ev <;> rfl

/-- Events add to what is outstanding. -/
theorem outstandingAfter_events {p : Fin 8 → Bool} {i : Fin 8} (es : List HwEvent)
    (h : p i = true) : outstandingAfter p (es.map .event) i = true := by
  unfold outstandingAfter
  induction es generalizing p with
  | nil => exact h
  | cons ev es ih =>
    rw [List.map_cons, List.foldl_cons]
    refine ih ?_
    cases ev with
    | inDone n k =>
      by_cases hi : i = n
      · subst hi
        exact Function.update_self _ _ _
      · exact (Function.update_of_ne hi _ _).trans h
    | outDone | error | setup | nak | resetBegin | resetEnd => exact h

section Poll

variable {α β : Type} {s s' : Sys} {n : Nat} {σ τ : List (List HwEvent)} {ms : Moments}

/-- The accesses of a poll, one by one. -/
theorem poll_prog : Call.poll.prog =
    (Prog.access (.readReg .USBSTS) >>= fun usbsts =>
      if usbsts &&& USBSTS.URI.mask 32 != 0 then
        Prog.access (.writeReg .USBSTS (USBSTS.URI.put 1)) >>= fun _ => pure (Ret.poll .Reset)
      else if usbsts &&& USBSTS.UI.mask 32 != 0 then
        Prog.access (.writeReg .USBSTS (USBSTS.UI.put 1)) >>= fun _ =>
        Prog.access (.readReg .ENDPTCOMPLETE) >>= fun out =>
        Prog.access .getDriver >>= fun d =>
        Prog.access (.setDriver { d with epOut := (rxHalf.get out).setWidth 16 }) >>= fun _ =>
        Prog.access (.readReg .ENDPTCOMPLETE) >>= fun complete =>
        Prog.access (.writeReg .ENDPTCOMPLETE (txHalf.put (txHalf.get complete))) >>= fun _ =>
        Prog.access (.readReg .ENDPTSETUPSTAT) >>= fun setup =>
        pure (Ret.poll (.Data ((rxHalf.get out).setWidth 16) ((txHalf.get complete).setWidth 16)
          (setup.setWidth 16)))
      else pure (Ret.poll .None)) := by
  refine congrArg (Prog.op (Access.readReg .USBSTS)) (funext fun usbsts => ?_)
  show Prog.bind (if _ then _ else _) _ = if _ then _ else _
  split
  · rfl
  · show Prog.bind (if _ then _ else _) _ = if _ then _ else _
    split <;> rfl

/-- What happens during a poll that finds the interrupt set. -/
theorem poll_moments (a b c d e f g h : List HwEvent) (w k : Seen) :
    a.map Moment.event ++ (b.map Moment.event ++ (Moment.access w ::
      (c.map Moment.event ++ (d.map Moment.event ++ (e.map Moment.event ++
        (f.map Moment.event ++ (g.map Moment.event ++ (Moment.access k ::
          (h.map Moment.event ++ []))))))))) =
    (a ++ b).map Moment.event ++ (Moment.access w ::
      ((c ++ d ++ e ++ f ++ g).map Moment.event ++ (Moment.access k :: h.map Moment.event))) := by
  simp

/-- Its acknowledgement comes after the rest. -/
theorem moments_access (a c h : List HwEvent) (w k : Seen) :
    a.map Moment.event ++ (Moment.access w ::
      (c.map Moment.event ++ (Moment.access k :: h.map Moment.event))) =
    (a.map Moment.event ++ (Moment.access w :: c.map Moment.event)) ++
      Moment.access k :: h.map Moment.event := by
  simp

/-- A poll under any schedule reports exactly, and leaves nothing unanswered. -/
theorem busy_poll {p : Fin 8 → Bool} {r : Ret} (h : Tracked (fun _ => false) p s)
    (hr : Moments.NoReset ms)
    (hrun : exec usbBusy n Call.poll.prog (s, σ) = ⟨.ok r, (s', τ), ms⟩) :
    Tracked (fun _ => false) (outstandingAfter p ms) s' ∧
      ∃ res, r = .poll res ∧ ReportsExactly p p res ms := by
  have huri : ∀ t : Sys, (t.reg .USBSTS &&& USBSTS.URI.mask 32 != 0) = t.resetReceived :=
    fun t => Field.and_bit_ne_zero _ (i := 6) (by decide)
  have hui : ∀ t : Sys, (t.reg .USBSTS &&& USBSTS.UI.mask 32 != 0) = t.usbInterrupt :=
    fun t => Field.and_bit_ne_zero _ (i := 0) (by decide)
  have hR := tracksEvents_composes
  have hocc := tracksEvents_occur
  rw [poll_prog] at hrun
  -- the interrupt flags are read
  obtain ⟨s₁, es₁, σ₁, ms₁, hev₁, rfl, hrun₁⟩ := busy_read hR hocc hrun
  have h₁ := hev₁.tracked (fun ev hev => hr ev (List.mem_append_left _ hev)) _ _ h
  have hno : ¬ (s₁.reg .USBSTS &&& USBSTS.URI.mask 32 != 0) = true := by
    rw [huri, h₁.noReset]
    simp
  rw [if_neg hno] at hrun₁
  split at hrun₁
  · -- the interrupt is cleared
    obtain ⟨s₂, es₂, σ₂, ms₂, hev₂, rfl, hrun₂⟩ := busy_write hR hocc hrun₁
    have h₂ := (hev₂.tracked (fun ev hev => hr ev (by simp_all)) _ _ h₁).clearInterrupt
      (USBSTS.UI.put 1) (by decide)
    -- OUT completions are copied
    obtain ⟨s₃, es₃, σ₃, ms₃, hev₃, rfl, hrun₃⟩ := busy_read hR hocc hrun₂
    have h₃ := hev₃.tracked (fun ev hev => hr ev (by simp_all)) _ _ h₂
    obtain ⟨s₄, es₄, σ₄, ms₄, hev₄, rfl, hrun₄⟩ := busy_getDriver hR hocc hrun₃
    have h₄ := hev₄.tracked (fun ev hev => hr ev (by simp_all)) _ _ h₃
    obtain ⟨s₅, es₅, σ₅, ms₅, hev₅, rfl, hrun₅⟩ := busy_setDriver hR hocc hrun₄
    have h₅ := (hev₅.tracked (fun ev hev => hr ev (by simp_all)) _ _ h₄).setEpOut
      ((rxHalf.get (s₃.reg .ENDPTCOMPLETE)).setWidth 16)
    rw [hev₅.driver] at h₅
    -- IN completions are read: the poll answers for these
    obtain ⟨s₆, es₆, σ₆, ms₆, hev₆, rfl, hrun₆⟩ := busy_read hR hocc hrun₅
    have h₆ := (hev₆.tracked (fun ev hev => hr ev (by simp_all)) _ _ h₅).seen
    -- and acknowledged
    obtain ⟨s₇, es₇, σ₇, ms₇, hev₇, rfl, hrun₇⟩ := busy_write hR hocc hrun₆
    have h₇ := hev₇.tracked (fun ev hev => hr ev (by simp_all)) _ _ h₆
    have h₈ := h₇.acknowledge (getLsbD_txHalf_put (s₆.reg .ENDPTCOMPLETE))
    obtain ⟨s₈, es₈, σ₈, ms₈, hev₈, rfl, hrun₈⟩ := busy_read hR hocc hrun₇
    have h₉ := hev₈.tracked (fun ev hev => hr ev (by simp_all)) _ _ h₈
    rw [exec_pure] at hrun₈
    obtain ⟨hres, hpost, rfl⟩ := Out.mk.inj hrun₈
    obtain ⟨rfl, -⟩ := Prod.mk.inj hpost
    rw [poll_moments]
    have hout : ∀ i, (PollResult.Data ((rxHalf.get (s₃.reg .ENDPTCOMPLETE)).setWidth 16)
        ((txHalf.get (s₆.reg .ENDPTCOMPLETE)).setWidth 16)
        ((s₈.reg .ENDPTSETUPSTAT).setWidth 16)).inBit i = s₆.completed ⟨.In, i⟩ :=
      fun i => getLsbD_txHalf_get _ i
    obtain rfl := Res.ok.inj hres
    constructor
    · simpa [outstandingAfter, List.foldl_append, outstandingNext] using h₉
    refine ⟨_, rfl, ?_⟩
    constructor
    · intro i hi
      -- completions before the registers are read only add up
      rw [hout, ← h₆.outstanding]
      have h12 := outstandingAfter_events es₂ (outstandingAfter_events es₁ hi)
      have h34 := outstandingAfter_events es₄ (outstandingAfter_events es₃ h12)
      exact outstandingAfter_events es₆ (outstandingAfter_events es₅ h34)
    · intro i o ho hack
      have ho : o = .wrote .USBSTS (USBSTS.UI.put 1) ∨
          o = .wrote .ENDPTCOMPLETE (txHalf.put (txHalf.get (s₆.reg .ENDPTCOMPLETE))) := by
        simpa using ho
      rcases ho with rfl | rfl
      · simp [Seen.acks] at hack
      · rw [Seen.acks_wrote, getLsbD_txHalf_put] at hack
        rw [hout]
        exact hack
    · intro i hi
      -- what was read is still outstanding when it is acknowledged
      rw [hout, ← h₆.outstanding] at hi
      have hi₇ := outstandingAfter_events es₇ hi
      have hack : (Seen.wrote .ENDPTCOMPLETE
          (txHalf.put (txHalf.get (s₆.reg .ENDPTCOMPLETE)))).acks i = true := by
        rw [Seen.acks_wrote, getLsbD_txHalf_put]
        exact (h₆.outstanding i).symm.trans hi
      refine ⟨_, _, _, moments_access .., hack, ?_⟩
      simpa [outstandingAfter, List.foldl_append, outstandingNext] using hi₇
  · rename_i hu
    rw [hui] at hu
    rw [exec_pure] at hrun₁
    obtain ⟨hres, hpost, rfl⟩ := Out.mk.inj hrun₁
    obtain ⟨rfl, -⟩ := Prod.mk.inj hpost
    rw [List.append_nil]
    refine ⟨h₁, ?_⟩
    refine ⟨_, (Res.ok.inj hres).symm, ?_⟩
    refine ⟨fun i hi => ?_, fun i o ho => ?_, ?_⟩
    · -- nothing is complete, so nothing was outstanding
      have hi₁ := outstandingAfter_events es₁ hi
      rw [h₁.outstanding] at hi₁
      exact absurd ((h₁.interrupt i hi₁).resolve_left (by simp)) hu
    · simp at ho
    · simp [PollResult.inBit]

end Poll

/-! ## The other calls -/

/-- Completion bits only fall. -/
def CompletionsFall (s : Sys) (_ : List Obs) (s' : Sys) : Prop :=
  ∀ j, (s'.reg .ENDPTCOMPLETE).getLsbD j = true → (s.reg .ENDPTCOMPLETE).getLsbD j = true

theorem completionsFall_composes : Composes CompletionsFall where
  refl := fun _ _ h => h
  trans := fun h h' j hj => h j (h' j hj)

/-- No driver code raises a completion bit. -/
theorem completionsFall {α : Type} (p : UsbM α) : Keeps usb CompletionsFall p := by
  refine .of_act completionsFall_composes (fun β a s => ?_) p
  cases a with
  | writeReg r v =>
    intro j hj
    have hj' : ((s.writeReg r v).reg .ENDPTCOMPLETE).getLsbD j = true := hj
    cases r with
    | ENDPTCOMPLETE =>
      rw [Sys.writeReg_w1c _ _ (by simp), Sys.getLsbD_lower _ _ _ (v.getLsbD j = true)
        fun _ => Iff.rfl, Bool.and_eq_true] at hj'
      exact hj'.1
    | USBCMD =>
      unfold Sys.writeReg at hj'
      dsimp only at hj'
      split at hj'
      · -- a controller reset clears them all
        have h0 : (0 : Word).getLsbD j = false := BitVec.getLsbD_zero
        rw [show ((0 : Word).getLsbD j = true) from hj'] at h0
        simp at h0
      · exact hj'
    | _ => exact hj'
  | storeTd t w v =>
    intro j hj
    have hreg : (s.setTdAt t ((s.tdAt t).put w v)).reg = s.reg := Sys.reg_setTdAt _ _ _
    have hj' : ((s.setTdAt t ((s.tdAt t).put w v)).reg .ENDPTCOMPLETE).getLsbD j = true := hj
    rwa [hreg] at hj'
  | readReg | loadTd | loadCapabilities | storeCapabilities | loadSetup | loadByte | storeByte
    | dccimvac | addrOfSelf | getDriver | setDriver => exact fun _ h => h

/-- The call does not handle a bus reset. -/
def Call.isReset : Call → Bool
  | .reset _ => true
  | _ => false

section ReadsIn

variable {s s' : Sys} {i : Fin 8} {ep : Endpoint} {c : Call} {r : Ret} {obs : List Obs}

/-- No read of an IN endpoint is for a SETUP packet. -/
theorem not_takesSetup_in (s : Sys) (i : Fin 8) (buf : List Byte) :
    ¬ s.TakesSetup ⟨.In, i⟩ buf := by
  rintro ⟨he, -⟩
  simp [EpId.ep0Out] at he

/-- Besides polls and bus resets, only such a read acknowledges a completion. -/
theorem Step.ack_not_mem (h : s.WF) (hep : s.ep ⟨.In, i⟩ = some ep) (hpoll : c ≠ .poll)
    (hreset : c.isReset = false) (hstep : Step s (.call c r obs) s')
    (hread : ¬ (Label.call c r obs).ReadsIn i) : .ack ∉ c.acts s ⟨.In, i⟩ ep := by
  cases c with
  | poll => exact absurd rfl hpoll
  | reset => simp [Call.isReset] at hreset
  | read addr buf =>
    rw [Call.acts]
    split
    · rename_i haddr
      rw [if_neg (not_takesSetup_in s i buf)]
      split
      · -- it would have returned
        rename_i hr
        have hret := hstep.read_ret h haddr hep
        rw [Sys.readRet_of_readable (not_takesSetup_in s i buf) hr] at hret
        subst hret
        have htarget := haddr.2
        split at htarget
        · simp [EpId.ep0Out] at htarget
        · rename_i h0
          exact absurd ⟨h0, htarget⟩ hread
      · simp
    · simp
  | write | setStalled | configure =>
    rw [Call.acts]
    split_ifs <;> simp_all
  | isStalled | setDeviceAddress | enable | enableZlt | setInterrupts => simp [Call.acts]

/-- Such a read does acknowledge it. -/
theorem Step.acts_of_readsIn (h : s.WF) (hep : s.ep ⟨.In, i⟩ = some ep)
    (hstep : Step s (.call c r obs) s') (hread : (Label.call c r obs).ReadsIn i) :
    c.acts s ⟨.In, i⟩ ep = [.ack, .schedule ep.packetLen] := by
  unfold Label.ReadsIn at hread
  split at hread
  · rename_i addr buf x o heq
    obtain ⟨rfl, rfl, rfl⟩ := Label.call.inj heq
    obtain ⟨h0, htarget⟩ := hread
    have haddr : s.ReadsFrom addr ⟨.In, i⟩ := by
      refine ⟨?_, by rw [if_neg h0]; exact htarget⟩
      rw [htarget, Sys.lookup_address, hep]
      rfl
    have hr : s.Readable ⟨.In, i⟩ ep := by
      by_contra hr
      have hret := hstep.read_ret h haddr hep
      rw [Sys.readRet_of_not_readable (not_takesSetup_in s i buf) hr] at hret
      simp at hret
    rw [Call.acts, if_pos haddr, if_neg (not_takesSetup_in s i buf), if_pos hr]
  · exact hread.elim

end ReadsIn

namespace Tracked

variable {p : Fin 8 → Bool} {s s' : Sys}

theorem call {c : Call} {r : Ret} {obs : List Obs} (h : Tracked (fun _ => false) p s)
    (hpoll : c ≠ .poll) (hreset : c.isReset = false) (hstep : Step s (.call c r obs) s') :
    Tracked (fun _ => false) (unreadStep p (.step (.call c r obs))) s' := by
  have hrun := hstep.run_eq
  -- only a poll writes the flags
  have hsts : s'.reg .USBSTS = s.reg .USBSTS := by
    refine Call.reg_kept h.wf ?_ (by simp) hrun
    cases c with
    | poll => exact absurd rfl hpoll
    | _ => simp [Call.writes, Reg.isCtrl]
  -- no call completes a transfer
  have hfall : ∀ e, s'.completed e = true → s.completed e = true := by
    have hf := completionsFall c.prog 1 s
    have hpost : (exec usb 1 c.prog s).post = s' := congrArg Out.post hrun
    rw [hpost] at hf
    exact fun e => hf e.bit
  -- it acknowledges exactly the endpoint that it reads
  have hin : ∀ i, s'.completed ⟨.In, i⟩ =
      (s.completed ⟨.In, i⟩ && !decide ((Label.call c r obs).ReadsIn i)) := by
    intro i
    cases hc : s.completed ⟨.In, i⟩ with
    | true =>
      obtain ⟨ep, hep⟩ := Option.isSome_iff_exists.mp (h.allocated _ hc)
      have hview := hstep.view_eq h.wf hep
      rw [Sys.acts_call hep] at hview
      by_cases hread : (Label.call c r obs).ReadsIn i
      · rw [hstep.acts_of_readsIn h.wf hep hread] at hview
        rw [decide_eq_true hread]
        exact congrArg EpView.completed hview
      · have hview := congrArg EpView.completed hview
        rw [EpView.completed_acts (hstep.ack_not_mem h.wf hep hpoll hreset hread)
          (Call.complete_not_mem c)] at hview
        rw [decide_eq_false hread]
        exact hview.trans hc
    | false =>
      rw [Bool.false_and, Bool.eq_false_iff]
      intro hc'
      rw [hfall _ hc'] at hc
      simp at hc
  refine ⟨hstep.wf h.wf, ?_, fun e he => ?_, fun i => ?_, fun i hi => ?_⟩
  · rw [Sys.resetReceived, hsts]
    exact h.noReset
  · rw [hstep.ep_eq h.wf]
    exact h.allocated e (hfall e he)
  · rw [hin, ← h.outstanding]
    rfl
  · rw [Sys.usbInterrupt, hsts]
    exact h.interrupt i (hfall _ hi)

end Tracked

/-! ## Runs -/

namespace BusyLabel

/-- No bus reset begins and none is handled. -/
def NoReset : BusyLabel → Prop
  | .step (.hw event) => event ≠ .resetBegin
  | .step (.call c _ _) => c.isReset = false
  | .busy c _ ms => c.isReset = false ∧ Moments.NoReset ms

/-- If this is a poll, it reports exactly what it has to. -/
def PollExact (p q : Fin 8 → Bool) (l : BusyLabel) : Prop :=
  ∀ r ms, l = .busy .poll r ms → ∃ res, r = .poll res ∧ ReportsExactly p q res ms

end BusyLabel

/-- The calls that are interrupted here are the polls. -/
def IsPoll (c : Call) : Prop := c = .poll

theorem Tracked.of_booted {s : Sys} (h : Booted s) :
    Tracked (fun _ => false) (fun _ => false) s := by
  have hnone : ∀ e, s.completed e = false := fun e => (h.quiet e).completed
  refine ⟨h.idle.wf, ?_, fun e he => ?_, fun i => (hnone _).symm, fun i hi => ?_⟩
  · rw [Sys.resetReceived, h.usbsts]
    exact BitVec.getLsbD_zero
  · rw [hnone] at he
    simp at he
  · rw [hnone] at hi
    simp at hi

/-- In a run from boot without bus resets, with the controller at work between
    any two accesses of a poll: every poll reports each IN completion that is
    unread when it begins, reports whatever it acknowledges, and reports nothing
    that is not outstanding. -/
theorem in_completions_reported {s₀ s : Sys} {tr : BusyTrace} (h₀ : Booted s₀)
    (hrun : Run (BusyStep IsPoll) s₀ tr s) (hreset : Always (fun _ _ l => l.NoReset) tr) :
    Always (fun pre _ l => l.PollExact (unread pre) (outstanding pre)) tr := by
  refine hrun.always (I := fun tr s => Tracked (fun _ => false) (unread tr) s)
    hreset (.of_booted h₀) ?_ ?_
  · rintro tr s l s' h hres hstep
    rw [unread_snoc]
    cases hstep with
    | step hstep hI =>
      rename_i l
      cases l with
      | hw ev =>
        obtain ⟨hev, rfl⟩ := hstep.enabled
        exact h.event hev hres
      | call c r obs => exact h.call hI hres hstep
    | busy hI hrun =>
      obtain rfl := hI
      exact (busy_poll h hres.2 hrun).1
  · rintro tr s l s' h hres hstep r ms rfl
    cases hstep with
    | busy hI hrun =>
      obtain ⟨res, hr, hexact⟩ := (busy_poll h hres.2 hrun).2
      refine ⟨res, hr, hexact.complete, hexact.acked, fun i hi => ?_⟩
      obtain ⟨pre, o, post, hms, hack, hpre⟩ := hexact.sound i hi
      exact ⟨pre, o, post, hms, hack,
        outstandingAfter_mono (fun _ => outstanding_of_unread) pre i hpre⟩

/-! ## Replay -/

instance : DecidablePred IsPoll := fun c =>
  match c with
  | .poll => .isTrue rfl
  | .read _ _ | .write _ _ | .setStalled _ _ | .isStalled _ | .reset _ | .configure
  | .setDeviceAddress _ | .enable | .enableZlt _ | .setInterrupts _ => .isFalse (by simp [IsPoll])

instance (event : HwEvent) : Decidable (event ≠ .resetBegin) :=
  match event with
  | .resetBegin => .isFalse fun h => h rfl
  | .outDone _ _ | .inDone _ _ | .error _ _ _ _ | .setup _ | .nak _ | .resetEnd =>
    .isTrue (by simp)

instance Moments.decidableNoReset : (ms : Moments) → Decidable (Moments.NoReset ms)
  | [] => .isTrue (by simp [NoReset])
  | .access _ :: ms =>
    have := decidableNoReset ms
    decidable_of_iff (Moments.NoReset ms) (by simp [NoReset])
  | .event event :: ms =>
    have := decidableNoReset ms
    decidable_of_iff (event ≠ .resetBegin ∧ Moments.NoReset ms) (by simp [NoReset])

instance (l : BusyLabel) : Decidable l.NoReset :=
  match l with
  | .step (.hw event) => inferInstanceAs (Decidable (event ≠ .resetBegin))
  | .step (.call c _ _) => inferInstanceAs (Decidable (c.isReset = false))
  | .busy c _ ms => inferInstanceAs (Decidable (c.isReset = false ∧ Moments.NoReset ms))

/-- A poll reports endpoint `i` when that is outstanding. -/
def BusyLabel.FindsOutstanding (p : Fin 8 → Bool) (i : Fin 8) : BusyLabel → Prop
  | .busy .poll (.poll r) _ => p i = true → r.inBit i = true
  | .busy _ _ _ | .step _ => True

instance (p : Fin 8 → Bool) (i : Fin 8) (l : BusyLabel) : Decidable (l.FindsOutstanding p i) := by
  unfold BusyLabel.FindsOutstanding
  split <;> infer_instance

theorem BusyLabel.PollExact.findsOutstanding {p q : Fin 8 → Bool} {l : BusyLabel}
    (h : l.PollExact p q) (i : Fin 8) : l.FindsOutstanding p i := by
  unfold FindsOutstanding
  split
  · rename_i r ms
    obtain ⟨res, hres, hexact⟩ := h _ ms rfl
    obtain rfl := Ret.poll.inj hres
    exact hexact.complete i
  · exact trivial
  · exact trivial

/-- A poll that reports endpoint `i`. -/
def BusyLabel.reports (i : Fin 8) : BusyLabel → Bool
  | .busy .poll (.poll r) _ => r.inBit i
  | .busy _ _ _ | .step _ => false

/-- A read of an IN endpoint that blocks, and a transfer that completes while a
    poll acknowledges the ones before it: the next poll reports it. -/
theorem in_completions_device : ∃ tr s, Run (BusyStep IsPoll) device tr s ∧
    tr.map (fun x => x.2.reports 1) = [false, false, false, false, false, true] ∧
    Always (fun pre _ l => l.PollExact (unread pre) (outstanding pre)) tr := by
  obtain ⟨tr, s, hrun, hrep, hreset⟩ := exists_performed (performBusy_sound IsPoll)
    (p := fun tr _ =>
      tr.map (fun x => x.2.reports 1) = [false, false, false, false, false, true] ∧
        Always (fun _ _ l => l.NoReset) tr)
    device
    [.step (.call .configure), .step (.call (.write bulkIn.address [7])),
      .step (.hw (.setup 0x0000000000010900)), .step (.call (.read bulkIn.address [0])),
      .busy .poll 1 [[], [], [], [], [], [], [.inDone 1 1]], .busy .poll 1 []]
    (by decide +kernel)
  exact ⟨tr, s, hrun, hrep, in_completions_reported device_booted hrun hreset⟩

/-- A read of the IN endpoint returns and acknowledges its completion: it is
    outstanding, and the poll after it reports nothing. -/
theorem in_completion_lost : ∃ tr s, Run (BusyStep IsPoll) device tr s ∧
    Always (fun _ _ l => l.NoReset) tr ∧
    ¬ Always (fun pre _ l => l.PollExact (outstanding pre) (outstanding pre)) tr := by
  obtain ⟨tr, s, hrun, hreset, hlost⟩ := exists_performed (performBusy_sound IsPoll)
    (p := fun tr _ => Always (fun _ _ l => l.NoReset) tr ∧
      ¬ Always (fun pre _ l => l.FindsOutstanding (outstanding pre) 1) tr)
    device
    [.step (.call .configure), .step (.hw (.outDone 1 [1])), .busy .poll 1 [],
      .step (.call (.write bulkIn.address [7])), .step (.hw (.inDone 1 1)),
      .step (.call (.read bulkIn.address [0])), .busy .poll 1 []]
    (by decide +kernel)
  refine ⟨tr, s, hrun, hreset, fun hall => hlost (hall.mono fun pre t l hl => ?_)⟩
  exact hl.findsOutstanding 1

end ImxrtUsbd
