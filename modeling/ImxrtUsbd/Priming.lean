/-
  ImxrtUsbd.Priming

  Who owns a transfer.  A primed endpoint belongs to the controller, and
  `schedule_transfer` leaves it to its callers to see that the endpoint is not
  primed.  All of them do, except `prime_endpoints`: `primes_free_iff` says that
  a run arms only unprimed endpoints exactly when every `configure` finds all
  OUT endpoints unprimed.
-/
import ImxrtUsbd.Replay

namespace ImxrtUsbd

open Lib

/-! ## Arming in a sequence of actions -/

/-- Every transfer armed in the course of these actions finds the endpoint unprimed. -/
def EpView.ArmsFree (v : EpView) : List EpAct → Prop
  | [] => True
  | a :: as => (∀ size, a = .schedule size → v.primed = false) ∧ (v.act a).ArmsFree as

namespace EpView

@[simp] theorem armsFree_nil (v : EpView) : v.ArmsFree [] := trivial

@[simp] theorem armsFree_cons (v : EpView) (a : EpAct) (as : List EpAct) :
    v.ArmsFree (a :: as) ↔ (∀ size, a = .schedule size → v.primed = false) ∧
      (v.act a).ArmsFree as := .rfl

theorem ArmsFree.primed {v : EpView} {pre post : List EpAct} {size : Nat}
    (h : v.ArmsFree (pre ++ .schedule size :: post)) : (v.acts pre).primed = false := by
  induction pre generalizing v with
  | nil => exact h.1 size rfl
  | cons a pre ih => exact ih h.2

end EpView

/-- The controller arms nothing. -/
theorem HwEvent.armsFree (v : EpView) (ev : HwEvent) (e : EpId) : v.ArmsFree (ev.acts e) := by
  cases ev with
  | outDone | inDone | error =>
    rw [HwEvent.acts]
    unfold only
    split <;> simp
  | setup =>
    show v.ArmsFree (if _ then _ else _)
    split <;> simp
  | nak | resetBegin | resetEnd => trivial

theorem armsFree_read {s : Sys} {e : EpId} {ep : Endpoint} (addr : EndpointAddress)
    (buf : List Byte) : (s.view e ep).ArmsFree (Call.acts s e ep (.read addr buf)) := by
  rw [Call.acts]
  split
  · split
    · split
      · trivial
      · rename_i hp
        have hp' : (s.view e ep).primed = false := Bool.eq_false_of_not_eq_true hp
        simp [hp']
    · split
      · rename_i hr
        have hp' := hr.2.1
        simp [hp', EpView.act]
      · trivial
  · trivial

theorem armsFree_write {s : Sys} {e : EpId} {ep : Endpoint} (addr : EndpointAddress)
    (buf : List Byte) : (s.view e ep).ArmsFree (Call.acts s e ep (.write addr buf)) := by
  rw [Call.acts]
  split
  · split
    · rename_i hw
      have hp : (s.view e ep).primed = false := hw.2.2
      simp [hp, EpView.act]
    · trivial
  · rename_i h0
    split
    · rename_i hw
      split
      · -- the IN half of the control endpoint
        rename_i hin
        have he : e = .ep0In := by
          rcases e.num_cases with h | rfl | h
          · exact absurd h h0
          · simp [EpId.ep0Out] at hin
          · exact h
        have hp : (s.view e ep).primed = false := by
          rw [he]
          exact hw.2.2.2
        simp [hp, EpView.act]
      · -- its OUT half, for the status stage
        split
        · trivial
        · rename_i hp
          have hp' : (s.view e ep).primed = false := Bool.eq_false_of_not_eq_true hp
          simp [hp', EpView.act]
    · trivial

/-- All calls but `configure` look before they arm. -/
theorem Call.armsFree {s : Sys} {e : EpId} {ep : Endpoint} {c : Call} (hc : c ≠ .configure) :
    (s.view e ep).ArmsFree (c.acts s e ep) := by
  cases c with
  | poll =>
    rw [Call.acts]
    split
    · trivial
    · split <;> simp
  | read addr buf => exact armsFree_read addr buf
  | write addr buf => exact armsFree_write addr buf
  | setStalled addr stalled =>
    rw [Call.acts]
    split
    · rename_i h
      have hp : (s.view e ep).primed = false := h.2.2.2
      simp [hp]
    · trivial
  | reset => simp [Call.acts]
  | configure => exact absurd rfl hc
  | isStalled | setDeviceAddress | enable | enableZlt | setInterrupts => trivial

/-! ## Arming in a run -/

/-- Every prime in this step is of an endpoint that is not primed. -/
def Label.PrimesFree (l : Label) : Prop := ∀ bits stat, .prime bits stat ∈ l.obs → bits &&& stat = 0

instance (l : Label) : Decidable l.PrimesFree :=
  decidable_of_iff
    ((l.obs.all fun o => match o with
      | .prime bits stat => bits &&& stat == 0
      | .setup _ _ => true) = true) (by
    rw [List.all_eq_true]
    constructor
    · intro h bits stat hmem
      exact beq_iff_eq.mp (h _ hmem)
    · intro h o hmem
      cases o with
      | prime bits stat => exact beq_iff_eq.mpr (h bits stat hmem)
      | setup => rfl)

/-- Every allocated non-zero OUT endpoint is unprimed. -/
def Sys.OutUnprimed (s : Sys) : Prop :=
  ∀ e : EpId, (s.ep e).isSome = true → e.num.val ≠ 0 → e.dir = .Out → s.primed e = false

instance (s : Sys) : Decidable s.OutUnprimed :=
  decidable_of_iff
    (∀ n : Fin 8, (s.ep ⟨.Out, n⟩).isSome = true → n.val ≠ 0 → s.primed ⟨.Out, n⟩ = false)
    ⟨fun h e hs h0 hd => by obtain ⟨d, n⟩ := e; subst hd; exact h n hs h0,
      fun h n hs h0 => h ⟨.Out, n⟩ hs h0 rfl⟩

theorem EpId.mask_and_eq_zero (e : EpId) (x : Word) :
    e.mask &&& x = 0 ↔ x.getLsbD e.bit = false := by
  rw [EpId.mask, BitVec.and_comm, ← Field.and_bit_ne_zero x e.bit_lt]
  simp

theorem EpId.mask_inj {e f : EpId} (h : e.mask = f.mask) : e = f := by
  have hbit : f.mask.getLsbD e.bit = true := by
    rw [← h, getLsbD_mask, decide_eq_true_eq]
  rwa [getLsbD_mask, decide_eq_true_eq, bit_inj] at hbit

theorem Step.primesFree_iff {s s' : Sys} {l : Label} (h : s.WF) (hstep : Step s l s') :
    l.PrimesFree ↔ (l.isConfigure = true → s.OutUnprimed) := by
  have heff := hstep.effect h
  constructor
  · intro hfree hl e hsome h0 hd
    obtain ⟨ep, hep⟩ := Option.isSome_iff_exists.mp hsome
    -- `configure` arms the endpoint at once, and shows the prime
    have hacts : s.acts l e = [.schedule ep.packetLen] := by
      obtain ⟨r, obs, rfl⟩ := Label.isConfigure_eq hl
      rw [Sys.acts_call hep]
      exact if_pos ⟨h0, hd⟩
    obtain ⟨stat, hmem⟩ := heff.armed e ep ep.packetLen hep (by rw [hacts]; simp)
    obtain ⟨f, fp, pre, size, post, hf, hfp, hpre, hstat⟩ := heff.prime _ _ hmem
    obtain rfl := EpId.mask_inj hf
    rw [hep] at hfp
    obtain rfl := Option.some.inj hfp
    rw [hacts] at hpre
    have hnil : pre = [] := by
      have := congrArg List.length hpre
      rw [List.length_append, List.length_cons, List.length_cons, List.length_nil] at this
      exact List.eq_nil_of_length_eq_zero (by omega)
    rw [hnil] at hstat
    rw [show s.primed e = stat.getLsbD e.bit from hstat.symm]
    exact (e.mask_and_eq_zero stat).mp (hfree _ _ hmem)
  · intro hc bits stat hmem
    obtain ⟨e, ep, pre, size, post, rfl, hep, hacts, hstat⟩ := heff.prime bits stat hmem
    rw [EpId.mask_and_eq_zero, hstat]
    have hfree : (s.view e ep).ArmsFree (s.acts l e) := by
      cases l with
      | hw ev => exact ev.armsFree _ e
      | call c r obs =>
        rw [Sys.acts_call hep]
        by_cases hconf : c = .configure
        · subst hconf
          rw [Call.acts]
          split
          · rename_i hd
            have hp : (s.view e ep).primed = false := hc rfl e (by rw [hep]; rfl) hd.1 hd.2
            simp [hp]
          · trivial
        · exact Call.armsFree hconf
    rw [hacts] at hfree
    exact hfree.primed

/-- A run arms no transfer on an endpoint that is still primed if and only if
    every `configure` in it finds the OUT endpoints unprimed. -/
theorem primes_free_iff {s₀ s : Sys} {tr : Trace} (hs : Reachable s₀) (hrun : Run Step s₀ tr s) :
    Always (fun _ _ l => l.PrimesFree) tr ↔
      Always (fun _ s l => l.isConfigure = true → s.OutUnprimed) tr := by
  exact hrun.always_iff (always_true tr) (I := fun _ s => s.WF) hs.wf
    (fun _ _ _ _ hwf _ _ hstep => hstep.wf hwf)
    fun _ _ _ _ hwf _ hstep => hstep.primesFree_iff hwf

/-- A reset, `configure`, and a packet that is read. -/
theorem primes_free_device :
    ∃ tr s, Run Step device tr s ∧ (tr.length = 7 ∧ Always (fun _ _ l => l.PrimesFree) tr) := by
  obtain ⟨tr, s, hrun, hlen, hc⟩ := exists_run (s := device)
    (p := fun tr _ => tr.length = 7 ∧
      Always (fun _ s l => l.isConfigure = true → s.OutUnprimed) tr)
    [.hw .resetBegin, .call .poll, .call (.reset true), .call .configure,
      .hw (.outDone 1 [1, 2, 3]), .call .poll,
      .call (.read bulkOut.address (List.replicate 64 0))] (by decide +kernel)
  exact ⟨tr, s, hrun, hlen, (primes_free_iff device_booted.reachable hrun).mpr hc⟩

/-- After a reset, the host clears a halt before the device is configured, once. -/
theorem primes_free_fails :
    ∃ tr s, Run Step device tr s ∧ tr.countP (fun x => x.2.isConfigure) = 1 ∧
      ¬ Always (fun _ _ l => l.PrimesFree) tr := by
  obtain ⟨tr, s, hrun, hconf, hbad⟩ := exists_run (s := device)
    (p := fun tr _ => tr.countP (fun x => x.2.isConfigure) = 1 ∧
      ¬ Always (fun _ _ l => l.PrimesFree) tr)
    [.hw .resetBegin, .call .poll, .call (.reset true),
      .call (.setStalled bulkOut.address false), .call .configure] (by decide +kernel)
  exact ⟨tr, s, hrun, hconf, hbad⟩

end ImxrtUsbd
