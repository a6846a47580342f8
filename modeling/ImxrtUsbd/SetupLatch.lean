/-
  ImxrtUsbd.SetupLatch

  `ENDPTSETUPSTAT`, the latch of SETUP packets.  Only the arrival of a packet
  sets it and only the `ctrl0_read` that takes the packet clears it
  (`Step.latch_cases`); taking a packet is the only way to see the setup buffer.
-/
import ImxrtUsbd.OutEndpoint

namespace ImxrtUsbd

open Lib

/-! ## Steps that leave the latch alone -/

/-- The latch is as it was, and the setup buffer was not looked at. -/
structure LatchKept (s s' : Sys) (obs : List Obs) : Prop where
  latch : s'.reg .ENDPTSETUPSTAT = s.reg .ENDPTSETUPSTAT
  unseen : ∀ high v, .setup high v ∉ obs

namespace LatchKept

variable {s s' s'' : Sys} {o o' : List Obs}

theorem refl (s : Sys) : LatchKept s s [] := ⟨rfl, by simp⟩

theorem trans (h : LatchKept s s' o) (h' : LatchKept s' s'' o') : LatchKept s s'' (o ++ o') :=
  ⟨h'.latch.trans h.latch, fun high v hmem => (List.mem_append.mp hmem).elim
    (h.unseen high v) (h'.unseen high v)⟩

theorem setReg (s : Sys) {r : Reg} (v : Word) (hr : r ≠ .ENDPTSETUPSTAT) :
    LatchKept s (s.setReg r v) [] :=
  ⟨Sys.reg_setReg_of_ne s v (Ne.symm hr), by simp⟩

theorem arm (s : Sys) (e : EpId) (ptr size : Nat) : LatchKept s (s.arm e ptr size) (s.armObs e) :=
  ⟨Sys.reg_arm_of_ne s e ptr size (by simp), by simp [Sys.armObs]⟩

theorem rearm (s : Sys) (e : EpId) (ep : Endpoint) (size : Nat) :
    LatchKept s (s.rearm e ep size) (s.armObs e) :=
  ((setReg s _ (by simp)).trans (setReg _ _ (by simp))).trans (arm _ e ep.buffer.ptr size)

theorem send (s : Sys) (e : EpId) (ep : Endpoint) (buf : List Byte) :
    LatchKept s (s.send e ep buf) (s.armObs e) := by
  have hmem : ∀ (s : Sys) (m : Mem), LatchKept s { s with mem := m } [] :=
    fun s m => ⟨rfl, by simp⟩
  exact ((setReg s _ (by simp)).trans (hmem _ _)).trans (arm _ e ep.buffer.ptr _)

theorem modifyCtrl (s : Sys) (e : EpId) (fs : List (Field × Word)) :
    LatchKept s (s.modifyCtrl e fs) [] := by
  rcases e.ctrlReg_cases with hc | ⟨i, hc⟩ <;>
    exact setReg s _ (by rw [hc]; simp)

/-- A pass keeps the latch if every turn of it does. -/
theorem pass {eff : Sys → EpId → Endpoint → Sys} {see : Sys → EpId → Endpoint → List Obs}
    (hturn : ∀ s e ep, LatchKept s (eff s e ep) (see s e ep)) (s : Sys) :
    LatchKept s (s.pass eff) (s.passObs eff see) := by
  have hcomp : Composes fun (s : Sys) (o : List Obs) (s' : Sys) => LatchKept s s' o :=
    { refl := refl
      trans := fun h h' => h.trans h' }
  exact Sys.pass_composes hcomp see (fun s e ep _ => hturn s e ep) s

theorem quietPass {eff : Sys → EpId → Endpoint → Sys}
    (hturn : ∀ s e ep, LatchKept s (eff s e ep) []) (s : Sys) : LatchKept s (s.pass eff) [] := by
  rw [← Sys.passObs_nil eff s]
  exact pass hturn s

end LatchKept

/-! ## Calls and the latch -/

/-- The call takes the SETUP packet that is latched. -/
def Call.TakesSetup (s : Sys) : Call → Prop
  | .read addr buf => s.ReadsFrom addr .ep0Out ∧ s.TakesSetup .ep0Out buf
  | _ => False

instance (s : Sys) (c : Call) : Decidable (c.TakesSetup s) :=
  match c with
  | .read _ _ => inferInstanceAs (Decidable (_ ∧ _))
  | .poll | .write _ _ | .setStalled _ _ | .isStalled _ | .reset _ | .configure
  | .setDeviceAddress _ | .enable | .enableZlt _ | .setInterrupts _ =>
    inferInstanceAs (Decidable False)

section Calls

variable {s s' : Sys} {r : Ret} {o : List Obs}

theorem latchKept_read {addr : EndpointAddress} {buf : List Byte} (h : s.WF)
    (hc : ¬ (s.ReadsFrom addr .ep0Out ∧ s.TakesSetup .ep0Out buf))
    (hrun : run (Call.read addr buf).prog s = ⟨.ok r, s', o⟩) : LatchKept s s' o := by
  obtain ⟨-, rfl, rfl⟩ | ⟨e, ep, he, -, ⟨hset, -⟩ | ⟨-, hcases⟩⟩ := read_leaves h hrun
  · exact .refl _
  · obtain rfl := hset.1
    exact absurd ⟨he, hset⟩ hc
  · obtain ⟨-, rfl, rfl⟩ | ⟨-, rfl, rfl⟩ := hcases
    · exact .rearm s e ep _
    · exact .refl _

theorem latchKept_write {addr : EndpointAddress} {buf : List Byte} (h : s.WF)
    (hrun : run (Call.write addr buf).prog s = ⟨.ok r, s', o⟩) : LatchKept s s' o := by
  obtain ⟨rfl, rfl⟩ | ⟨e, ep, -, rfl, rfl⟩ | ⟨ep, epo, -, -, rfl, rfl⟩ := write_leaves h hrun
  · exact .refl _
  · exact .send s e ep buf
  · exact (LatchKept.send s .ep0In ep buf).trans (.rearm _ .ep0Out epo 0)

theorem latchKept_setStalled {addr : EndpointAddress} {stalled : Bool} (h : s.WF)
    (hrun : run (Call.setStalled addr stalled).prog s = ⟨.ok r, s', o⟩) : LatchKept s s' o := by
  obtain ⟨-, rfl, rfl⟩ | ⟨e, ep, -, -, hcases⟩ := setStalled_leaves h hrun
  · exact .refl _
  · have hstall : LatchKept s (s.setStall e stalled) [] := .modifyCtrl s e _
    obtain ⟨-, rfl, rfl⟩ | ⟨-, rfl, rfl⟩ := hcases
    · exact ⟨(hstall.trans (.arm _ e ep.buffer.ptr ep.packetLen)).latch, by simp [Sys.armObs]⟩
    · exact hstall

theorem latchKept_reset : LatchKept s s.reset [] := by
  have hpass : LatchKept s.flushed s.reset [] :=
    .quietPass (fun s e _ => .modifyCtrl s e _) s.flushed
  exact ((((LatchKept.setReg s _ (by simp)).trans (.setReg _ _ (by simp))).trans
    (.setReg _ _ (by simp))).trans (.setReg _ _ (by simp))).trans hpass

theorem latchKept_configure : LatchKept s s.configured s.configuredObs := by
  have hena : LatchKept s s.enableAll [] := .quietPass (fun s e _ => .modifyCtrl s e _) s
  refine hena.trans (.pass (fun s e ep => ?_) s.enableAll)
  unfold Sys.primeTurn Sys.primeObs
  split
  · exact .arm s e ep.buffer.ptr ep.packetLen
  · exact .refl s

theorem latchKept_polled : LatchKept s s.polled [] := by
  have hdriver : ∀ (s : Sys) (d : Driver), LatchKept s { s with driver := d } [] :=
    fun s d => ⟨rfl, by simp⟩
  exact ((LatchKept.setReg s _ (by simp)).trans (hdriver _ _)).trans (.setReg _ _ (by simp))

/-- No call but a read that takes the packet touches the latch. -/
theorem Call.latch_kept {c : Call} (h : s.WF) (hc : ¬ c.TakesSetup s)
    (hrun : run c.prog s = ⟨.ok r, s', o⟩) : LatchKept s s' o := by
  cases c with
  | poll =>
    obtain ⟨rfl, ⟨-, -, rfl⟩ | ⟨-, -, -, rfl⟩ | ⟨-, -, -, rfl⟩⟩ := poll_leaves hrun
    · exact .setReg s _ (by simp)
    · exact latchKept_polled
    · exact .refl _
  | read addr buf => exact latchKept_read h hc hrun
  | write addr buf => exact latchKept_write h hrun
  | setStalled addr stalled => exact latchKept_setStalled h hrun
  | isStalled addr =>
    obtain ⟨-, rfl, rfl⟩ := isStalled_leaves h hrun
    exact .refl _
  | reset debugAssertions =>
    obtain ⟨rfl, rfl⟩ := reset_leaves h hrun
    exact latchKept_reset
  | configure =>
    obtain ⟨rfl, rfl⟩ := configure_leaves h hrun
    exact latchKept_configure
  | setDeviceAddress addr =>
    obtain ⟨rfl, rfl⟩ := setDeviceAddress_leaves hrun
    exact .setReg s _ (by simp)
  | enable =>
    obtain ⟨rfl, rfl⟩ := enable_leaves h hrun
    exact .setReg s _ (by simp)
  | enableZlt addr =>
    obtain ⟨rfl, ⟨-, rfl⟩ | ⟨e, ep, -, -, rfl⟩⟩ := enableZlt_leaves h hrun
    · exact .refl _
    · exact ⟨rfl, by simp⟩
  | setInterrupts interrupts =>
    obtain ⟨rfl, rfl⟩ := setInterrupts_leaves hrun
    exact .setReg s _ (by simp)

/-- A read that takes the packet clears bit 0 of the latch, and shows the
    setup buffer that it returns. -/
theorem latch_taken {addr : EndpointAddress} {buf : List Byte} {r : Ret} (h : s.WF)
    {ep : Endpoint} (hep : s.ep .ep0Out = some ep) (haddr : s.ReadsFrom addr .ep0Out)
    (hset : s.TakesSetup .ep0Out buf)
    (hrun : run (Call.read addr buf).prog s = ⟨.ok r, s', o⟩) :
    s'.reg .ENDPTSETUPSTAT = s.reg .ENDPTSETUPSTAT &&& ~~~ 1 ∧ (∃ high v, .setup high v ∈ o) ∧
      r = .read (.ok (8, setupBytes (s.qh 0).setup ++ buf.drop 8)) := by
  have htake : s.takeSetup.reg .ENDPTSETUPSTAT = s.reg .ENDPTSETUPSTAT &&& ~~~ 1 := rfl
  have hret : s.readRet .ep0Out ep buf = .ok (8, setupBytes (s.qh 0).setup ++ buf.drop 8) :=
    if_pos hset
  obtain ⟨a, hread, rfl⟩ := run_map_ok hrun
  rw [run_busRead h haddr hep, if_pos hset, hret] at hread
  split at hread
  · obtain ⟨ha, rfl, rfl⟩ := Out.mk.inj hread
    exact ⟨htake, ⟨_, _, List.mem_cons_self ..⟩, by rw [← Res.ok.inj ha]⟩
  · obtain ⟨ha, rfl, rfl⟩ := Out.mk.inj hread
    refine ⟨?_, ⟨_, _, List.mem_cons_self ..⟩, by rw [← Res.ok.inj ha]⟩
    rw [Sys.reg_arm_of_ne _ _ _ _ (by simp)]
    exact htake

end Calls

/-! ## Steps and the latch -/

/-- A SETUP packet was returned: the setup buffer was looked at. -/
def Label.tookSetup (l : Label) : Bool :=
  l.obs.any fun o => match o with
    | .setup _ _ => true
    | .prime _ _ => false

theorem Label.tookSetup_iff {l : Label} :
    l.tookSetup = true ↔ ∃ high v, .setup high v ∈ l.obs := by
  rw [tookSetup, List.any_eq_true]
  constructor
  · rintro ⟨o, ho, hp⟩
    cases o with
    | setup high v => exact ⟨high, v, ho⟩
    | prime => simp at hp
  · rintro ⟨high, v, ho⟩
    exact ⟨_, ho, rfl⟩

/-- A SETUP packet arrives. -/
def Label.setupArrives : Label → Bool
  | .hw (.setup _) => true
  | _ => false

/-- What a step can be to the latch: the arrival of a packet, a read that takes
    it, or nothing. -/
theorem Step.latch_cases {s s' : Sys} {l : Label} {ep : Endpoint} (h : s.WF)
    (hep : s.ep .ep0Out = some ep) (hstep : Step s l s') :
    (l.setupArrives = true ∧ l.tookSetup = false ∧
        s'.reg .ENDPTSETUPSTAT = s.reg .ENDPTSETUPSTAT ||| 1) ∨
      (l.setupArrives = false ∧ l.tookSetup = true ∧ s.setupPending = true ∧
        s'.reg .ENDPTSETUPSTAT = s.reg .ENDPTSETUPSTAT &&& ~~~ 1) ∨
      (l.setupArrives = false ∧ l.tookSetup = false ∧
        s'.reg .ENDPTSETUPSTAT = s.reg .ENDPTSETUPSTAT) := by
  cases l with
  | hw ev =>
    obtain ⟨-, rfl⟩ := hstep.enabled
    cases ev with
    | setup packet => exact Or.inl ⟨rfl, rfl, rfl⟩
    | outDone | inDone | error | nak | resetBegin | resetEnd =>
      exact Or.inr (Or.inr ⟨rfl, rfl, rfl⟩)
  | call c r obs =>
    refine Or.inr ?_
    by_cases hc : c.TakesSetup s
    · cases c with
      | read addr buf =>
        -- the read that takes the packet shows the setup buffer
        obtain ⟨hlatch, hseen, -⟩ := latch_taken h hep hc.1 hc.2 hstep.run_eq
        exact Or.inl ⟨rfl, Label.tookSetup_iff.mpr hseen, hc.2.2.1, hlatch⟩
      | poll | write | setStalled | isStalled | reset | configure | setDeviceAddress | enable
        | enableZlt | setInterrupts => exact hc.elim
    · have hkept := Call.latch_kept h hc hstep.run_eq
      refine Or.inr ⟨rfl, ?_, hkept.latch⟩
      rw [Bool.eq_false_iff]
      intro ht
      obtain ⟨high, v, hmem⟩ := Label.tookSetup_iff.mp ht
      exact hkept.unseen high v hmem

/-- While a SETUP packet is pending, it can be read. -/
theorem exists_readSetup {s : Sys} {ep : Endpoint} (h : s.WF) (hep : s.ep .ep0Out = some ep)
    (hp : s.setupPending = true) :
    ∃ l s', Step s l s' ∧ l.tookSetup = true ∧ l.setupArrives = false := by
  have haddr : s.ReadsFrom EpId.ep0Out.address .ep0Out :=
    ⟨by rw [Sys.lookup_address, hep]; rfl, by decide⟩
  have hset : s.TakesSetup .ep0Out (List.replicate 8 0) := ⟨rfl, hp, by simp⟩
  obtain ⟨a, s', obs, hrun⟩ : ∃ a s' obs,
      run (BusAdapter.read EpId.ep0Out.address (List.replicate 8 0)) s = ⟨.ok a, s', obs⟩ := by
    rw [run_busRead h haddr hep, if_pos hset]
    split <;> exact ⟨_, _, _, rfl⟩
  have hcall : run (Call.read EpId.ep0Out.address (List.replicate 8 0)).prog s =
      ⟨.ok (.read a), s', obs⟩ := by
    show run (BusAdapter.read _ _ >>= fun x => pure (Ret.read x)) s = _
    rw [run_bind, hrun, Out.andThen_ok_obs, run_pure, List.append_nil]
  obtain ⟨-, hseen, -⟩ := latch_taken h hep haddr hset hcall
  exact ⟨_, _, .call hcall, Label.tookSetup_iff.mpr hseen, rfl⟩

end ImxrtUsbd
