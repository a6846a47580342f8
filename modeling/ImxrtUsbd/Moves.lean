/-
  ImxrtUsbd.Moves

  What the calls are made of.  A `Move` is one elementary change of the system:
  a register that no endpoint is armed through, arming a transfer, storing to
  the front of an endpoint's buffer, and so on.  `Call.moves` takes every call
  apart into moves, so that a property is kept by all calls as soon as it is
  kept by every move; `Call.writes` says which registers a call may set.
-/
import ImxrtUsbd.Boot
import ImxrtUsbd.Footprint

namespace ImxrtUsbd

open Lib

/-- One elementary change of the system.  `W` are the registers that may be set
    besides `ENDPTSTAT`. -/
inductive Move (W : Reg → Prop) (s : Sys) : Sys → Prop where
  | setReg (r : Reg) (v : Word) :
      W r → r ≠ .ENDPTSTAT → (r = .USBCMD → v.getLsbD 1 = false) → Move W s (s.setReg r v)
  | flush (m : Word) : Move W s (s.lower .ENDPTSTAT m)
  | arm {e : EpId} {ep : Endpoint} (size : Nat) :
      s.ep e = some ep → size ≤ ep.packetLen → Move W s (s.arm e ep.buffer.ptr size)
  | fill {e : EpId} {ep : Endpoint} (data : List Byte) :
      s.ep e = some ep → data.length ≤ ep.packetLen →
        Move W s { s with mem := s.mem.store ep.buffer.ptr data }
  | signal (v : BitVec 16) : Move W s { s with driver := { s.driver with epOut := v } }
  | capabilities (i : Nat) (v : Word) :
      Move W s { s with qh := Function.update s.qh i { s.qh i with capabilities := v } }

/-- Some moves, one after the other. -/
def Moves (W : Reg → Prop) : Sys → Sys → Prop := Relation.ReflTransGen (Move W)

section Moves

variable {W : Reg → Prop} {s s' : Sys}

/-- No move changes which endpoints there are. -/
theorem Move.epAllocator (h : Move W s s') : s'.driver.epAllocator = s.driver.epAllocator := by
  cases h <;> rfl

namespace Moves

theorem refl : Moves W s s := Relation.ReflTransGen.refl

theorem trans {s'' : Sys} (h : Moves W s s') (h' : Moves W s' s'') : Moves W s s'' :=
  Relation.ReflTransGen.trans h h'

theorem single (h : Move W s s') : Moves W s s' := Relation.ReflTransGen.single h

/-- What every move keeps, moves keep. -/
theorem invariant {I : Sys → Prop} (h : Moves W s s') (hI : I s)
    (hmove : ∀ t t', I t → Move W t t' → I t') : I s' := by
  unfold Moves at h
  induction h with
  | refl => exact hI
  | tail _ hm ih => exact hmove _ _ ih hm

end Moves

/-- Registers outside `W` keep their values. -/
theorem Move.reg_kept {r : Reg} (hr : ¬ W r) (hstat : r ≠ .ENDPTSTAT) (h : Move W s s') :
    s'.reg r = s.reg r := by
  cases h with
  | setReg r' v hw =>
    refine Sys.reg_setReg_of_ne s v ?_
    rintro rfl
    exact hr hw
  | flush m => exact Sys.reg_lower_of_ne s m hstat
  | arm size hep hsize => exact Sys.reg_arm_of_ne s _ _ _ hstat
  | fill | signal | capabilities => rfl

theorem Moves.reg_kept {r : Reg} (hr : ¬ W r) (hstat : r ≠ .ENDPTSTAT) (h : Moves W s s') :
    s'.reg r = s.reg r :=
  h.invariant (I := fun t => t.reg r = s.reg r) rfl
    fun _ _ hI hm => (hm.reg_kept hr hstat).trans hI

theorem Moves.setReg {r : Reg} (s : Sys) (v : Word) (hw : W r) (hr : r ≠ .ENDPTSTAT)
    (hc : r = .USBCMD → v.getLsbD 1 = false) : Moves W s (s.setReg r v) :=
  .single (.setReg r v hw hr hc)

theorem Moves.lower {r : Reg} (s : Sys) (m : Word) (hw : W r)
    (hr : r ≠ .ENDPTSTAT ∧ r ≠ .USBCMD) : Moves W s (s.lower r m) :=
  .setReg s _ hw hr.1 fun h => absurd h hr.2

theorem Moves.arm {e : EpId} {ep : Endpoint} {size : Nat} (hep : s.ep e = some ep)
    (hsize : size ≤ ep.packetLen) : Moves W s (s.arm e ep.buffer.ptr size) :=
  .single (.arm size hep hsize)

theorem Moves.rearm {e : EpId} {ep : Endpoint} {size : Nat} (hep : s.ep e = some ep)
    (hsize : size ≤ ep.packetLen) (hc : W .ENDPTCOMPLETE) (hn : W .ENDPTNAK) :
    Moves W s (s.rearm e ep size) := by
  have hack : Moves W s (s.lower .ENDPTCOMPLETE e.mask) := .lower s _ hc (by simp)
  have hnak := Moves.lower (s.lower .ENDPTCOMPLETE e.mask) e.mask hn (by simp)
  exact (hack.trans hnak).trans (.arm hep hsize)

theorem Moves.send {e : EpId} {ep : Endpoint} (hep : s.ep e = some ep) (buf : List Byte)
    (hn : W .ENDPTNAK) : Moves W s (s.send e ep buf) := by
  have hnak : Moves W s (s.lower .ENDPTNAK e.mask) := .lower s _ hn (by simp)
  have hfill : Moves W (s.lower .ENDPTNAK e.mask) { s.lower .ENDPTNAK e.mask with
      mem := s.mem.store ep.buffer.ptr (buf.take ep.packetLen) } :=
    .single (.fill (e := e) _ hep (List.length_take_le _ _))
  exact (hnak.trans hfill).trans (.arm hep (Nat.min_le_left _ _))

theorem Moves.modifyCtrl (s : Sys) (e : EpId) (fs : List (Field × Word)) (hw : W e.ctrlReg) :
    Moves W s (s.modifyCtrl e fs) := by
  rcases e.ctrlReg_cases with hc | ⟨i, hc⟩ <;>
    exact .setReg s _ hw (by rw [hc]; simp) (by rw [hc]; simp)

theorem Moves.takeSetup (h : s.WF) (hset : W .ENDPTSETUPSTAT) (hcmd : W .USBCMD) :
    Moves W s s.takeSetup := by
  have hlatch : Moves W s (s.lower .ENDPTSETUPSTAT 1) := .lower s _ hset (by simp)
  refine hlatch.trans (.setReg _ _ hcmd (by simp) fun _ => ?_)
  rw [Field.getLsbD_set _ _ _ (by decide), if_neg (by decide), h.rst]

/-- A pass is made of the moves of its turns. -/
theorem Moves.pass {eff : Sys → EpId → Endpoint → Sys}
    (hturn : ∀ s e ep, s.ep e = some ep → Moves W s (eff s e ep)) (s : Sys) :
    Moves W s (s.pass eff) :=
  Sys.pass_invariant (I := fun t => Moves W s t)
    (fun t e ep hep ht => ht.trans (hturn t e ep hep)) .refl

end Moves

/-! ## The calls -/

theorem EpId.isCtrl_ctrlReg (e : EpId) : e.ctrlReg.isCtrl = true := by
  rcases e.ctrlReg_cases with hc | ⟨i, hc⟩ <;> rw [hc] <;> rfl

/-- The registers a call may set, besides `ENDPTSTAT`. -/
def Call.writes (c : Call) (r : Reg) : Prop :=
  match c with
  | .poll => r = .USBSTS ∨ r = .ENDPTCOMPLETE
  | .read _ _ => r = .ENDPTSETUPSTAT ∨ r = .USBCMD ∨ r = .ENDPTCOMPLETE ∨ r = .ENDPTNAK
  | .write _ _ => r = .ENDPTCOMPLETE ∨ r = .ENDPTNAK
  | .setStalled _ _ | .configure => r.isCtrl = true
  | .reset _ => r = .ENDPTCOMPLETE ∨ r = .ENDPTNAK ∨ r = .ENDPTNAKEN ∨ r.isCtrl = true
  | .setDeviceAddress _ => r = .DEVICEADDR
  | .enable => r = .USBCMD
  | .setInterrupts _ => r = .USBINTR
  | .isStalled _ | .enableZlt _ => False

section Calls

variable {s s' : Sys} {r : Ret} {o : List Obs}

theorem moves_read {addr : EndpointAddress} {buf : List Byte} (h : s.WF)
    (hrun : run (Call.read addr buf).prog s = ⟨.ok r, s', o⟩) :
    Moves (Call.read addr buf).writes s s' := by
  obtain ⟨-, rfl, -⟩ | ⟨e, ep, -, hep, hcases⟩ := read_leaves h hrun
  · exact .refl
  · have htake : Moves (Call.read addr buf).writes s s.takeSetup :=
      .takeSetup h (by simp [Call.writes]) (by simp [Call.writes])
    obtain ⟨-, ⟨-, rfl, -⟩ | ⟨-, -, rfl⟩⟩ | ⟨-, ⟨-, rfl, -⟩ | ⟨-, rfl, -⟩⟩ := hcases
    · exact htake
    · have hnak := Moves.lower (W := (Call.read addr buf).writes) s.takeSetup
        (r := .ENDPTNAK) e.mask (by simp [Call.writes]) (by simp)
      exact (htake.trans hnak).trans (.arm hep (Nat.le_refl _))
    · exact .rearm hep (Nat.le_refl _) (by simp [Call.writes]) (by simp [Call.writes])
    · exact .refl

theorem moves_write {addr : EndpointAddress} {buf : List Byte} (h : s.WF)
    (hrun : run (Call.write addr buf).prog s = ⟨.ok r, s', o⟩) :
    Moves (Call.write addr buf).writes s s' := by
  obtain ⟨rfl, -⟩ | ⟨e, ep, hep, rfl, -⟩ | ⟨ep, epo, hep, hepo, rfl, -⟩ := write_leaves h hrun
  · exact .refl
  · exact .send hep buf (by simp [Call.writes])
  · have hsend : Moves (Call.write addr buf).writes s (s.send .ep0In ep buf) :=
      .send hep buf (by simp [Call.writes])
    exact hsend.trans
      (.rearm hepo (Nat.zero_le _) (by simp [Call.writes]) (by simp [Call.writes]))

theorem moves_setStalled {addr : EndpointAddress} {stalled : Bool} (h : s.WF)
    (hrun : run (Call.setStalled addr stalled).prog s = ⟨.ok r, s', o⟩) :
    Moves (Call.setStalled addr stalled).writes s s' := by
  obtain ⟨-, rfl, -⟩ | ⟨e, ep, rfl, hep, hcases⟩ := setStalled_leaves h hrun
  · exact .refl
  · have hstall : Moves (Call.setStalled e.address stalled).writes s (s.setStall e stalled) :=
      .modifyCtrl s e _ e.isCtrl_ctrlReg
    obtain ⟨-, rfl, -⟩ | ⟨-, rfl, -⟩ := hcases
    · exact hstall.trans (.arm hep (Nat.le_refl _))
    · exact hstall

theorem moves_reset {debugAssertions : Bool} :
    Moves (Call.reset debugAssertions).writes s s.reset := by
  -- completions, NAKs and the NAK mask, then everything is flushed
  have h1 : Moves (Call.reset debugAssertions).writes s
      (s.lower .ENDPTCOMPLETE (s.reg .ENDPTCOMPLETE)) :=
    .lower s _ (by simp [Call.writes]) (by simp)
  have h2 := h1.trans (.lower _ (s.reg .ENDPTNAK) (r := .ENDPTNAK) (by simp [Call.writes])
    (by simp))
  have h3 := h2.trans (.setReg _ 0 (r := .ENDPTNAKEN) (by simp [Call.writes]) (by simp)
    (by simp))
  have h4 : Moves (Call.reset debugAssertions).writes s s.flushed :=
    h3.trans (.single (.flush 0xFFFFFFFF))
  refine h4.trans (.pass (fun s e ep _ => .modifyCtrl s e _ ?_) s.flushed)
  exact Or.inr (Or.inr (Or.inr e.isCtrl_ctrlReg))

theorem moves_configure : Moves Call.configure.writes s s.configured := by
  have hena : Moves Call.configure.writes s s.enableAll :=
    .pass (fun s e ep _ => .modifyCtrl s e _ e.isCtrl_ctrlReg) s
  refine hena.trans (.pass (fun s e ep hep => ?_) s.enableAll)
  unfold Sys.primeTurn
  split
  · exact .arm hep (Nat.le_refl _)
  · exact .refl

theorem moves_polled : Moves Call.poll.writes s s.polled := by
  have hui : Moves Call.poll.writes s (s.lower .USBSTS (USBSTS.UI.put 1)) :=
    .lower s _ (Or.inl rfl) (by simp)
  have hout := hui.trans (.single (.signal ((rxHalf.get (s.reg .ENDPTCOMPLETE)).setWidth 16)))
  exact hout.trans (.lower _ _ (Or.inr rfl) (by simp))

/-- Every call is made of moves that stay within its registers. -/
theorem Call.moves {c : Call} (h : s.WF) (hrun : run c.prog s = ⟨.ok r, s', o⟩) :
    Moves c.writes s s' := by
  cases c with
  | poll =>
    obtain ⟨-, ⟨-, -, rfl⟩ | ⟨-, -, -, rfl⟩ | ⟨-, -, -, rfl⟩⟩ := poll_leaves hrun
    · exact .lower s _ (Or.inl rfl) (by simp)
    · exact moves_polled
    · exact .refl
  | read addr buf => exact moves_read h hrun
  | write addr buf => exact moves_write h hrun
  | setStalled addr stalled => exact moves_setStalled h hrun
  | isStalled addr =>
    obtain ⟨-, rfl, -⟩ := isStalled_leaves h hrun
    exact .refl
  | reset debugAssertions =>
    obtain ⟨rfl, -⟩ := reset_leaves h hrun
    exact moves_reset
  | configure =>
    obtain ⟨rfl, -⟩ := configure_leaves h hrun
    exact moves_configure
  | setDeviceAddress addr =>
    obtain ⟨rfl, -⟩ := setDeviceAddress_leaves hrun
    exact .setReg s _ rfl (by simp) (by simp)
  | enable =>
    obtain ⟨rfl, -⟩ := enable_leaves h hrun
    refine .setReg s _ rfl (by simp) fun _ => ?_
    rw [Field.getLsbD_set _ _ _ (by decide), if_neg (by decide), h.rst]
  | enableZlt addr =>
    obtain ⟨-, ⟨-, rfl⟩ | ⟨e, ep, -, -, rfl⟩⟩ := enableZlt_leaves h hrun
    · exact .refl
    · exact .single (.capabilities e.slot _)
  | setInterrupts interrupts =>
    obtain ⟨rfl, -⟩ := setInterrupts_leaves hrun
    exact .setReg s _ rfl (by simp) (by simp)

/-- A call leaves the registers alone that it does not write. -/
theorem Call.reg_kept {c : Call} {r : Ret} {x : Reg} (h : s.WF) (hx : ¬ c.writes x)
    (hstat : x ≠ .ENDPTSTAT) (hrun : run c.prog s = ⟨.ok r, s', o⟩) : s'.reg x = s.reg x :=
  (Call.moves h hrun).reg_kept hx hstat

end Calls

end ImxrtUsbd
