/-
  ImxrtUsbd.HalfControl

  One half of an endpoint control register.

  - `HalfControl` is what the driver configures of a half: its stall bit, its
    type and its enable bit.  `ControlOp` is what can be done to it.
  - `Sys.control` reads it off the register, and `control_modifyCtrl` says that a
    read-modify-write of the register is a `ControlOp` of one half.
-/
import ImxrtUsbd.EndpointSpec

namespace ImxrtUsbd

open Lib

/-! ## One half -/

/-- What is configured of one half. -/
structure HalfControl where
  stall : Bool
  type : Word
  enable : Bool
  deriving DecidableEq

/-- A half as it comes out of the controller reset. -/
def HalfControl.off : HalfControl := ⟨false, 0, false⟩

/-- What the driver does to a half. -/
inductive ControlOp where
  /-- `Endpoint::set_stalled` -/
  | stall (b : Bool)
  /-- `Endpoint::initialize` -/
  | disable
  /-- `Endpoint::enable` -/
  | enable (kind : EndpointType)

def ControlOp.apply : ControlOp → HalfControl → HalfControl
  | .stall b, c => { c with stall := b }
  | .disable, c => { c with type := intoRawEndpointType .Bulk, enable := false }
  | .enable kind, c => { c with type := intoRawEndpointType kind, enable := true }

namespace EpId

/-- The fields of the half in its control register. -/
def stallField (e : EpId) : Field :=
  match e.dir with
  | .In => ENDPTCTRL.TXS
  | .Out => ENDPTCTRL.RXS

def typeField (e : EpId) : Field :=
  match e.dir with
  | .In => ENDPTCTRL.TXT
  | .Out => ENDPTCTRL.RXT

def toggleField (e : EpId) : Field :=
  match e.dir with
  | .In => ENDPTCTRL.TXR
  | .Out => ENDPTCTRL.RXR

def enableField (e : EpId) : Field :=
  match e.dir with
  | .In => ENDPTCTRL.TXE
  | .Out => ENDPTCTRL.RXE

/-- The fields that are kept. -/
def fields (e : EpId) : List Field := [e.stallField, e.typeField, e.enableField]

end EpId

/-- The fields an operation writes. -/
def ControlOp.writes (e : EpId) : ControlOp → List (Field × Word)
  | .stall b => [(e.stallField, if b then 1 else 0)]
  | .disable => [(e.enableField, 0), (e.typeField, intoRawEndpointType .Bulk)]
  | .enable kind =>
    [(e.enableField, 1), (e.toggleField, 1), (e.typeField, intoRawEndpointType kind)]

namespace Sys

/-- The type field of the half. -/
def halfType (s : Sys) (e : EpId) : Word := e.typeField.get (s.reg e.ctrlReg)

/-- What is configured of the half. -/
def control (s : Sys) (e : EpId) : HalfControl where
  stall := e.stallField.get (s.reg e.ctrlReg) == 1
  type := s.halfType e
  enable := e.enableField.get (s.reg e.ctrlReg) == 1

variable {s s' : Sys} {e f : EpId}

theorem control_congr (h : s'.reg e.ctrlReg = s.reg e.ctrlReg) : s'.control e = s.control e := by
  rw [control, halfType, h]
  rfl

theorem stalled_eq (s : Sys) (e : EpId) : s.stalled e = (s.control e).stall := by
  obtain ⟨d, n⟩ := e
  cases d <;> rfl

theorem enabled_eq_enable (s : Sys) {e : EpId} (h : e.num.val ≠ 0) :
    s.enabled e = (s.control e).enable := by
  obtain ⟨d, n⟩ := e
  have hbeq : (n.val == 0) = false := by simpa using h
  rw [enabled, hbeq, Bool.false_or]
  cases d <;> rfl

theorem setStall_eq (s : Sys) (e : EpId) (stall : Bool) :
    s.setStall e stall = s.modifyCtrl e ((ControlOp.stall stall).writes e) := by
  obtain ⟨d, n⟩ := e
  cases d <;> rfl

theorem disableEp_eq (s : Sys) (e : EpId) :
    s.disableEp e = s.modifyCtrl e (ControlOp.disable.writes e) := by
  obtain ⟨d, n⟩ := e
  cases d <;> rfl

theorem enableEp_eq (s : Sys) (e : EpId) (kind : EndpointType) :
    s.enableEp e kind = s.modifyCtrl e ((ControlOp.enable kind).writes e) := by
  obtain ⟨d, n⟩ := e
  cases d <;> rfl

end Sys

/-! ## Operations -/

theorem intoRawEndpointType_lt (kind : EndpointType) : (intoRawEndpointType kind).toNat < 4 := by
  have h : (kind.toBmAttributes &&& 0b11#8).toNat ≤ 3 := by
    rw [BitVec.toNat_and]
    exact Nat.and_le_right
  rw [intoRawEndpointType, BitVec.toNat_setWidth]
  omega

/-- No field that is kept is a toggle reset. -/
theorem EpId.toggleResetBits_field {e : EpId} {g : Field} (hg : g ∈ e.fields) :
    ∀ j, g.Has j → Sys.toggleResetBits.getLsbD j = false := by
  have hall : ∀ d : UsbDirection, ∀ g ∈ (⟨d, 0⟩ : EpId).fields, ∀ j < 32,
      g.Has j → Sys.toggleResetBits.getLsbD j = false := by
    intro d
    cases d <;> decide
  intro j hj
  by_cases h32 : j < 32
  · exact hall e.dir g hg j h32 hj
  · exact BitVec.getLsbD_of_ge _ _ (Nat.le_of_not_lt h32)

/-- A field that shares no bit with those written is as it was. -/
theorem get_setFields_of_disjoint {g : Field} {fs : List (Field × Word)}
    (h : ∀ fx ∈ fs, g.Disjoint fx.1) (v : Word) : g.get (setFields fs v) = g.get v := by
  unfold setFields
  induction fs generalizing v with
  | nil => rfl
  | cons fx fs ih =>
    rw [List.foldl_cons, ih fun fy hfy => h fy (List.mem_cons_of_mem _ hfy),
      Field.get_set_of_disjoint _ _ _ _ (h fx (List.mem_cons_self ..))]

section Modify

variable {s t : Sys} {e f : EpId} {op : ControlOp}

theorem ControlOp.field_of_mem_writes {fx : Field × Word} (h : fx ∈ op.writes e) :
    fx.1 ∈ e.toggleField :: e.fields := by
  cases op <;> simp only [writes, List.mem_cons, List.not_mem_nil, or_false] at h
  · subst h
    simp [EpId.fields]
  · rcases h with rfl | rfl <;> simp [EpId.fields]
  · rcases h with rfl | rfl | rfl <;> simp [EpId.fields]

/-- Writing the fields of one half leaves those of the other alone. -/
theorem get_writes_of_ne (h : f.dir ≠ e.dir) {g : Field} (hg : g ∈ f.fields) (v : Word) :
    g.get (setFields (op.writes e) v) = g.get v := by
  have hne : ∀ d d' : UsbDirection, d ≠ d' → ∀ g ∈ (⟨d, 0⟩ : EpId).fields,
      ∀ k ∈ (⟨d', 0⟩ : EpId).toggleField :: (⟨d', 0⟩ : EpId).fields, g.Disjoint k := by
    intro d d'
    cases d <;> cases d' <;> decide
  exact get_setFields_of_disjoint
    (fun fx hfx => hne f.dir e.dir h g hg fx.1 (ControlOp.field_of_mem_writes hfx)) v

/-- Each field of a half keeps clear of the others. -/
theorem EpId.fields_disjoint (e : EpId) :
    (∀ g ∈ [e.typeField, e.toggleField, e.enableField], e.stallField.Disjoint g) ∧
      (∀ g ∈ [e.stallField, e.toggleField, e.enableField], e.typeField.Disjoint g) ∧
      ∀ g ∈ [e.stallField, e.typeField, e.toggleField], e.enableField.Disjoint g := by
  obtain ⟨d, n⟩ := e
  cases d <;> decide +revert

/-- Where the fields of a half lie. -/
theorem EpId.fields_width (e : EpId) :
    e.stallField.width = 1 ∧ e.typeField.width = 2 ∧ e.enableField.width = 1 ∧
      ∀ g ∈ e.fields, g.offset + g.width ≤ 32 := by
  obtain ⟨d, n⟩ := e
  cases d <;> decide +revert

/-- What an operation writes to its own half. -/
theorem control_writes (e : EpId) (op : ControlOp) (v : Word) :
    (⟨e.stallField.get (setFields (op.writes e) v) == 1,
        e.typeField.get (setFields (op.writes e) v),
        e.enableField.get (setFields (op.writes e) v) == 1⟩ : HalfControl) =
      op.apply ⟨e.stallField.get v == 1, e.typeField.get v, e.enableField.get v == 1⟩ := by
  obtain ⟨hstall, htype, henable⟩ := e.fields_disjoint
  obtain ⟨hws, hwt, hwe, hle⟩ := e.fields_width
  simp only [List.forall_mem_cons] at hstall htype henable
  -- whatever is written before it, the type field is written last
  have hlast : ∀ (kind : EndpointType) (u : Word),
      e.typeField.get (e.typeField.set (intoRawEndpointType kind) u) = intoRawEndpointType kind :=
    fun kind u => Field.get_set _ u (hle _ (by simp [EpId.fields]))
      (by rw [hwt]; exact intoRawEndpointType_lt kind)
  have hkeep : ∀ (g : Field) (op : ControlOp), (∀ fx ∈ op.writes e, g.Disjoint fx.1) →
      g.get (setFields (op.writes e) v) = g.get v := fun g op h => get_setFields_of_disjoint h v
  cases op with
  | stall b =>
    have hs : e.stallField.get (setFields ((ControlOp.stall b).writes e) v) =
        if b then 1 else 0 :=
      Field.get_set _ v (hle _ (by simp [EpId.fields])) (by rw [hws]; cases b <;> simp)
    have ht := hkeep e.typeField (.stall b) (by simp [ControlOp.writes, htype])
    have he := hkeep e.enableField (.stall b) (by simp [ControlOp.writes, henable])
    rw [hs, ht, he]
    cases b <;> rfl
  | disable =>
    have hs := hkeep e.stallField .disable (by simp [ControlOp.writes, hstall])
    have ht : e.typeField.get (setFields (ControlOp.disable.writes e) v) =
        intoRawEndpointType .Bulk := hlast _ _
    have he : e.enableField.get (setFields (ControlOp.disable.writes e) v) = 0 :=
      (Field.get_set_of_disjoint _ _ _ _ henable.2.1).trans
        (Field.get_set _ v (hle _ (by simp [EpId.fields])) (by rw [hwe]; simp))
    rw [hs, ht, he]
    rfl
  | enable kind =>
    have hs := hkeep e.stallField (.enable kind) (by simp [ControlOp.writes, hstall])
    have ht : e.typeField.get (setFields ((ControlOp.enable kind).writes e) v) =
        intoRawEndpointType kind := hlast _ _
    have he : e.enableField.get (setFields ((ControlOp.enable kind).writes e) v) = 1 :=
      ((Field.get_set_of_disjoint _ _ _ _ henable.2.1).trans
        (Field.get_set_of_disjoint _ _ _ _ henable.2.2.1)).trans
        (Field.get_set _ v (hle _ (by simp [EpId.fields])) (by rw [hwe]; simp))
    rw [hs, ht, he]
    rfl

/-- A read-modify-write of the register is an operation on one half. -/
theorem control_modifyCtrl (s : Sys) (e f : EpId) (op : ControlOp) :
    (s.modifyCtrl e (op.writes e)).control f =
      if f = e then op.apply (s.control e) else s.control f := by
  have hclear : ∀ g ∈ f.fields, ∀ v : Word, g.get (v &&& ~~~ Sys.toggleResetBits) = g.get v :=
    fun g hg v => Field.get_and_not g (EpId.toggleResetBits_field hg) v
  have hs := hclear f.stallField (by simp [EpId.fields])
  have ht := hclear f.typeField (by simp [EpId.fields])
  have he := hclear f.enableField (by simp [EpId.fields])
  by_cases hnum : f.ctrlReg = e.ctrlReg
  · have hreg : (s.modifyCtrl e (op.writes e)).reg f.ctrlReg =
        setFields (op.writes e) (s.reg e.ctrlReg) &&& ~~~ Sys.toggleResetBits := by
      rw [Sys.modifyCtrl, hnum, Sys.reg_setReg_self]
    rw [Sys.control, Sys.halfType, hreg, hs, ht, he]
    split
    · rename_i hfe
      subst hfe
      exact control_writes f op _
    · rename_i hfe
      -- the other half of the same register
      have hdir : f.dir ≠ e.dir := by
        intro hdir
        obtain ⟨fd, fn⟩ := f
        obtain ⟨ed, en⟩ := e
        have hn : fn = en := EpId.ctrlReg_inj.mp hnum
        have hd : fd = ed := hdir
        exact hfe (by rw [hn, hd])
      rw [get_writes_of_ne hdir (by simp [EpId.fields]),
        get_writes_of_ne hdir (by simp [EpId.fields]),
        get_writes_of_ne hdir (by simp [EpId.fields]), Sys.control, Sys.halfType, hnum]
  · have hfe : f ≠ e := by
      rintro rfl
      exact hnum rfl
    rw [if_neg hfe]
    exact Sys.control_congr (Sys.reg_setReg_of_ne _ _ hnum)

end Modify

end ImxrtUsbd
