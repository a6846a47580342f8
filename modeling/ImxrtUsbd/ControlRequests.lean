/-
  ImxrtUsbd.ControlRequests

  A control request and the response to it, with the controller at work between
  any two accesses of every call.

  There is one triple for each function, with `Watched` before and after.
  `setup_served_iff` concludes when a read that returns a SETUP packet leaves the
  control endpoint ready for the new request.
-/
import ImxrtUsbd.ControlWatch

namespace ImxrtUsbd

open Lib

/-! ## Functions -/

section Functions

variable {τ : Prop} {A : EndpointAllocator} {n size : Nat} {k w : Bool} {ep : Endpoint}
  {e : EpId} {P : ControlWatch → Sys → Prop}

/-- `modify_reg!` of the command register, without a controller reset. -/
theorem modifyUsbcmd_triple (f : Field) (x : Word) (hf : ¬ f.Has 1) :
    (control w).Triple (Watched A n k) (modifyReg .USBCMD [(f, x)]) fun _ => Watched A n k := by
  have hq := steady_watched A n k
  refine .bind (R := fun v d s => v.getLsbD 1 = false ∧ Watched A n k d s)
    ((readReg_triple (hq.stable w) .USBCMD).weaken (fun _ _ h => h)
      fun v d s h => ⟨?_, h.2⟩) fun v =>
    .assume fun hv => .access (hq.stable w) fun d s h => h.command ?_
  · rw [h.1]
    exact h.2.noReset
  · rw [setFields, List.foldl_cons, List.foldl_nil, Field.getLsbD_set _ _ _ (by decide), if_neg hf]
    exact hv

/-! ### SETUP packets -/

/-- The latch tells whether a packet is flagged. -/
theorem hasSetup_triple (hat : ep.At .ep0Out) :
    (control w).Triple (Watched A n false) ep.hasSetup
      fun b d s => (b = true → Watched A n true d s) ∧ Watched A n false d s := by
  rw [Endpoint.hasSetup, hat.address, EpId.address_index]
  refine .bind (readReg_triple ((steady_watched A n false).stable w) .ENDPTSETUPSTAT) fun v =>
    .bind (bit32_triple _) fun bit => .assume fun hbit => .pure fun d s h => ⟨fun hb => ?_, h.2⟩
  rw [hbit, h.1, Field.and_bit_ne_zero _ (by decide)] at hb
  exact h.2.found hb

theorem readSetup_triple :
    (control w).Triple (Watched A n true) ep.readSetup fun _ => Watched A n true := by
  have hq := steady_watched A n true
  refine .bind (bit32_triple _) fun bit => .assume fun _ =>
    .bind (R := fun _ => Watched A n true)
      (.access (hq.stable w) fun d s h => h.clearLatch (w := w) bit) fun _ => .repeatUntil ?_
  -- a pass of the loop
  have hload : ∀ high, (control w).Triple (Watched A n true) (loadSetup ep.qh high)
      fun _ => Watched A n true := fun high =>
    .access (hq.stable w) fun d s h =>
      h.loadSetup (w := w) high (usbAct (.loadSetup ep.qh high) s).1
  refine .bind (modifyUsbcmd_triple USBCMD.SUTW 1 (by decide)) fun _ =>
    .bind (R := fun _ => Watched A n true)
      (.bind (hload false) fun _ => .bind (hload true) fun _ => .pure fun _ _ h => h) fun setup =>
    .bind (calm_triple hq (only_readField _ _)) fun sutw => ?_
  show (control w).Triple _ (if _ then _ else _) _
  split
  · exact .bind (modifyUsbcmd_triple USBCMD.SUTW 0 (by decide)) fun _ =>
      .pure fun d s h => ⟨fun _ _ => h, by rintro ⟨⟩⟩
  · exact .pure fun d s h => ⟨by rintro _ ⟨⟩, fun _ => h⟩

/-! ### Arming -/

/-- The bit of the endpoint is written to `ENDPTPRIME`. -/
theorem prime_triple {P' : ControlWatch → Sys → Prop} (hP : Steady False P) (hP' : Steady False P')
    (hat : ep.At e)
    (h : ∀ d s, P d s → P' (d.see w (.access (.wrote .ENDPTPRIME e.mask)))
      (s.writeReg .ENDPTPRIME e.mask)) :
    (control w).Triple P (do
      let bit ← bit32 ep.address.index
      match ep.address.direction with
      | .In => writeField .ENDPTPRIME ENDPTPRIME.PETB bit
      | .Out => writeField .ENDPTPRIME ENDPTPRIME.PERB bit
      waitZero .ENDPTPRIME) fun _ => P' := by
  refine .bind (bit32_triple _) fun bit => .assume fun hbit => ?_
  have hhalf : ep.half.put bit = e.mask := by
    rw [hbit]
    exact hat.half_put
  have hwait : (control w).Triple P' (waitZero .ENDPTPRIME) fun _ => P' :=
    calm_triple hP' (only_waitZero _)
  dsimp only
  cases hdir : ep.address.direction <;> rw [Endpoint.half, hdir] at hhalf <;>
    exact .bind (R := fun _ => P') (.access (hP.stable w) fun d s hps => by
      rw [hhalf]
      exact h d s hps) fun _ => hwait

/-- The size of a transfer that is not armed yet. -/
theorem setBuffer_triple (hsize : size < 2 ^ 15) (ptr : Nat) :
    (control w).Triple (fun d s => Watched A n k d s ∧ OutIdle d s)
      ((TdRef.list EpId.ep0Out.slot).setBuffer ptr size)
      fun _ d s => Watched A n k d s ∧ OutPrepared size d s := by
  have hq := steady_idle A n k
  have hq' := steady_prepared A n k size
  have hstore : ∀ t w v, w ≠ .TOKEN → Access.Calm False Unit (.storeTd t w v) :=
    fun _ _ _ hw _ hw' => absurd hw' hw
  refine .bind (.bind (calm_triple hq (.access trivial)) fun v =>
      .access (Q := fun _ d s => Watched A n k d s ∧ OutPrepared size d s) (hq.stable w)
        fun d s h => ?_) fun _ =>
    .bind (calm_triple hq' (.access (hstore _ _ _ (by simp)))) fun _ => calm_triple hq' ?_
  · -- the size is stored first
    have hfield : ∀ t : Td, (t.put .TOKEN
        (TOKEN.TOTAL_BYTES.set (BitVec.ofNat 32 size) v)).totalBytes = size := by
      intro t
      show (TOKEN.TOTAL_BYTES.get (TOKEN.TOTAL_BYTES.set _ v)).toNat = size
      rw [Field.get_set_self _ _ _ (by decide), BitVec.toNat_ofNat]
      show size % 2 ^ 32 % 2 ^ 15 = size
      omega
    have hcalm : Access.Calm True Unit (.storeTd (.list EpId.ep0Out.slot) .TOKEN
        (TOKEN.TOTAL_BYTES.set (BitVec.ofNat 32 size) v)) := fun _ _ => trivial
    obtain ⟨hwatched, hidle⟩ := hq.same d s _ (calm_same hcalm s) h
    refine ⟨hwatched, hidle, ?_⟩
    show (Function.update s.td EpId.ep0Out.slot _ EpId.ep0Out.slot).totalBytes = size
    rw [Function.update_self]
    exact hfield _
  · show Prog.Only _ (if _ then _ else _ : UsbM Unit)
    split
    · exact .bind (.access (hstore _ _ _ (by simp))) fun _ => .each (fun idx =>
        .bind (.access trivial) fun _ => .bind (only_addU32 _ _) fun _ =>
          .access (hstore _ _ _ (by simp))) _
    · exact .each (fun idx => .access (hstore _ _ _ (by simp))) _

/-- Other fields of the token are stored, and the size stays. -/
theorem modifyToken_triple {f : Field} (x : Word) (hf : TOKEN.TOTAL_BYTES.Disjoint f) :
    (control w).Triple (fun d s => Watched A n k d s ∧ OutPrepared size d s)
      (modifyTd (.list EpId.ep0Out.slot) .TOKEN f x)
      fun _ d s => Watched A n k d s ∧ OutPrepared size d s := by
  have hq := steady_prepared A n k size
  refine .bind (R := fun v d s => (TOKEN.TOTAL_BYTES.get v).toNat = size ∧
      Watched A n k d s ∧ OutPrepared size d s)
    (.access (hq.stable w) fun d s h => ⟨h.2.2, h⟩) fun v => .assume fun hv =>
      .access (hq.stable w) fun d s h => ?_
  have hcalm : Access.Calm True Unit (.storeTd (.list EpId.ep0Out.slot) .TOKEN (f.set x v)) :=
    fun _ _ => trivial
  obtain ⟨hwatched, hidle⟩ :=
    (steady_idle A n k).same d s _ (calm_same hcalm s) ⟨h.1, h.2.1⟩
  refine ⟨hwatched, hidle, ?_⟩
  show (Function.update s.td EpId.ep0Out.slot _ EpId.ep0Out.slot).totalBytes = size
  rw [Function.update_self]
  show (TOKEN.TOTAL_BYTES.get (f.set x v)).toNat = size
  rw [Field.get_set_of_disjoint _ _ _ _ hf]
  exact hv

/-- The OUT half is armed when it was not. -/
theorem scheduleOut_triple (hat : ep.At .ep0Out) (hsize : size < 2 ^ 15)
    (hw : w = true ∧ size = 0 ∧ k = false ∨ w = false ∧ size = n) :
    (control w).Triple (fun d s => Watched A n k d s ∧ OutIdle d s) (ep.scheduleTransfer size)
      fun _ d s => Watched A n k d s ∧ OutWaits d s := by
  have hq := steady_idle A n k
  have hq' := steady_prepared A n k size
  have hover : Uses (Access.Calm False) (.overlay ep.qh) := calm_overlay _
  unfold Endpoint.scheduleTransfer
  rw [hat.td]
  -- the size is set first, and kept by what follows up to the prime
  refine .bind (calm_triple hq (.access fun _ _ => trivial)) fun _ =>
    .bind (setBuffer_triple hsize _) fun _ =>
    .bind (modifyToken_triple _ (by decide)) fun _ =>
    .bind (modifyToken_triple _ (by decide)) fun _ =>
    .bind (calm_triple hq' (only_cleanSelf calm_maintains _)) fun _ =>
    .bind (calm_triple hq' (.access trivial)) fun _ =>
    .bind (calm_triple hq' (.access (hover.store _ _))) fun _ =>
    .bind (calm_triple hq' (only_modifyTd hover _ _ _)) fun _ =>
    .bind (calm_triple hq' (only_cleanSelf calm_maintains _)) fun _ => ?_
  refine prime_triple hq' ((steady_watched A n k).and steady_outWaits) hat
    fun d s h => ⟨h.1.armOut h.2 hw, fun _ => ?_⟩
  rw [s.primed_prime]
  exact Bool.or_true _

/-- The IN half is armed. -/
theorem scheduleIn_triple (hat : ep.At .ep0In) :
    (control w).Triple (Watched A n false) (ep.scheduleTransfer size)
      fun _ => Watched A n false := by
  have hq := steady_watched A n false
  have hlist : Uses (Access.Calm False) (.list ep.td) := by
    rw [hat.td]
    exact calm_list (by decide)
  have hover : Uses (Access.Calm False) (.overlay ep.qh) := calm_overlay _
  refine .bind (calm_triple hq (.access (hlist.store _ _))) fun _ =>
    .bind (calm_triple hq (only_setBuffer hlist _ _)) fun _ =>
    .bind (calm_triple hq (only_modifyTd hlist _ _ _)) fun _ =>
    .bind (calm_triple hq (only_modifyTd hlist _ _ _)) fun _ =>
    .bind (calm_triple hq (only_cleanSelf calm_maintains _)) fun _ =>
    .bind (calm_triple hq (.access trivial)) fun _ =>
    .bind (calm_triple hq (.access (hover.store _ _))) fun _ =>
    .bind (calm_triple hq (only_modifyTd hover _ _ _)) fun _ =>
    .bind (calm_triple hq (only_cleanSelf calm_maintains _)) fun _ =>
    prime_triple hq hq hat fun _ _ h => h.armIn

/-! ### The control endpoint -/

theorem maxPacketLen_triple (hP : Steady τ P) (hn : ∀ d s, P d s → s.maxPacketLen .ep0Out = n)
    (hat : ep.At .ep0Out) :
    (control w).Triple P ep.maxPacketLen fun v d s => v = n ∧ P d s := by
  rw [Endpoint.maxPacketLen, Qh.maxPacketLen, hat.qh]
  refine .bind (R := fun v d s => (CAPABILITIES.MAXIMUM_PACKET_LENGTH.get v).toNat = n ∧ P d s)
    (.access (hP.stable w) fun d s h => ⟨hn d s h, h⟩) fun v => .pure fun _ _ h => h

/-- The OUT half is found idle, or it waits. -/
theorem outPrimed_triple (hat : ep.At .ep0Out) :
    (control w).Triple (Watched A n k) ep.isPrimed fun b d s =>
      (b = true → OutWaits d s) ∧ (b = false → OutIdle d s) ∧ Watched A n k d s :=
  (isPrimed_triple ((steady_watched A n k).stable w) hat).weaken (fun _ _ h => h) fun _ _ _ h =>
    ⟨fun hb _ => h.1.symm.trans hb, fun hb => h.1.symm.trans hb, h.2⟩

/-- It is armed for a full packet. -/
theorem rearmOut_triple {α : Type} {rest : UsbM α} {Q : α → ControlWatch → Sys → Prop}
    (hat : ep.At .ep0Out) (hn : n < 2 ^ 15)
    (hrest : (control false).Triple (fun d s => Watched A n k d s ∧ OutWaits d s) rest Q) :
    (control false).Triple (fun d s => Watched A n k d s ∧ OutIdle d s) (do
      let maxPacketLen ← ep.maxPacketLen
      ep.scheduleTransfer maxPacketLen
      rest) Q := by
  refine .bind (maxPacketLen_triple (steady_idle A n k) (fun _ _ h => h.1.packetLen) hat)
    fun v => .assume fun hv => ?_
  subst hv
  exact .bind (scheduleOut_triple hat hn (Or.inr ⟨rfl, rfl⟩)) fun _ => hrest

/-- A read that found a packet takes it, and leaves the OUT half armed. -/
theorem takeSetup_triple (hat : ep.At .ep0Out) (hn : n < 2 ^ 15) (taken : Nat × List Byte) :
    (control false).Triple (Watched A n true) (do
      if !(← ep.isPrimed) then
        ep.clearNack
        let maxPacketLen ← ep.maxPacketLen
        ep.scheduleTransfer maxPacketLen
      return .ok taken : UsbM (Except UsbError (Nat × List Byte)))
      fun _ d s => Watched A n true d s ∧ OutWaits d s := by
  refine .bind (outPrimed_triple hat) fun primed => ?_
  show (control false).Triple _ (if _ then _ else _) _
  split
  · rename_i hb
    rw [Bool.not_eq_true'] at hb
    refine .bind (R := fun _ d s => Watched A n true d s ∧ OutIdle d s) ?_ fun _ =>
      rearmOut_triple hat hn (.pure fun _ _ h => h)
    exact (calm_triple (steady_idle A n true) (only_clearNack (calm_writeReg (by simp)))).weaken
      (fun _ _ h => ⟨h.2.2, h.2.1 hb⟩) fun _ _ _ h => h
  · rename_i hb
    rw [Bool.not_eq_true, Bool.not_eq_false'] at hb
    exact .pure fun _ _ h => ⟨h.2.2, h.1 hb⟩

/-- A read of data. -/
theorem ctrl0Data_triple (hat : ep.At .ep0Out) (hn : n < 2 ^ 15) (buffer : List Byte) :
    (control false).Triple (Watched A n false) (do
      match ← ep.checkErrors with
      | .error e => return .error e
      | .ok () =>
        if ← ep.isPrimed then
          return .error .WouldBlock
        else
          ep.clearComplete
          ep.clearNack
          let read ← ep.read buffer
          let maxPacketLen ← ep.maxPacketLen
          ep.scheduleTransfer maxPacketLen
          return .ok read : UsbM (Except UsbError (Nat × List Byte)))
      fun _ => Watched A n false := by
  have hq := steady_watched A n false
  have hq' := steady_idle A n false
  refine .bind (calm_triple hq (only_checkErrors fun _ => trivial)) fun errors => ?_
  cases errors with
  | error e => exact .pure fun _ _ h => h
  | ok _ =>
    refine .bind (outPrimed_triple hat) fun primed => ?_
    show (control false).Triple _ (if _ then _ else _) _
    split
    · exact .pure fun _ _ h => h.2.2
    · rename_i hb
      rw [Bool.not_eq_true] at hb
      -- the OUT half is not armed from here to its prime
      refine .bind (R := fun _ d s => Watched A n false d s ∧ OutIdle d s) ?_ fun _ =>
        .bind (calm_triple hq' (only_clearNack (calm_writeReg (by simp)))) fun _ =>
        .bind (calm_triple hq' (only_read buffer (fun _ => trivial)
          (only_volatileRead (fun _ => trivial) _))) fun _ =>
        rearmOut_triple hat hn (.pure fun _ _ h => h.1)
      exact (calm_triple hq' (only_clearComplete (calm_writeReg (by simp)))).weaken
        (fun _ _ h => ⟨h.2.2, h.2.1 hb⟩) fun _ _ _ h => h

/-- A read either finds no packet, or takes one and leaves the OUT half armed. -/
theorem ctrl0Read_triple (hin : A.InPlace) (hn : n < 2 ^ 15) (buffer : List Byte) :
    (control false).Triple (Watched A n false) (Driver.ctrl0Read buffer) fun _ d s =>
      Watched A n false d s ∨ Watched A n true d s ∧ OutWaits d s := by
  have hq := steady_watched A n false
  refine lookup_triple (hq.stable _) (fun _ _ h => h.alloc) hin fun ep e haddr hat => ?_
  obtain rfl : e = .ep0Out := EpId.address_inj.mp haddr.symm
  refine .bind (hasSetup_triple hat) fun pending => ?_
  show (control false).Triple _ (if _ then _ else _) _
  split
  · rename_i hb
    rw [Bool.and_eq_true] at hb
    refine .bind (readSetup_triple.weaken (fun _ _ h => h.1 hb.1) fun _ _ _ h => h) fun setup => ?_
    exact (takeSetup_triple hat hn _).weaken (fun _ _ h => h) fun _ _ _ h => Or.inr h
  · exact (ctrl0Data_triple hat hn buffer).weaken (fun _ _ h => h.2) fun _ _ _ h => Or.inl h

/-- The end of a write arms both halves, the OUT half for the status stage. -/
theorem ctrl0Write_triple (hin : A.InPlace) (buffer : List Byte) :
    (control true).Triple (Watched A n false) (Driver.ctrl0Write buffer)
      fun _ => Watched A n false := by
  have hq := steady_watched A n false
  have hq' := steady_idle A n false
  refine lookup_triple (hq.stable _) (fun _ _ h => h.alloc) hin fun ctrlIn e haddr hatIn => ?_
  obtain rfl : e = .ep0In := EpId.address_inj.mp haddr.symm
  refine .bind (calm_triple hq (only_checkErrors fun _ => trivial)) fun errors => ?_
  cases errors with
  | error e => exact .pure fun _ _ h => h
  | ok _ =>
    refine .bind (calm_triple hq (only_isPrimed ctrlIn)) fun primedIn => ?_
    show (control true).Triple _ (if _ then _ else _) _
    split
    · exact .pure fun _ _ h => h
    -- the response, then a transfer of no bytes unless the OUT half is primed
    · refine .bind (calm_triple hq (only_clearNack (calm_writeReg (by simp)))) fun _ =>
        .bind (calm_triple hq (only_write buffer (fun _ => trivial) fun _ _ => trivial)) fun _ =>
        .bind (scheduleIn_triple hatIn) fun _ =>
        lookup_triple (hq.stable _) (fun _ _ h => h.alloc) hin fun ctrlOut e haddr hat => ?_
      obtain rfl : e = .ep0Out := EpId.address_inj.mp haddr.symm
      refine .bind (outPrimed_triple hat) fun primed => ?_
      show (control true).Triple _ (if _ then _ else _) _
      split
      · rename_i hb
        rw [Bool.not_eq_true'] at hb
        refine .bind (R := fun _ d s => Watched A n false d s ∧ OutIdle d s) ?_ fun _ =>
          .bind (calm_triple hq' (only_clearNack (calm_writeReg (by simp)))) fun _ =>
          .bind (scheduleOut_triple hat (by decide) (Or.inl ⟨rfl, rfl, rfl⟩)) fun _ =>
          .pure fun _ _ h => h.1
        exact (calm_triple hq' (only_clearComplete (calm_writeReg (by simp)))).weaken
          (fun _ _ h => ⟨h.2.2, h.2.1 hb⟩) fun _ _ _ h => h
      · exact .pure fun _ _ h => h.2.2

/-! ### The other functions -/

/-- An unstall arms the OUT half for a full packet. -/
theorem epStall_triple (hin : A.InPlace) (hn : n < 2 ^ 15) (stall : Bool)
    (addr : EndpointAddress) :
    (control false).Triple (Watched A n false) (Driver.epStall stall addr)
      fun _ => Watched A n false := by
  have hq := steady_watched A n false
  refine lookup_triple (hq.stable _) (fun _ _ h => h.alloc) hin fun ep e haddr hat => ?_
  refine .bind (calm_triple hq (only_setStalled stall calm_ctrl)) fun _ => ?_
  by_cases h0 : e.num = 0
  · show (control false).Triple _ (if _ then _ else _) _
    split
    · rename_i hout
      rw [Bool.and_eq_true, haddr, EpId.address_direction, beq_iff_eq] at hout
      obtain rfl : e = .ep0Out := by
        obtain ⟨dir, m⟩ := e
        rw [show dir = .Out from hout.2, show m = 0 from h0]
        rfl
      -- endpoint 0 gets a transfer of a whole packet
      refine .bind (outPrimed_triple hat) fun primed => ?_
      show (control false).Triple _ (if _ then _ else _) _
      split
      · rename_i hb
        rw [Bool.not_eq_true'] at hb
        refine .bind (R := fun v d s => v = n ∧ Watched A n false d s ∧ OutIdle d s) ?_ fun v =>
          .assume fun hv => ?_
        · exact (maxPacketLen_triple (steady_idle A n false) (fun _ _ h => h.1.packetLen)
            hat).weaken (fun _ _ h => ⟨h.2.2, h.2.1 hb⟩) fun _ _ _ h => h
        · subst hv
          exact (scheduleOut_triple hat hn (Or.inr ⟨rfl, rfl⟩)).weaken (fun _ _ h => h)
            fun _ _ _ h => h.1
      · exact .pure fun _ _ h => h.2.2
    · exact .pure fun _ _ h => h
  · exact calm_triple hq (only_rearm _ (calm_transfers hat h0).toArms)

/-- A bus reset flushes both halves. -/
theorem busReset_triple (debugAssertions : Bool) :
    (control false).Triple (Watched A n false) (Driver.busReset debugAssertions)
      fun _ => Watched A n false := by
  have hq := steady_watched A n false
  have hinit : (control false).Triple (Watched A n false) Driver.initializeEndpoints
      fun _ => Watched A n false :=
    calm_triple hq (only_forNonzeroEndpoints fun ep => only_initializeEp calm_ctrl)
  refine .bind (calm_triple hq (only_writeBack (calm_writeReg (by simp)))) fun _ =>
    .bind (calm_triple hq (only_writeBack (calm_writeReg (by simp)))) fun _ =>
    .bind (calm_triple hq (only_writeBack (calm_writeReg (by simp)))) fun _ =>
    .bind (calm_triple hq (.access (calm_writeReg (by simp) _))) fun _ =>
    .bind (calm_triple hq (only_waitZero _)) fun _ =>
    .bind (R := fun _ => Watched A n false)
      (.access (hq.stable false) fun d s h => h.flush (w := false) _) fun _ =>
    .bind (calm_triple hq (only_waitZero _)) fun _ => ?_
  show (control false).Triple _ (if _ then _ else _) _
  split
  · exact .bind (calm_triple hq (only_readField _ _)) fun pr =>
      .bind (calm_triple hq (.require _ _)) fun _ => hinit
  · exact hinit

/-- The endpoints that are primed are not the control endpoint. -/
theorem primeEndpoints_triple (hin : A.InPlace) :
    (control w).Triple (Watched A n k) Driver.primeEndpoints fun _ => Watched A n k := by
  have hq := steady_watched A n k
  refine .each (fun addr => ?_) _
  refine .bind (endpoint_triple (hq.stable _) (fun _ _ h => h.alloc) addr) fun found =>
    .assume fun hfound => ?_
  cases found with
  | none => exact .pure fun _ _ h => h
  | some ep =>
    obtain ⟨e, rfl, hcell⟩ := hfound ep rfl
    have hat := hin e ep hcell
    show (control w).Triple _ (if _ then _ else _) _
    split
    · rename_i h0
      rw [hat.address, EpId.address_index] at h0
      refine calm_triple hq (only_primeTurn (calm_transfers hat fun h => h0 ?_).toArms)
      rw [h]
      rfl
    · exact .pure fun _ _ h => h

theorem enableZlt_triple (addr : EndpointAddress) :
    (control w).Triple (Watched A n k) (Driver.enableZlt addr) fun _ => Watched A n k := by
  have hq := steady_watched A n k
  refine .bind (endpoint_triple (hq.stable _) (fun _ _ h => h.alloc) addr) fun found =>
    .assume fun _ => ?_
  cases found with
  | none => exact .pure fun _ _ h => h
  | some ep =>
    refine .bind (R := fun v d s => (EpId.ep0Out.slot = ep.qh →
        (CAPABILITIES.MAXIMUM_PACKET_LENGTH.get v).toNat = n) ∧ Watched A n k d s)
      (.access (hq.stable w) fun d s h => ⟨?_, h⟩) fun v => .assume fun hv =>
        .access (hq.stable w) fun d s h => h.capabilities fun hslot => ?_
    · intro hslot
      rw [← hslot]
      exact h.packetLen
    · rw [Field.get_set_of_disjoint _ _ _ _ (by decide)]
      exact hv hslot

/-- `poll` keeps the endpoints. -/
theorem poll_triple :
    (control w).Triple (Watched A n k) Driver.poll fun _ => Watched A n k := by
  have hq := steady_watched A n k
  have hw : ∀ r, r ≠ .USBCMD ∧ r ≠ .ENDPTSETUPSTAT ∧ r ≠ .ENDPTFLUSH ∧ r ≠ .ENDPTPRIME → ∀ v,
      (control w).Triple (Watched A n k) (writeReg r v) fun _ => Watched A n k :=
    fun _ hr v => calm_triple hq (.access (calm_writeReg hr v))
  refine .bind (calm_triple hq (.access trivial)) fun usbsts => ?_
  show (control w).Triple _ (if _ then _ else _) _
  split
  · exact .bind (hw _ (by simp) _) fun _ => .pure fun _ _ h => h
  · show (control w).Triple _ (if _ then _ else _) _
    split
    · refine .bind (hw _ (by simp) _) fun _ => .bind (calm_triple hq (only_readField _ _)) fun _ =>
        .bind (R := fun (dr : Driver) d s => dr.epAllocator = A ∧ Watched A n k d s)
          (.access (hq.stable w) fun d s h => ⟨h.alloc, h⟩) fun dr => .assume fun hdr =>
        .bind (R := fun _ => Watched A n k)
          (.access (hq.stable w) fun d s h => h.setDriver hdr) fun _ => ?_
      exact .bind (calm_triple hq (only_readField _ _)) fun _ => .bind (hw _ (by simp) _) fun _ =>
        .bind (calm_triple hq (.access trivial)) fun _ => .pure fun _ _ h => h
    · exact .pure fun _ _ h => h

/-! ### The bus adapter -/

/-- Transfers of an endpoint other than the control endpoint. -/
theorem epRead_triple (hin : A.InPlace) {addr : EndpointAddress} (h0 : addr.index ≠ 0)
    (buffer : List Byte) :
    (control w).Triple (Watched A n k) (Driver.epRead buffer addr) fun _ => Watched A n k := by
  have hq := steady_watched A n k
  refine lookup_triple (hq.stable _) (fun _ _ h => h.alloc) hin fun ep e haddr hat => ?_
  have hnum : e.num ≠ 0 := by
    rintro h
    rw [haddr, EpId.address_index, h] at h0
    exact h0 rfl
  exact calm_triple hq (only_epReadFrom (calm_transfers hat hnum)
    (only_read buffer (fun _ => trivial) (only_volatileRead (fun _ => trivial) _)))

theorem epWrite_triple (hin : A.InPlace) {addr : EndpointAddress} (h0 : addr.index ≠ 0)
    (buffer : List Byte) :
    (control w).Triple (Watched A n k) (Driver.epWrite buffer addr) fun _ => Watched A n k := by
  have hq := steady_watched A n k
  refine lookup_triple (hq.stable _) (fun _ _ h => h.alloc) hin fun ep e haddr hat => ?_
  have hnum : e.num ≠ 0 := by
    rintro h
    rw [haddr, EpId.address_index, h] at h0
    exact h0 rfl
  exact calm_triple hq (only_epWriteTo (calm_transfers hat hnum)
    (only_write buffer (fun _ => trivial) fun _ _ => trivial))

theorem busRead_triple (hin : A.InPlace) (hn : n < 2 ^ 15) (addr : EndpointAddress)
    (buf : List Byte) :
    (control false).Triple (Watched A n false) (BusAdapter.read addr buf) fun _ d s =>
      Watched A n false d s ∨ Watched A n true d s ∧ OutWaits d s := by
  refine .bind (calm_triple (steady_watched A n false) (only_isAllocated addr)) fun allocated => ?_
  show (control false).Triple _ (if _ then _ else _) _
  split
  · exact .pure fun _ _ h => Or.inl h
  · show (control false).Triple _ (if _ then _ else _) _
    split
    · exact ctrl0Read_triple hin hn buf
    · rename_i h0
      exact (epRead_triple hin h0 buf).weaken (fun _ _ h => h) fun _ _ _ h => Or.inl h

theorem busWrite_triple (hin : A.InPlace) (addr : EndpointAddress) (buf : List Byte) :
    (control true).Triple (Watched A n false) (BusAdapter.write addr buf)
      fun _ => Watched A n false := by
  refine .bind (calm_triple (steady_watched A n false) (only_isAllocated addr)) fun allocated => ?_
  show (control true).Triple _ (if _ then _ else _) _
  split
  · exact .pure fun _ _ h => h
  · show (control true).Triple _ (if _ then _ else _) _
    split
    · exact ctrl0Write_triple hin buf
    · rename_i h0
      exact epWrite_triple hin h0 buf

theorem busSetStalled_triple (hin : A.InPlace) (hn : n < 2 ^ 15) (addr : EndpointAddress)
    (stalled : Bool) :
    (control false).Triple (Watched A n false) (BusAdapter.setStalled addr stalled)
      fun _ => Watched A n false := by
  refine .bind (calm_triple (steady_watched A n false) (only_isAllocated addr)) fun allocated => ?_
  show (control false).Triple _ (if _ then _ else _) _
  split
  · exact epStall_triple hin hn stalled addr
  · exact .pure fun _ _ h => h

/-- Every call but a read. -/
theorem call_triple (hin : A.InPlace) (hn : n < 2 ^ 15) {c : Call}
    (hc : ∀ addr buf, c ≠ .read addr buf) :
    (control c.isWrite).Triple (Watched A n false) c.prog fun _ => Watched A n false := by
  have hq := steady_watched A n false
  cases c with
  | read addr buf => exact absurd rfl (hc addr buf)
  | poll => exact .bind poll_triple fun _ => .pure fun _ _ h => h
  | write addr buf => exact .bind (busWrite_triple hin addr buf) fun _ => .pure fun _ _ h => h
  | setStalled addr stalled =>
    exact .bind (busSetStalled_triple hin hn addr stalled) fun _ => .pure fun _ _ h => h
  | isStalled addr =>
    exact .bind (calm_triple hq (only_busIsStalled addr)) fun _ => .pure fun _ _ h => h
  | reset debugAssertions =>
    exact .bind (busReset_triple debugAssertions) fun _ => .pure fun _ _ h => h
  | configure =>
    -- enabling stays in the control registers
    have henable : (control false).Triple (Watched A n false) Driver.enableEndpoints
        fun _ => Watched A n false :=
      calm_triple hq (only_forNonzeroEndpoints fun ep => only_enable calm_ctrl)
    exact .bind (.bind henable fun _ => primeEndpoints_triple hin) fun _ => .pure fun _ _ h => h
  | setDeviceAddress addr =>
    exact .bind (calm_triple hq (.access (calm_writeReg (by simp) _))) fun _ =>
      .pure fun _ _ h => h
  | enable => exact .bind (modifyUsbcmd_triple _ _ (by decide)) fun _ => .pure fun _ _ h => h
  | enableZlt addr => exact .bind (enableZlt_triple addr) fun _ => .pure fun _ _ h => h
  | setInterrupts interrupts =>
    exact .bind (calm_triple hq (only_setInterrupts interrupts (calm_writeReg (by simp))))
      fun _ => .pure fun _ _ h => h

end Functions

/-! ## Runs -/

/-- Nothing is in the way of the request that is read: no response was armed over
    it, nor the OUT half for a status stage, and the OUT half is still armed. -/
structure ControlWatch.Clear (d : ControlWatch) (packetLen : Nat) : Prop where
  response : d.response = false
  status : d.status = true → packetLen = 0
  lost : d.lost = false

instance (d : ControlWatch) (packetLen : Nat) : Decidable (d.Clear packetLen) :=
  decidable_of_iff (d.response = false ∧ (d.status = true → packetLen = 0) ∧ d.lost = false)
    ⟨fun h => ⟨h.1, h.2.1, h.2.2⟩, fun h => ⟨h.response, h.status, h.lost⟩⟩

/-- A read that returns a SETUP packet. -/
def BusyLabel.tookSetup : BusyLabel → Bool
  | .busy (.read _ _) (.read (.ok _)) ms => ms.any loadsSetup
  | .busy _ _ _ | .step _ => false

/-- No response is armed, so none to an older request, and the OUT half is armed
    for a full packet. -/
structure Sys.ServesSetup (s : Sys) : Prop where
  response : s.primed .ep0In = false
  armed : s.primed .ep0Out = true
  whole : (s.td EpId.ep0Out.slot).totalBytes = s.maxPacketLen .ep0Out

section Runs

variable {s₀ s s' : Sys} {tr : BusyTrace} {l : BusyLabel} {d : ControlWatch}
  {A : EndpointAllocator} {n : Nat} {k : Bool}

/-- Nothing is armed, and no packet is flagged. -/
theorem Booted.watched (h : Booted s₀) :
    Watched s₀.driver.epAllocator (s₀.maxPacketLen .ep0Out) false .start s₀ where
  alloc := rfl
  noReset := h.idle.wf.rst
  packetLen := rfl
  pending := by
    rw [Sys.setupPending, h.idle.setupstat]
    exact BitVec.getLsbD_zero
  took := by rintro ⟨⟩
  response := by rintro ⟨⟩
  status := by rintro ⟨⟩
  lost := by rintro ⟨⟩
  responds := by
    intro _ hp
    rw [(h.quiet _).primed] at hp
    simp at hp
  whole := by
    intro _ hp
    rw [(h.quiet _).primed] at hp
    simp at hp

theorem Booted.inPlace (h : Booted s₀) : s₀.driver.epAllocator.InPlace :=
  fun e ep hep => (h.idle.wf.epOk e ep hep).inPlace

theorem Sys.maxPacketLen_lt (s : Sys) (e : EpId) : s.maxPacketLen e < 2 ^ 15 :=
  (CAPABILITIES.MAXIMUM_PACKET_LENGTH.get_toNat_lt _).trans (by decide)

/-- A read, whatever happens meanwhile. -/
theorem Watched.read (h : Watched A n k d s) (hin : A.InPlace) (hn : n < 2 ^ 15)
    {addr : EndpointAddress} {buf : List Byte} {r : Ret} {ms : Moments}
    (hstep : BusyStep (fun _ => True) s (.busy (.read addr buf) r ms) s') :
    Watched A n false (d.step (.busy (.read addr buf) r ms)) s' ∨
      Watched A n true (d.step (.busy (.read addr buf) r ms)) s' ∧
        OutWaits (d.step (.busy (.read addr buf) r ms)) s' := by
  cases hstep with
  | @busy _ _ passes σ τ _ _ _ hrun =>
    have hread : (control false).Triple (Watched A n false) (Call.read addr buf).prog fun _ d s =>
        Watched A n false d s ∨ Watched A n true d s ∧ OutWaits d s :=
      .bind (busRead_triple hin hn addr buf) fun _ => .pure fun _ _ h => h
    exact hread passes _ (s, σ) r (s', τ) ms h.rest hrun

/-- A read that returned a packet has found it, and left the OUT half armed. -/
theorem Watched.took_setup (h : Watched A n k d s) (hin : A.InPlace) (hn : n < 2 ^ 15)
    (hstep : BusyStep (fun _ => True) s l s') (hsetup : l.tookSetup = true) :
    Watched A n true (d.step l) s' ∧ OutWaits (d.step l) s' := by
  unfold BusyLabel.tookSetup at hsetup
  split at hsetup
  · refine (h.read hin hn hstep).resolve_left fun h' => ?_
    have htook := h'.took ((ControlWatch.took_see _ _ _).trans hsetup)
    simp at htook
  · simp at hsetup
  · simp at hsetup

/-- One step, whatever it is. -/
theorem Watched.step (h : Watched A n k d s) (hin : A.InPlace) (hn : n < 2 ^ 15)
    (hstep : BusyStep (fun _ => True) s l s') : ∃ k, Watched A n k (d.step l) s' := by
  cases hstep with
  | step hstep hcall =>
    cases hstep with
    | call => exact absurd trivial hcall
    | @hw ev _ => exact ⟨k, h.event false ev⟩
  | @busy c r passes σ τ _ ms hc hrun =>
    by_cases hread : ∃ addr buf, c = .read addr buf
    · obtain ⟨addr, buf, rfl⟩ := hread
      exact (h.read hin hn (.busy hc hrun)).elim (fun h => ⟨_, h⟩) fun h => ⟨_, h.1⟩
    · have hne : ∀ addr buf, c ≠ .read addr buf := fun addr buf heq => hread ⟨addr, buf, heq⟩
      exact ⟨false, call_triple hin hn hne passes _ (s, σ) r (s', τ) ms h.rest hrun⟩

theorem watched_run (h₀ : Booted s₀) (hrun : Run (BusyStep fun _ => True) s₀ tr s) :
    ∃ k, Watched s₀.driver.epAllocator (s₀.maxPacketLen .ep0Out) k (controlWatch tr) s := by
  refine hrun.hist_invariant (I := fun tr s => ∃ k, Watched s₀.driver.epAllocator
    (s₀.maxPacketLen .ep0Out) k (controlWatch tr) s) (always_true tr) ⟨false, h₀.watched⟩ ?_
  rintro tr s l s' ⟨k, h⟩ - hstep
  rw [controlWatch_snoc]
  exact h.step h₀.inPlace (s₀.maxPacketLen_lt _) hstep

end Runs

-- the second packet arrives inside the write of the response, which began with none flagged
example : ∃ tr s l s', Run (BusyStep fun _ => True) device tr s ∧
    BusyStep (fun _ => True) s l s' ∧ l.tookSetup = true ∧ s'.primed .ep0In = true ∧
      (s'.td EpId.ep0Out.slot).totalBytes = 0 :=
  exists_performed_step (performBusy_sound fun _ => True) device
    [.step (.hw (.setup 0x0012000001000680)),
      .busy (.read EpId.ep0Out.address (List.replicate 8 0)) 2 [],
      .busy (.write EpId.ep0In.address (List.replicate 18 1)) 2
        [[], [], [], [], [], [], [.setup 0x0000000000010900]]]
    (.busy (.read EpId.ep0Out.address (List.replicate 8 0)) 2 [])
    (by decide +kernel)

end ImxrtUsbd
