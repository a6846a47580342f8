/-
  ImxrtUsbd.SetupPackets

  Which bytes the reads return that return SETUP packets, with the controller at
  work between any two accesses of every call.

  `Delivery` numbers the packets, and says which number a read returns: that of
  the last packet to arrive before the setup buffer was loaded for the last time.
  The tripwire makes sure that both halves of what was loaded are of that packet
  (`ReadsLast`), so the bytes that are returned are its bytes
  (`setup_returned_bytes`).
-/
import ImxrtUsbd.ControlRequests
import ImxrtUsbd.SetupTripwire

namespace ImxrtUsbd

open Lib

/-! ## What is loaded -/

/-- The setup buffer is not loaded. -/
def Unloaded (ms : Moments) : Prop := ∀ m ∈ ms, loadsSetup m = false

/-- What is loaded last is the packet `v`, the last one to arrive until then,
    `before` the call or during it. -/
def LoadsLast (before : List (BitVec 64)) (v : BitVec 64) (ms : Moments) : Prop :=
  ∃ pre m post, ms = pre ++ m :: post ∧ loadsSetup m = true ∧ Unloaded post ∧
    (before ++ packets pre).getLast? = some v

section Loads

variable {before : List (BitVec 64)} {b v : BitVec 64} {ms ms' : Moments} {d : Delivery}

theorem Unloaded.append (h : Unloaded ms) (h' : Unloaded ms') : Unloaded (ms ++ ms') :=
  fun m hm => (List.mem_append.mp hm).elim (h m) (h' m)

theorem Away.unloaded (h : Away ms) : Unloaded ms := fun m hm => (h m hm).1

theorem LoadsLast.append (h : LoadsLast before v ms) (h' : Unloaded ms') :
    LoadsLast before v (ms ++ ms') := by
  obtain ⟨pre, m, post, rfl, hm, hpost, hv⟩ := h
  exact ⟨pre, m, post ++ ms', by simp, hm, hpost.append h', hv⟩

theorem LoadsLast.prepend (h : LoadsLast (before ++ packets ms) v ms') :
    LoadsLast before v (ms ++ ms') := by
  obtain ⟨pre, m, post, rfl, hm, hpost, hv⟩ := h
  refine ⟨ms ++ pre, m, post, by simp, hm, hpost, ?_⟩
  rwa [packets_append, ← List.append_assoc]

theorem getLast?_newest (b : BitVec 64) {ps : List (BitVec 64)} (h : ps ≠ []) :
    ps.getLast? = some (newest b ps) := by
  rw [newest, List.getLastD_eq_getLast?, List.getLast?_eq_some_getLast h]
  rfl

theorem unloaded_shown (es : List HwEvent) : Unloaded (shown es) := (away_events es).unloaded

/-- Both loads of the last pass see the same packet. -/
theorem ReadsLast.loadsLast {ps : List (BitVec 64)} {s' : Sys} (hps : ps ≠ [])
    (h : ReadsLast see (newest b ps) v ms s') : LoadsLast ps v ms := by
  obtain ⟨pre, lo, es₁, hi, es₂, c, es₃, c', es₄, t, w, rfl, h₁, -, -, rfl, -⟩ := h
  have hwrote : Unloaded (seen see t (.writeReg .USBCMD w)) := by
    intro m hm
    obtain rfl := List.mem_singleton.mp hm
    rfl
  refine ⟨pre ++ (seen see lo (.loadSetup 0 false) ++ shown es₁),
    .access (.loadedSetup true (usbAct (.loadSetup 0 true) hi).1),
    shown es₂ ++ (shown es₃ ++ (shown es₄ ++ seen see t (.writeReg .USBCMD w))), ?_, rfl,
    (unloaded_shown _).append ((unloaded_shown _).append ((unloaded_shown _).append hwrote)), ?_⟩
  · -- the reads of the command register are not shown
    simp [seen, see]
  · have hpre : packets (pre ++ (seen see lo (.loadSetup 0 false) ++ shown es₁)) =
        packets pre := by
      rw [packets_append, packets_append, packets_accesses, packets_shown, h₁]
      simp
    have hne : ps ++ packets pre ≠ [] := List.append_ne_nil_of_left_ne_nil hps _
    rw [hpre, getLast?_newest b hne, newest_append]

/-! ### Numbers -/

theorem arrivals_eq_length (ms : Moments) : arrivals ms = (packets ms).length := by
  have hsome : ∀ m : Moment HwEvent Seen, (packetOf m).isSome = setupArrives m := by
    intro m
    cases m with
    | event ev => cases ev <;> rfl
    | access o => rfl
  rw [arrivals, packets, List.length_filterMap_eq_countP]
  exact List.countP_congr fun m _ => by rw [hsome]

theorem Delivery.arrived_finish (d : Delivery) (c : Call) (r : Ret) :
    (d.finish c r).arrived = d.arrived := by
  unfold finish
  split
  · split <;> rfl
  · rfl

/-- The packets are numbered as they arrive. -/
theorem arrived_delivery (tr : BusyTrace) : (delivery tr).arrived = (packetsSoFar tr).length := by
  induction tr using List.reverseRecOn with
  | nil => rfl
  | append_singleton tr x ih =>
    obtain ⟨s, l⟩ := x
    have hl : ∀ d : Delivery, (d.step l).arrived = d.arrived + l.packets.length := by
      intro d
      cases l with
      | step l =>
        cases l with
        | hw ev =>
          have hone := arrivals_eq_length [.event ev]
          rw [← BusyLabel.packets] at hone
          rw [← hone]
          exact d.arrived_see [.event ev]
        | call => rfl
      | busy c r ms =>
        rw [Delivery.step, Delivery.arrived_finish, Delivery.arrived_see, arrivals_eq_length]
        rfl
    rw [delivery_snoc, hl, ih, packetsSoFar, packetsSoFar, List.flatMap_append,
      List.flatMap_singleton, List.length_append]

theorem Delivery.loaded_unloaded (h : Unloaded ms) : (ms.foldl see d).loaded = d.loaded := by
  induction ms generalizing d with
  | nil => rfl
  | cons m ms ih =>
    obtain ⟨hm, hms⟩ := List.forall_mem_cons.mp h
    have hd : (d.see m).loaded = d.loaded := by
      simp only [see, hm, Bool.false_eq_true, if_false]
      split_ifs <;> rfl
    rw [List.foldl_cons]
    exact (ih hms).trans hd

/-- The number of the packet that is loaded last. -/
theorem LoadsLast.loaded (h : LoadsLast before v ms) (hd : d.arrived = before.length) :
    ∃ j, (ms.foldl Delivery.see d).loaded = some j ∧ 0 < j ∧
      (before ++ packets ms)[j - 1]? = some v := by
  obtain ⟨pre, m, post, rfl, hm, hpost, hv⟩ := h
  -- the last load, and the arrivals before it
  have harrives : setupArrives m = false := by
    cases m with
    | event ev => simp [loadsSetup] at hm
    | access o => rfl
  refine ⟨(before ++ packets pre).length, ?_, ?_, ?_⟩
  · rw [List.foldl_append, List.foldl_cons, Delivery.loaded_unloaded hpost]
    have hpre := d.arrived_see pre
    rw [arrivals_eq_length, hd, ← List.length_append] at hpre
    simp [Delivery.see, harrives, hm, hpre]
  · rw [List.length_pos_iff]
    rintro hnil
    rw [hnil] at hv
    simp at hv
  · rw [packets_append, ← List.append_assoc]
    rw [List.getLast?_eq_getElem?] at hv
    obtain ⟨hlt, -⟩ := List.getElem?_eq_some_iff.mp hv
    rw [List.getElem?_append_left hlt, hv]

end Loads

/-! ## A read -/

/-- The moments so far are the ghost. -/
abbrev history : World Access Sys Seen HwEvent Moments := watching fun ms m => ms ++ [m]

theorem history_see (ms : Moments) (m : Moment HwEvent Seen) : history.see ms m = ms ++ [m] := rfl

theorem foldl_history (ms ms' : Moments) : ms'.foldl history.see ms = ms ++ ms' := by
  induction ms' generalizing ms with
  | nil => exact (List.append_nil _).symm
  | cons m ms' ih =>
    rw [List.foldl_cons, ih, history_see, List.append_assoc, List.singleton_append]

/-- So far the call has loaded nothing.  `before` arrived before it, and `A` are
    the endpoints. -/
structure Waiting (A : EndpointAllocator) (b : BitVec 64) (before : List (BitVec 64))
    (ms : Moments) (s : Sys) : Prop where
  alloc : s.driver.epAllocator = A
  unloaded : Unloaded ms
  buffer : s.setupBuffer = newest b (before ++ packets ms)
  flagged : s.setupPending = true → before ++ packets ms ≠ []

/-- And a packet was flagged. -/
def Found (A : EndpointAllocator) (b : BitVec 64) (before : List (BitVec 64)) (ms : Moments)
    (s : Sys) : Prop :=
  Waiting A b before ms s ∧ before ++ packets ms ≠ []

section Read

variable {A : EndpointAllocator} {b : BitVec 64} {before : List (BitVec 64)} {ms : Moments}
  {s : Sys} {ep : Endpoint} {α : Type}

theorem stable_waiting : history.Stable (Waiting A b before) := by
  intro ev ms s s' h hev
  have hbuffer := overwrites_occur (O := Seen) ev s s' hev
  obtain ⟨-, rfl⟩ := HwEvent.occur_eq_some hev
  refine ⟨?_, h.unloaded.append (unloaded_shown [ev]), ?_, fun hp => ?_⟩
  · rw [ev.driver_apply]
    exact h.alloc
  · rw [history_see, packets_append, ← List.append_assoc, newest_append, ← h.buffer]
    exact hbuffer
  · rw [ev.setupPending_apply, Bool.or_eq_true] at hp
    rw [history_see, packets_append, ← List.append_assoc]
    rcases hp with hp | hp
    · exact List.append_ne_nil_of_left_ne_nil (h.flagged hp) _
    · cases ev with
      | setup packet => exact List.append_ne_nil_of_right_ne_nil _ (by simp [packets, packetOf])
      | outDone | inDone | error | nak | resetBegin | resetEnd => simp [setupArrives] at hp

theorem stable_found : history.Stable (Found A b before) := by
  refine stable_waiting.and fun ev ms s s' h _ => ?_
  rw [history_see, packets_append, ← List.append_assoc]
  exact List.append_ne_nil_of_left_ne_nil h _

/-- Code that is away from the setup buffer keeps what is said of the loads. -/
theorem away_triple {P : Moments → Prop} {p : UsbM α}
    (hP : ∀ ms ms', P ms → Unloaded ms' → P (ms ++ ms')) (hp : Within (· ≠ .ENDPTSETUPSTAT) p) :
    history.Triple (fun ms _ => P ms) p fun _ ms _ => P ms := by
  intro n ms x a y o h hrun
  rw [foldl_history]
  exact hP ms o h (away_of_exec (σ := x.2) (s := x.1) hp hrun).unloaded

/-- The packet that is read is the last one. -/
theorem readSetup_last (hat : ep.At .ep0Out) :
    history.Triple (Found A b before) ep.readSetup fun v ms _ => LoadsLast before v ms := by
  refine .bind (bit32_triple _) fun bit => .assume fun _ => .bind (R := fun _ => Found A b before)
    (.access stable_found fun ms s h => ?_) fun _ => ?_
  · obtain ⟨hw, hne⟩ := h
    -- clearing the latch is no arrival and no load
    have hpackets : packets (ms ++ [Moment.access (Seen.wrote .ENDPTSETUPSTAT bit)]) =
        packets ms := by
      rw [packets_append, packets_cons_access, packets_nil, List.append_nil]
    refine ⟨⟨hw.alloc, hw.unloaded.append ?_, ?_, fun _ => ?_⟩, ?_⟩
    · intro m hm
      obtain rfl := List.mem_singleton.mp hm
      rfl
    · refine (setupBuffer_usbAct (.writeReg .ENDPTSETUPSTAT bit) s).trans ?_
      exact hw.buffer.trans (congrArg (fun ps => newest b (before ++ ps)) hpackets.symm)
    · exact fun hnil => hne (hpackets ▸ hnil)
    · exact fun hnil => hne (hpackets ▸ hnil)
  · intro n ms x v y o h hrun
    have hread : ReadsLast see x.1.setupBuffer v o y.1 := exec_tripLoop (s := x.1) (σ := x.2)
      (hat.qh.trans rfl) hrun
    rw [h.1.buffer] at hread
    rw [foldl_history]
    exact (hread.loadsLast h.2).prepend

/-- A read that finds a packet returns the one that it loads last. -/
theorem ctrl0Read_last (hin : A.InPlace) (buf : List Byte) :
    history.Triple (Waiting A b before) (Driver.ctrl0Read buf) fun r ms _ =>
      Unloaded ms ∨ ∃ v, r = .ok (8, setupBytes v ++ buf.drop 8) ∧ LoadsLast before v ms := by
  refine lookup_triple stable_waiting (fun _ _ h => h.alloc) hin fun ep e haddr hat => ?_
  obtain rfl : e = .ep0Out := EpId.address_inj.mp haddr.symm
  -- a packet is flagged only after one has arrived
  have hhas : history.Triple (Waiting A b before) ep.hasSetup fun pending ms s =>
      (pending = true → Found A b before ms s) ∧ Waiting A b before ms s := by
    rw [Endpoint.hasSetup, hat.address, EpId.address_index]
    refine .bind (readReg_triple stable_waiting .ENDPTSETUPSTAT) fun v =>
      .bind (bit32_triple _) fun bit => .assume fun hbit => .pure fun ms s h => ⟨fun hb => ?_, h.2⟩
    rw [hbit, h.1, Field.and_bit_ne_zero _ (by decide)] at hb
    exact ⟨h.2, h.2.flagged hb⟩
  refine .bind hhas fun pending => ?_
  show history.Triple _ (if _ then _ else _) _
  split
  · rename_i hb
    rw [Bool.and_eq_true] at hb
    refine .bind ((readSetup_last hat).weaken (fun _ _ h => h.1 hb.1) fun _ _ _ h => h) fun v => ?_
    -- once taken, nothing of the call looks at the buffer again
    have hkeep : ∀ ms ms', LoadsLast before v ms → Unloaded ms' → LoadsLast before v (ms ++ ms') :=
      fun _ _ h h' => h.append h'
    have hdone : ∀ ms (s : Sys), LoadsLast before v ms → Unloaded ms ∨ ∃ w,
        (.ok (8, setupBytes v ++ buf.drop 8) : Except UsbError (Nat × List Byte)) =
          .ok (8, setupBytes w ++ buf.drop 8) ∧ LoadsLast before w ms :=
      fun _ _ h => Or.inr ⟨v, rfl, h⟩
    refine .bind (away_triple hkeep (only_isPrimed ep)) fun primed => ?_
    show history.Triple _ (if _ then _ else _) _
    split
    · exact .bind (away_triple hkeep (only_clearNack (transfers_away ep).nak)) fun _ =>
        .bind (away_triple hkeep (only_maxPacketLen ep)) fun _ =>
        .bind (away_triple hkeep (only_scheduleTransfer _ (transfers_away ep).toArms)) fun _ =>
        .pure hdone
    · exact .pure hdone
  · exact (away_triple (P := Unloaded) (fun _ _ h h' => h.append h')
      (only_ctrl0Data (transfers_away ep) (within_read ep buf))).weaken
      (fun _ _ h => h.2.unloaded) fun _ _ _ h => Or.inl h

theorem busRead_last (hin : A.InPlace) (addr : EndpointAddress) (buf : List Byte) :
    history.Triple (Waiting A b before) (BusAdapter.read addr buf) fun r ms _ =>
      Unloaded ms ∨ ∃ v, r = .ok (8, setupBytes v ++ buf.drop 8) ∧ LoadsLast before v ms := by
  refine .bind (looking_triple stable_waiting (only_isAllocated addr)) fun allocated => ?_
  show history.Triple _ (if _ then _ else _) _
  split
  · exact .pure fun _ _ h => Or.inl h.unloaded
  · show history.Triple _ (if _ then _ else _) _
    split
    · exact ctrl0Read_last hin buf
    · exact (away_triple (P := Unloaded) (fun _ _ h h' => h.append h')
        (only_epRead buf addr transfers_away fun ep => within_read ep buf)).weaken
        (fun _ _ h => h.unloaded) fun _ _ _ h => Or.inl h

end Read

/-! ## Runs -/

/-- The bytes that a read returns, if it returns a SETUP packet. -/
def BusyLabel.setupOut : BusyLabel → Option (List Byte)
  | .busy (.read _ _) (.read (.ok x)) ms =>
    if ms.any loadsSetup then some (x.2.take x.1) else none
  | .busy _ _ _ | .step _ => none

/-- What such reads have returned, the last one first. -/
def setupsOut (tr : BusyTrace) : List (List Byte) := (tr.filterMap fun x => x.2.setupOut).reverse

/-- The bytes are those of packet number `j`. -/
def IsPacket (ps : List (BitVec 64)) (j : Nat) (out : List Byte) : Prop :=
  0 < j ∧ (ps[j - 1]?).map setupBytes = some out

instance (ps : List (BitVec 64)) (j : Nat) (out : List Byte) : Decidable (IsPacket ps j out) :=
  inferInstanceAs (Decidable (_ ∧ _))

section Runs

variable {s₀ s s' : Sys} {tr : BusyTrace} {l : BusyLabel} {j : Nat} {out : List Byte}

/-- Packets keep their numbers. -/
theorem IsPacket.append {ps : List (BitVec 64)} (h : IsPacket ps j out) (qs : List (BitVec 64)) :
    IsPacket (ps ++ qs) j out := by
  obtain ⟨hpos, hout⟩ := h
  obtain ⟨p, hp, rfl⟩ := Option.map_eq_some_iff.mp hout
  obtain ⟨hlt, -⟩ := List.getElem?_eq_some_iff.mp hp
  refine ⟨hpos, ?_⟩
  rw [List.getElem?_append_left hlt, hp]
  rfl

theorem packetsSoFar_snoc (tr : BusyTrace) (s : Sys) (l : BusyLabel) :
    packetsSoFar (tr ++ [(s, l)]) = packetsSoFar tr ++ l.packets := by
  rw [packetsSoFar, List.flatMap_append, List.flatMap_singleton, packetsSoFar]

theorem setupsOut_snoc (tr : BusyTrace) (s : Sys) (l : BusyLabel) :
    setupsOut (tr ++ [(s, l)]) = l.setupOut.toList ++ setupsOut tr := by
  rw [setupsOut, List.filterMap_append, List.reverse_append, setupsOut]
  cases hout : l.setupOut <;> simp [hout]

/-- A flagged packet has arrived. -/
theorem flagged_arrived (h₀ : Booted s₀) (hrun : Run (BusyStep fun _ => True) s₀ tr s)
    (hp : s.setupPending = true) : packetsSoFar tr ≠ [] := by
  refine hrun.hist_invariant (I := fun tr s => s.setupPending = true → packetsSoFar tr ≠ [])
    (always_true tr) ?_ ?_ hp
  · intro hp
    rw [Sys.setupPending, h₀.idle.setupstat] at hp
    simp at hp
  · intro tr s l s' ih _ hstep hp
    rw [packetsSoFar_snoc]
    -- the latch is raised by an arrival only
    have hkeep : ∀ ms, LatchFalls s ms s' → packetsSoFar tr ++ packets ms ≠ [] := by
      intro ms hfall
      rcases hfall.setupPending hp with hp | hpos
      · exact List.append_ne_nil_of_left_ne_nil (ih hp) _
      · rw [arrivals_eq_length] at hpos
        exact List.append_ne_nil_of_right_ne_nil _ (List.length_pos_iff.mp hpos)
    cases hstep with
    | step hstep hcall =>
      cases hstep with
      | call => exact absurd trivial hcall
      | @hw ev hev => exact hkeep [.event ev] (latchFalls_occur ev s _ (if_pos hev))
    | busy _ hrun => exact hkeep _ (latchFalls_of_exec hrun)

/-- A read is counted for the packet whose bytes it returns. -/
theorem read_isPacket (h₀ : Booted s₀) (hrun : Run (BusyStep fun _ => True) s₀ tr s)
    {addr : EndpointAddress} {buf : List Byte} {x : Nat × List Byte} {ms : Moments}
    (hread : BusyStep (fun _ => True) s (.busy (.read addr buf) (.read (.ok x)) ms) s')
    {d : Delivery} (hd : d.arrived = (packetsSoFar tr).length) (hnone : d.loaded = none) :
    if ms.any loadsSetup then ∃ j, (ms.foldl Delivery.see d).loaded = some j ∧
      IsPacket (packetsSoFar tr ++ packets ms) j (x.2.take x.1)
    else (ms.foldl Delivery.see d).loaded = none := by
  obtain ⟨k, hwatched⟩ := watched_run h₀ hrun
  -- before the call: the latch and the setup buffer hold the newest packet
  have hwaiting : Waiting s₀.driver.epAllocator s₀.setupBuffer (packetsSoFar tr) [] s := by
    refine ⟨hwatched.alloc, fun _ hm => absurd hm List.not_mem_nil, ?_, fun hp => ?_⟩
    · rw [setupBuffer_run hrun, packets_nil, List.append_nil]
    · rw [packets_nil, List.append_nil]
      exact flagged_arrived h₀ hrun hp
  cases hread with
  | @busy _ _ n σ τ _ _ _ hexec =>
    -- the call returns no packet, or the one in the buffer at its last load
    have htriple : history.Triple (Waiting s₀.driver.epAllocator s₀.setupBuffer (packetsSoFar tr))
        (Call.read addr buf).prog fun r ms _ => Unloaded ms ∨ ∃ v,
          r = .read (.ok (8, setupBytes v ++ buf.drop 8)) ∧
            LoadsLast (packetsSoFar tr) v ms := by
      refine .bind (busRead_last h₀.inPlace addr buf) fun r => .pure fun ms s h => ?_
      rcases h with h | ⟨v, rfl, hv⟩
      · exact Or.inl h
      · exact Or.inr ⟨v, rfl, hv⟩
    have hout := htriple n [] (s, σ) _ (s', τ) ms hwaiting hexec
    rw [foldl_history, List.nil_append] at hout
    rcases hout with hout | ⟨v, hr, hlast⟩
    -- no access of the call looked at the setup buffer
    · have hany : ms.any loadsSetup = false := by
        rw [List.any_eq_false]
        intro m hm
        rw [hout m hm]
        exact Bool.false_ne_true
      rw [hany, if_neg Bool.false_ne_true, Delivery.loaded_unloaded hout, hnone]
    · obtain ⟨j, hj, hpos, hv⟩ := hlast.loaded hd
      have hany : ms.any loadsSetup = true := by
        obtain ⟨pre, m, post, rfl, hm, -, -⟩ := hlast
        rw [List.any_append, List.any_cons, hm, Bool.true_or, Bool.or_true]
      rw [hany, if_pos rfl]
      obtain rfl := Except.ok.inj (Ret.read.inj hr)
      refine ⟨j, hj, hpos, ?_⟩
      rw [hv]
      simp [setupBytes]

/-- A step that returns a packet is counted for it; other steps are not counted. -/
theorem step_isPacket (h₀ : Booted s₀) (hrun : Run (BusyStep fun _ => True) s₀ tr s)
    (hstep : BusyStep (fun _ => True) s l s') :
    (∃ j out, l.setupOut = some out ∧ IsPacket (packetsSoFar tr ++ l.packets) j out ∧
      ((delivery tr).step l).returned = j :: (delivery tr).returned) ∨
    l.setupOut = none ∧ ((delivery tr).step l).returned = (delivery tr).returned := by
  cases l with
  | step l =>
    refine Or.inr ⟨rfl, ?_⟩
    cases l with
    | hw ev => exact ((delivery tr).returned_see [.event ev]).1
    | call => rfl
  | busy c r ms =>
    -- only the end of a read counts a packet
    have hkept : ∀ d : Delivery, (ms.foldl Delivery.see d).returned = d.returned :=
      fun d => (d.returned_see ms).1
    cases c with
    | read addr buf =>
      cases r with
      | read res =>
        cases res with
        | error e => exact Or.inr ⟨rfl, hkept _⟩
        | ok x =>
          have hread := read_isPacket h₀ hrun hstep (arrived_delivery tr)
            (d := { delivery tr with cleared := none, loaded := none }) rfl
          split at hread
          · rename_i hany
            obtain ⟨j, hj, hpacket⟩ := hread
            refine Or.inl ⟨j, x.2.take x.1, if_pos hany, hpacket, ?_⟩
            rw [Delivery.step, Delivery.finish, hj]
            exact congrArg (j :: ·) (hkept _)
          · rename_i hany
            refine Or.inr ⟨if_neg hany, ?_⟩
            rw [Delivery.step, Delivery.finish_none hread]
            exact hkept _
      | unit | poll | write | bool => exact Or.inr ⟨rfl, hkept _⟩
    | poll | write | setStalled | isStalled | reset | configure | setDeviceAddress | enable
      | enableZlt | setInterrupts => exact Or.inr ⟨rfl, hkept _⟩

end Runs

/-- In a run from boot with the controller at work between any two accesses of
    every call: the reads that returned a SETUP packet returned the eight bytes
    of the packets that they are counted for. -/
theorem setup_returned_bytes {s₀ s : Sys} {tr : BusyTrace} (h₀ : Booted s₀)
    (hrun : Run (BusyStep fun _ => True) s₀ tr s) :
    List.Forall₂ (IsPacket (packetsSoFar tr)) (delivery tr).returned (setupsOut tr) := by
  induction hrun with
  | nil => exact .nil
  | @snoc tr s s' l hrun hstep ih =>
    rw [delivery_snoc, setupsOut_snoc, packetsSoFar_snoc]
    have hkeep : List.Forall₂ (IsPacket (packetsSoFar tr ++ l.packets)) (delivery tr).returned
        (setupsOut tr) := ih.imp fun j out h => h.append _
    rcases step_isPacket h₀ hrun hstep with ⟨j, out, hout, hpacket, hret⟩ | ⟨hout, hret⟩
    · rw [hret, hout]
      exact .cons hpacket hkeep
    · rw [hret, hout]
      exact hkeep

/-- The second of three packets arrives right before the latch is cleared for the
    first, and is returned in its place. -/
theorem setup_returned_bytes_device : ∃ tr s, Run (BusyStep fun _ => True) device tr s ∧
    (delivery tr).returned = [3, 2] ∧
    setupsOut tr = [[0x00, 0x09, 0x01, 0, 0, 0, 0, 0], [0x80, 0x06, 0, 0, 0, 0, 0, 0]] ∧
    List.Forall₂ (IsPacket (packetsSoFar tr)) (delivery tr).returned (setupsOut tr) := by
  obtain ⟨tr, s, hrun, hret, hout⟩ := exists_performed (performBusy_sound fun _ => True)
    (p := fun tr _ => (delivery tr).returned = [3, 2] ∧
      setupsOut tr = [[0x00, 0x09, 0x01, 0, 0, 0, 0, 0], [0x80, 0x06, 0, 0, 0, 0, 0, 0]])
    device
    [.step (.hw (.setup 0x0012000001000680)),
      .busy (.read EpId.ep0Out.address (List.replicate 8 0)) 2
        [[], [], [], [], [], [.setup 0x0000000000000680]],
      .busy .poll 1 [[], [.setup 0x0000000000010900]],
      .busy (.read EpId.ep0Out.address (List.replicate 8 0)) 2 []]
    (by decide +kernel)
  exact ⟨tr, s, hrun, hret, hout, setup_returned_bytes device_booted hrun⟩

end ImxrtUsbd
