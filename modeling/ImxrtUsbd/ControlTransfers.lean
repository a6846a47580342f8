/-
  ImxrtUsbd.ControlTransfers

  The data stage of control transfers, over runs with any calls.  A data packet
  of the OUT half is acknowledged and armed over only by the one read that
  returns it, exactly in the runs in which neither a write, nor an unstall, nor a
  read of the next SETUP packet comes before that read (`out_data_kept_iff`).
-/
import ImxrtUsbd.ControlEndpoint
import ImxrtUsbd.Replay

namespace ImxrtUsbd

open Lib

/-! ## The packets of the OUT half -/

/-- What became of the last packet received on the OUT half. -/
inductive OutData where
  /-- It was no data packet, or its transfer was cancelled. -/
  | none
  /-- It is a data packet that no read has returned. -/
  | unread (data : List Byte)
  /-- A read returned it. -/
  | returned

/-- The transfer is cancelled by a new SETUP packet or a bus reset. -/
def OutData.cancel : OutData → OutData
  | .returned => .returned
  | .unread _ | .none => .none

/-- Follow the OUT half.  `isData` says which packets belong to a data stage,
    given all that happened before. -/
def OutData.next (isData : Trace → List Byte → Bool) (pre : Trace) (d : OutData) (l : Label) :
    OutData :=
  match l.received 0 with
  | some data => if isData pre data then .unread data else .none
  | Option.none =>
    if l.returnedData.isSome then .returned
    else if l.setupArrives || l.isReset then d.cancel
    else d

/-- What became of the last packet of the OUT half in a run from the start. -/
def outData (isData : Trace → List Byte → Bool) (tr : Trace) : OutData :=
  monitor (OutData.next isData) .none tr

/-- The step keeps a data packet for the read that returns it, and nothing
    returns it again. -/
structure KeepsOutData (d : OutData) (s : Sys) (l : Label) : Prop where
  keep : ∀ data, d = .unread data → l.isReset = false →
    (l.Arms .ep0Out ∨ s.completed .ep0Out = true ∧ (s.after l).completed .ep0Out = false) →
    ∃ buf, l.returnedData = some (buf, min buf.length data.length,
      data.take (min buf.length data.length) ++ buf.drop (min buf.length data.length))
  once : d = .returned → ∀ buf k out, l.returnedData = some (buf, k, out) → k = 0

/-- A data packet waits. -/
def OutData.isUnread : OutData → Bool
  | .unread _ => true
  | _ => false

/-- Nothing but the next data read gets at a data packet that waits: the call is
    no write that is accepted, no unstall, and no read of the next SETUP packet. -/
structure SparesOutData (d : OutData) (vi : EpView) (pending : Bool) (l : Label) : Prop where
  write : d.isUnread = true → ¬ vi.AcceptsWrite l
  unstall : d.isUnread = true → ¬ l.UnstallsEp0
  setup : d.isUnread = true → ¬ l.ReadsSetup pending

instance (d : OutData) (vi : EpView) (pending : Bool) (l : Label) :
    Decidable (SparesOutData d vi pending l) :=
  decidable_of_iff
    ((d.isUnread = true → ¬ vi.AcceptsWrite l) ∧ (d.isUnread = true → ¬ l.UnstallsEp0) ∧
      (d.isUnread = true → ¬ l.ReadsSetup pending))
    ⟨fun h => ⟨h.1, h.2.1, h.2.2⟩, fun h => ⟨h.write, h.unstall, h.setup⟩⟩

/-- The OUT half and its last packet. -/
structure OutHalf (n : Nat) (v : EpView) (d : OutData) : Prop where
  armed : v.primed = true → v.left = v.size
  unread : ∀ data, d = .unread data → v.Holds n data
  returned : d = .returned → v.left = v.size

section OutHalf

variable {s s' : Sys} {l : Label} {n m : Nat} {vo vi : EpView} {pending pending' : Bool}
  {outActs inActs : List EpAct} {d : OutData} {isData : Trace → List Byte → Bool} {tr : Trace}

/-- Nothing waits in a half that is armed. -/
theorem OutHalf.not_unread (h : OutHalf n vo d) (hp : vo.primed = true) : d.isUnread = false := by
  cases d with
  | unread data =>
    have := (h.unread data rfl).primed
    rw [hp] at this
    simp at this
  | none | returned => rfl

/-- A half where nothing waits, armed again or not at all. -/
theorem OutHalf.of_not_unread (hd : d.isUnread = false) (hleft : vo.left = vo.size) :
    OutHalf n vo d where
  armed := fun _ => hleft
  unread := by
    rintro data rfl
    simp [OutData.isUnread] at hd
  returned := fun _ => hleft

/-- A cancelled transfer leaves no packet that waits. -/
theorem OutHalf.cancel (h : OutHalf n vo d) (hrec : l.received 0 = none)
    (hret : l.returnedData = none) (hl : (l.setupArrives || l.isReset) = true) {w : EpView}
    (hp : w.primed = false) (hleft : w.left = vo.left) (hsize : w.size = vo.size) :
    OutHalf n w (d.next isData tr l) := by
  have hnext : d.next isData tr l = d.cancel := by
    rw [OutData.next, hrec, hret, hl]
    rfl
  rw [hnext]
  refine ⟨by rw [hp]; rintro ⟨⟩, ?_, ?_⟩
  · cases d <;> rintro _ ⟨⟩
  · intro hd
    rw [hleft, hsize]
    cases d with
    | returned => exact h.returned rfl
    | none | unread => exact absurd hd (by rintro ⟨⟩)

theorem OutHalf.step (h : OutHalf n vo d) (hsize : vo.size ≤ n)
    (hstep : CtrlStep n m vo vi pending l outActs inActs pending')
    (hc : SparesOutData d vi pending l) :
    OutHalf n (vo.acts outActs) (d.next isData tr l) := by
  -- the packet is the same when none arrives and none is returned
  have hsame : l.received 0 = none → l.returnedData = none → l.setupArrives = false →
      l.isReset = false → d.next isData tr l = d := by
    intro hrec hret hset hres
    rw [OutData.next, hrec, hret, hset, hres]
    rfl
  cases hstep with
  | @received data hp hlen =>
    -- data, or the empty packet of a status stage
    have hhold := EpView.Holds.of_received (h.armed hp) hsize hlen
    have hnext : d.next isData tr (.hw (.outDone 0 data)) =
        if isData tr data then .unread data else .none := rfl
    rw [hnext]
    split
    · refine ⟨by rintro ⟨⟩, fun data' hd => ?_, by rintro ⟨⟩⟩
      rw [← OutData.unread.inj hd]
      exact hhold
    · exact ⟨by rintro ⟨⟩, by rintro _ ⟨⟩, by rintro ⟨⟩⟩
  | sent => exact h
  | failedOut hp =>
    have hd := h.not_unread hp
    rw [hsame rfl rfl rfl rfl]
    refine ⟨by rintro ⟨⟩, fun data hd' => ?_, h.returned⟩
    rw [hd'] at hd
    simp [OutData.isUnread] at hd
  | failedIn => exact h
  | setup => exact h.cancel rfl rfl rfl rfl rfl rfl
  | polled =>
    refine ⟨h.armed, fun data hd => ?_, h.returned⟩
    have hold := h.unread data hd
    exact ⟨hold.1, hold.2, hold.3, hold.4, hold.5, hold.6⟩
  | readSetup h0 hp hlen ht =>
    -- a read of a SETUP packet arms the OUT half, which must hold no data
    have hd : d.isUnread = false := by
      by_contra hd
      exact hc.setup (by simpa using hd) ⟨h0, hp, hlen⟩
    have hret : Label.returnedData (.call (.read _ _) (.read (.ok _)) _) = none :=
      if_neg fun hr => by rw [ht] at hr; simp at hr
    rw [hsame rfl hret rfl rfl]
    split
    · exact h
    · exact .of_not_unread hd rfl
  | @readData addr buf obs h0 _ _ _ ht =>
    have hnext : d.next isData tr
        (.call (.read addr buf) (.read (.ok (vo.fetch n buf))) obs) = .returned := by
      simp [OutData.next, Label.received, Label.returnedData, h0, ht]
    rw [hnext]
    exact .of_not_unread rfl rfl
  | wrote h0 herr hp =>
    rw [hsame rfl rfl rfl rfl]
    split
    · exact h
    · refine .of_not_unread ?_ rfl
      by_contra hd
      exact hc.write (by simpa using hd) ⟨h0, herr, hp⟩
  | unstalled hp =>
    rw [hsame rfl rfl rfl rfl]
    refine .of_not_unread ?_ rfl
    by_contra hd
    exact hc.unstall (by simpa using hd) ⟨rfl, rfl⟩
  | reset => exact h.cancel rfl rfl rfl rfl rfl rfl
  | other hrec hset hret _ _ _ hres =>
    rw [hsame hrec hret hset hres]
    exact h

theorem keepsOutData_of_not_unread (hd : d.isUnread = false) (hret : l.returnedData = none) :
    KeepsOutData d s l where
  keep := by
    rintro data rfl
    simp [OutData.isUnread] at hd
  once := by
    rw [hret]
    rintro - _ _ _ ⟨⟩

theorem sparesOutData_of_not_unread (hd : d.isUnread = false) : SparesOutData d vi pending l := by
  refine ⟨?_, ?_, ?_⟩ <;> rw [hd] <;> rintro ⟨⟩

/-- Arming the half over a data packet loses the packet. -/
theorem not_keepsOutData (hd : d.isUnread = true) (hres : l.isReset = false)
    (harm : l.Arms .ep0Out) (hret : l.returnedData = none) : ¬ KeepsOutData d s l := by
  intro h
  cases d with
  | unread data =>
    obtain ⟨buf, hbuf⟩ := h.keep data rfl hres (Or.inl harm)
    rw [hret] at hbuf
    simp at hbuf
  | none | returned => simp [OutData.isUnread] at hd

/-- A step that arms the half and returns no data is good exactly when no data
    packet waits. -/
theorem keepsOutData_iff_of_arms (hres : l.isReset = false) (harm : l.Arms .ep0Out)
    (hret : l.returnedData = none) (hbad : d.isUnread = true → ¬ SparesOutData d vi pending l) :
    KeepsOutData d s l ↔ SparesOutData d vi pending l := by
  cases hd : d.isUnread with
  | true => exact iff_of_false (not_keepsOutData hd hres harm hret) (hbad hd)
  | false => exact iff_of_true (keepsOutData_of_not_unread hd hret) (sparesOutData_of_not_unread hd)

/-- A step that neither arms the half nor acknowledges its completion is good. -/
theorem keepsOutData_of_quiet (harm : ¬ l.Arms .ep0Out)
    (hack : s.completed .ep0Out = true → (s.after l).completed .ep0Out = true)
    (hret : l.returnedData = none) : KeepsOutData d s l where
  keep := by
    rintro data - - (ha | ⟨hc, ha⟩)
    · exact absurd ha harm
    · rw [hack hc] at ha
      simp at ha
  once := by
    rw [hret]
    rintro - _ _ _ ⟨⟩

/-- Under the relation, a step keeps the data packet exactly when it spares it. -/
theorem OutHalf.keeps_iff (h : OutHalf n vo d)
    (hstep : CtrlStep n m vo vi pending l outActs inActs pending')
    (harms : l.Arms .ep0Out ↔ ∃ size, .schedule size ∈ outActs)
    (hcomp : s.completed .ep0Out = vo.completed)
    (hafter : (s.after l).completed .ep0Out = (vo.acts outActs).completed) :
    KeepsOutData d s l ↔ SparesOutData d vi pending l := by
  cases hstep with
  | received =>
    exact iff_of_true (keepsOutData_of_quiet (by simp [harms]) (fun _ => hafter) rfl)
      ⟨fun _ => id, fun _ => id, fun _ => id⟩
  | sent | failedOut | failedIn | setup | polled =>
    exact iff_of_true (keepsOutData_of_quiet (by simp [harms])
        (fun hc => hafter.trans (hcomp.symm.trans hc)) rfl)
      ⟨fun _ => id, fun _ => id, fun _ => id⟩
  | readSetup h0 hp hlen ht =>
    have hret : Label.returnedData (.call (.read _ _) (.read (.ok _)) _) = none :=
      if_neg fun hr => by rw [ht] at hr; simp at hr
    by_cases hprimed : vo.primed = true
    · have hd := h.not_unread hprimed
      exact iff_of_true (keepsOutData_of_not_unread hd hret) (sparesOutData_of_not_unread hd)
    · rw [if_neg hprimed] at harms
      exact keepsOutData_iff_of_arms rfl (by simp [harms]) hret
        fun hd hc => hc.setup hd ⟨h0, hp, hlen⟩
  | @readData addr buf obs h0 hns _ _ ht =>
    have hret : Label.returnedData (.call (.read addr buf) (.read (.ok (vo.fetch n buf))) obs) =
        some (buf, vo.fetch n buf) := if_pos ⟨h0, ht⟩
    refine iff_of_true ⟨fun data hd _ _ => ⟨buf, ?_⟩, fun hd b k out hr => ?_⟩
      ⟨fun _ => id, fun _ => id, fun _ hs => hns hs.2⟩
    · rw [hret, (h.unread data hd).fetch]
    · -- nothing was received since the half was armed
      rw [hret] at hr
      have hk : k = min (min n buf.length) (vo.size - vo.left) :=
        (congrArg Prod.fst (Prod.mk.inj (Option.some.inj hr)).2).symm
      have hleft := h.returned hd
      omega
  | wrote h0 herr hp =>
    by_cases hprimed : vo.primed = true
    · have hd := h.not_unread hprimed
      exact iff_of_true (keepsOutData_of_not_unread hd rfl) (sparesOutData_of_not_unread hd)
    · rw [if_neg hprimed] at harms
      exact keepsOutData_iff_of_arms rfl (by simp [harms]) rfl
        fun hd hc => hc.write hd ⟨h0, herr, hp⟩
  | unstalled =>
    exact keepsOutData_iff_of_arms rfl (by simp [harms]) rfl fun hd hc => hc.unstall hd ⟨rfl, rfl⟩
  | reset =>
    refine iff_of_true ⟨fun _ _ hres => ?_, fun _ => by rintro _ _ _ ⟨⟩⟩
      ⟨fun _ => id, fun _ => id, fun _ => id⟩
    simp [Label.isReset] at hres
  | other _ _ hret hnw hun hns =>
    refine iff_of_true (keepsOutData_of_quiet (by simp [harms])
        (fun hc => hafter.trans (hcomp.symm.trans hc)) hret)
      ⟨fun _ => hnw, fun hd hu => ?_, fun _ => hns⟩
    rw [h.not_unread (hun hu)] at hd
    simp at hd

end OutHalf

/-- Along a run, every data packet of the OUT half is acknowledged and armed
    over only by the one read that returns it, or cancelled by a SETUP packet or
    a bus reset, if and only if no write is accepted, no unstall is made and no
    next SETUP packet is taken while a data packet waits. -/
theorem out_data_kept_iff {s₀ s : Sys} {tr : Trace} {epo epi : Endpoint}
    (isData : Trace → List Byte → Bool) (hb : Booted s₀) (hepo : s₀.ep .ep0Out = some epo)
    (hepi : s₀.ep .ep0In = some epi) (hrun : Run Step s₀ tr s) :
    Always (fun pre s l => KeepsOutData (outData isData pre) s l) tr ↔
      Always (fun pre s l =>
        SparesOutData (outData isData pre) (s.view .ep0In epi) s.setupPending l) tr := by
  refine hrun.always_iff (always_true tr)
    (I := fun tr s => s.WF ∧ s.ep .ep0Out = some epo ∧ s.ep .ep0In = some epi ∧
      OutHalf epo.packetLen (s.view .ep0Out epo) (outData isData tr))
    ⟨hb.idle.wf, hepo, hepi, ?_⟩ ?_ ?_
  · have hp : (s₀.view .ep0Out epo).primed = false := (hb.quiet .ep0Out).primed
    exact ⟨by rw [hp]; rintro ⟨⟩, by rintro _ ⟨⟩, by rintro ⟨⟩⟩
  · rintro tr s l s' ⟨hwf, hepo, hepi, hhalf⟩ - hc hstep
    refine ⟨hstep.wf hwf, (hstep.ep_eq hwf _).trans hepo, (hstep.ep_eq hwf _).trans hepi, ?_⟩
    rw [hstep.view_eq hwf hepo, outData, monitor_snoc]
    exact hhalf.step (hwf.epOk _ _ hepo).td.size_le (hstep.ctrlStep hwf hepo hepi) hc
  · rintro tr s l s' ⟨hwf, hepo, hepi, hhalf⟩ - hstep
    refine hhalf.keeps_iff (hstep.ctrlStep hwf hepo hepi) (hstep.arms_iff hwf hepo) rfl ?_
    rw [hstep.after_eq]
    exact congrArg EpView.completed (hstep.view_eq hwf hepo)

/-- A data stage of two packets, then the status stage. -/
theorem out_data_kept_device :
    ∃ tr s, Run Step device tr s ∧ ((tr.countP fun x => x.2.returnedData.isSome) = 2 ∧
      Always (fun pre s l => KeepsOutData (outData (fun _ _ => true) pre) s l) tr) := by
  obtain ⟨tr, s, hrun, hread, hc⟩ := exists_run (s := device)
    (p := fun tr _ => (tr.countP fun x => x.2.returnedData.isSome) = 2 ∧
      Always (fun pre s l => SparesOutData (outData (fun _ _ => true) pre)
        (s.view .ep0In (deviceEndpoint .ep0In 1 .Control)) s.setupPending l) tr)
    [.hw (.setup 0x0043000000002021), .call .poll,
      .call (.read EpId.ep0Out.address (List.replicate 8 0)),
      .hw (.outDone 0 (List.replicate 64 5)), .call .poll,
      .call (.read EpId.ep0Out.address (List.replicate 64 0)), .hw (.outDone 0 [1, 2, 3]),
      .call .poll, .call (.read EpId.ep0Out.address (List.replicate 64 0)),
      .call (.write EpId.ep0In.address []), .hw (.inDone 0 0)] (by decide +kernel)
  exact ⟨tr, s, hrun, hread, (out_data_kept_iff _ device_booted device_ep0Out device_ep0In
    hrun).mpr hc⟩

/-- An unstall arms the OUT half over a data packet that was not read. -/
theorem out_data_lost :
    ∃ tr s, Run Step device tr s ∧
      ¬ Always (fun pre s l =>
        KeepsOutData (outData (fun _ data => !data.isEmpty) pre) s l) tr := by
  obtain ⟨tr, t, l, s, hrun, hstep, hd, hres, harm, hret⟩ := exists_step (s := device)
    (p := fun tr _ l _ => (outData (fun _ data => !data.isEmpty) tr).isUnread = true ∧
      l.isReset = false ∧ l.Arms .ep0Out ∧ l.returnedData.isNone = true)
    [.hw (.setup 0x0003000000002021), .call .poll,
      .call (.read EpId.ep0Out.address (List.replicate 8 0)), .hw (.outDone 0 [1, 2, 3])]
    (.call (.setStalled EpId.ep0Out.address false)) (by decide +kernel)
  refine ⟨_, s, hrun.snoc hstep, fun h => ?_⟩
  exact not_keepsOutData hd hres harm (Option.isNone_iff_eq_none.mp hret) (always_snoc.mp h).2

end ImxrtUsbd
