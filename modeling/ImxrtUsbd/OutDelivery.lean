/-
  ImxrtUsbd.OutDelivery

  From the packets received on a non-zero OUT endpoint to the reads that return
  them, in runs without a bus reset.

  - `delivered_once_iff`: every packet is returned by exactly one read before
    the endpoint is armed again, exactly in the runs in which no unstall, no
    write and no `configure` arms the endpoint while a completed packet waits.
  - `read_agrees_iff`: reads agree with what `poll` last signalled, exactly in
    the runs in which the driver's copy of the completion bit is kept in step.
-/
import ImxrtUsbd.OutEndpoint
import ImxrtUsbd.Replay

namespace ImxrtUsbd

open Lib

/-! ## Every packet is read once -/

/-- Follow the last packet received, and count the reads that returned it. -/
def deliver (e : EpId) (last : Option (List Byte × Nat)) (l : Label) : Option (List Byte × Nat) :=
  match l.received e.num with
  | some data => some (data, 0)
  | none => if (l.returned e).isSome then last.map fun p => (p.1, p.2 + 1) else last

/-- The last packet received on the endpoint, and how many reads returned it. -/
def lastPacket (e : EpId) (tr : Trace) : Option (List Byte × Nat) :=
  tr.foldl (fun last x => deliver e last x.2) none

theorem lastPacket_snoc (e : EpId) (tr : Trace) (s : Sys) (l : Label) :
    lastPacket e (tr ++ [(s, l)]) = deliver e (lastPacket e tr) l := by
  rw [lastPacket, List.foldl_append]
  rfl

/-- The last packet, if there was one, has been read exactly once. -/
def ReadOnce (last : Option (List Byte × Nat)) : Prop := ∀ data k, last = some (data, k) → k = 1

/-- The step keeps the bargain: the endpoint is armed only when its last packet
    has been read exactly once, and a read returns a packet not read before. -/
structure DeliversOnce (e : EpId) (last : Option (List Byte × Nat)) (l : Label) : Prop where
  arm : l.Arms e → ReadOnce (deliver e last l)
  read : ∀ buf k out, l.returned e = some (buf, k, out) →
    ∃ data, last = some (data, 0) ∧ k = min buf.length data.length ∧
      out = data.take k ++ buf.drop k

/-- The endpoint and its last packet: an armed transfer, a packet that waits to
    be read, or neither. -/
inductive Slot (n : Nat) (v : EpView) (last : Option (List Byte × Nat)) : Prop where
  | armed : v.primed = true → v.completed = false → v.left = v.size → ReadOnce last → Slot n v last
  | unread (data : List Byte) : last = some (data, 0) → v.Holds n data → Slot n v last
  | idle : v.primed = false → v.completed = false → (v.errored = true ∨ v.signalled = false) →
      ReadOnce last → Slot n v last

section Slot

variable {e : EpId} {n : Nat} {v : EpView} {last : Option (List Byte × Nat)} {l : Label}
  {acts : List EpAct}

theorem Slot.readOnce (h : Slot n v last) (hc : v.completed = false) : ReadOnce last := by
  cases h with
  | armed _ _ _ hread => exact hread
  | unread _ _ hold => exact absurd hold.completed (by rw [hc]; rintro ⟨⟩)
  | idle _ _ _ hread => exact hread

/-- Only a packet that waits is ever read. -/
theorem Slot.unread_of_read (h : Slot n v last) (herr : v.errored = false)
    (hp : v.primed = false) (hs : v.signalled = true) :
    ∃ data, last = some (data, 0) ∧ v.Holds n data := by
  cases h with
  | armed hp' => rw [hp] at hp'; simp at hp'
  | unread data hlast hold => exact ⟨data, hlast, hold⟩
  | idle _ _ hor _ =>
    rcases hor with hor | hor
    · rw [herr] at hor
      simp at hor
    · rw [hs] at hor
      simp at hor

/-- A step that arms a transfer only over a packet that was read keeps the
    relation between the endpoint and its last packet. -/
theorem Slot.step (h : Slot n v last) (hsize : v.size ≤ n) (hstep : OutStep e n v l acts)
    (hreset : l.isReset = false) (hc : v.Rearms e l → v.completed = false) :
    Slot n (v.acts acts) (deliver e last l) := by
  cases hstep with
  | @received data hp hlen =>
    -- the packet lands in an armed endpoint: the other two are not primed
    have hlast : deliver e last (.hw (.outDone e.num data)) = some (data, 0) := by
      rw [deliver, Label.received, if_pos rfl]
    cases h with
    | armed _ _ hleft => exact .unread data hlast (.of_received hleft hsize hlen)
    | unread _ _ hold => exact absurd hp (by rw [hold.primed]; rintro ⟨⟩)
    | idle hp' => rw [hp] at hp'; simp at hp'
  | failed hp =>
    cases h with
    | armed _ hcomp _ hread => exact .idle rfl hcomp (Or.inl rfl) hread
    | unread _ _ hold => exact absurd hp (by rw [hold.primed]; rintro ⟨⟩)
    | idle hp' => rw [hp] at hp'; simp at hp'
  | polled =>
    cases h with
    | armed hp hcomp hleft hread => exact .armed hp hcomp hleft hread
    | unread data hlast hold =>
      exact .unread data hlast ⟨hold.1, hold.2, hold.3, hold.4, hold.5, hold.6⟩
    | idle hp hcomp _ hread => exact .idle hp hcomp (Or.inr hcomp) hread
  | @read buf obs herr hp hs =>
    -- a read finds the packet unread and returns it
    obtain ⟨data, rfl, -⟩ := h.unread_of_read herr hp hs
    have hlast : deliver e (some (data, 0))
        (.call (.read e.address buf) (.read (.ok (v.fetch n buf))) obs) = some (data, 1) := by
      simp [deliver, Label.received, Label.returned]
    rw [hlast]
    refine .armed rfl rfl rfl fun d k hk => ?_
    exact (Prod.mk.inj (Option.some.inj hk)).2.symm
  | wrote herr hp =>
    -- arming is safe once the packet has been read
    have hcomp := hc ⟨rfl, herr, hp⟩
    exact .armed rfl hcomp rfl (h.readOnce hcomp)
  | unstalled hp =>
    have hcomp := hc ⟨rfl, rfl, hp⟩
    exact .armed rfl hcomp rfl (h.readOnce hcomp)
  | configured =>
    have hcomp := hc trivial
    exact .armed rfl hcomp rfl (h.readOnce hcomp)
  | reset => simp [Label.isReset] at hreset
  | other hrec hret =>
    rw [deliver, hrec, hret]
    exact h

theorem Slot.readOnce_iff (h : Slot n v last) : ReadOnce last ↔ v.completed = false := by
  refine ⟨fun hread => ?_, h.readOnce⟩
  cases h with
  | armed _ hcomp => exact hcomp
  | unread data hlast =>
    have := hread data 0 hlast
    omega
  | idle _ hcomp => exact hcomp

/-- A call other than a read arms the endpoint over a packet that was read
    exactly when no completed packet waits. -/
theorem Slot.deliversOnce_rearm (h : Slot n v last) (hre : v.Rearms e l) (harm : l.Arms e)
    (hrec : l.received e.num = none) (hret : l.returned e = none) :
    DeliversOnce e last l ↔ (v.Rearms e l → v.completed = false) := by
  have hlast : deliver e last l = last := by
    rw [deliver, hrec, hret]
    rfl
  rw [← h.readOnce_iff]
  constructor
  · intro hd _
    rw [← hlast]
    exact hd.arm harm
  · intro hread
    refine ⟨fun _ => ?_, ?_⟩
    · rw [hlast]
      exact hread hre
    · rw [hret]
      rintro _ _ _ ⟨⟩

/-- Under the relation, a step delivers once exactly when it does not arm the
    endpoint over a completed packet. -/
theorem Slot.deliversOnce_iff (h : Slot n v last) (hstep : OutStep e n v l acts)
    (hreset : l.isReset = false) (harms : l.Arms e ↔ ∃ size, .schedule size ∈ acts) :
    DeliversOnce e last l ↔ (v.Rearms e l → v.completed = false) := by
  cases hstep with
  | received =>
    exact ⟨fun _ => (by rintro ⟨⟩), fun _ =>
      ⟨fun ha => by simp [harms] at ha, by rintro _ _ _ ⟨⟩⟩⟩
  | failed =>
    exact ⟨fun _ => (by rintro ⟨⟩), fun _ =>
      ⟨fun ha => by simp [harms] at ha, by rintro _ _ _ ⟨⟩⟩⟩
  | polled =>
    exact ⟨fun _ => (by rintro ⟨⟩), fun _ =>
      ⟨fun ha => by simp [harms] at ha, by rintro _ _ _ ⟨⟩⟩⟩
  | @read buf obs herr hp hs =>
    obtain ⟨data, rfl, hold⟩ := h.unread_of_read herr hp hs
    -- the read arms the endpoint, and it is the first to return the packet
    refine ⟨fun _ => (by rintro ⟨⟩), fun _ => ⟨fun _ d k hk => ?_, fun b k out hret => ?_⟩⟩
    · have : some (data, 1) = some (d, k) := by
        simpa [deliver, Label.received, Label.returned] using hk
      exact (Prod.mk.inj (Option.some.inj this)).2.symm
    · rw [Label.returned, if_pos rfl, hold.fetch] at hret
      obtain ⟨rfl, hfetch⟩ := Prod.mk.inj (Option.some.inj hret)
      obtain ⟨rfl, rfl⟩ := Prod.mk.inj hfetch
      exact ⟨data, rfl, rfl, rfl⟩
  | wrote herr hp =>
    exact h.deliversOnce_rearm ⟨rfl, herr, hp⟩ (by simp [harms]) rfl rfl
  | unstalled hp => exact h.deliversOnce_rearm ⟨rfl, rfl, hp⟩ (by simp [harms]) rfl rfl
  | configured => exact h.deliversOnce_rearm trivial (by simp [harms]) rfl rfl
  | reset => simp [Label.isReset] at hreset
  | other hrec hret _ hre =>
    refine ⟨fun _ hr => absurd hr hre, fun _ => ⟨fun ha => by simp [harms] at ha, ?_⟩⟩
    rw [hret]
    rintro _ _ _ ⟨⟩

end Slot

/-- Nothing has been received yet. -/
theorem Sys.Quiet.slot {s : Sys} {e : EpId} {ep : Endpoint} (h : s.Quiet e) (n : Nat) :
    Slot n (s.view e ep) none :=
  .idle h.primed h.completed (Or.inr h.signalled) (by rintro _ _ ⟨⟩)

/-- A run without a bus reset delivers every packet of an OUT endpoint exactly
    once if and only if no call other than a read arms the endpoint while its
    `ENDPTCOMPLETE` bit is set. -/
theorem delivered_once_iff {s₀ s : Sys} {tr : Trace} {e : EpId} {ep : Endpoint}
    (hs : Reachable s₀) (hep : s₀.ep e = some ep) (hout : e.dir = .Out) (h0 : e.num.val ≠ 0)
    (hq : s₀.Quiet e) (hrun : Run Step s₀ tr s) (hreset : NoReset tr) :
    Always (fun pre _ l => DeliversOnce e (lastPacket e pre) l) tr ↔
      Always (fun _ s l => (s.view e ep).Rearms e l → s.completed e = false) tr := by
  -- along the run, the endpoint is the same and its view is a slot
  refine hrun.always_iff hreset
    (I := fun tr s => s.WF ∧ s.ep e = some ep ∧
      Slot ep.packetLen (s.view e ep) (lastPacket e tr))
    ⟨hs.wf, hep, hq.slot _⟩ ?_ ?_
  · rintro tr s l s' ⟨hwf, hep, hslot⟩ hl hc hstep
    have hsize := (hwf.epOk e ep hep).td.size_le
    refine ⟨hstep.wf hwf, (hstep.ep_eq hwf e).trans hep, ?_⟩
    rw [lastPacket_snoc, hstep.view_eq hwf hep]
    exact hslot.step hsize (hstep.outStep hwf hep hout h0) hl hc
  · rintro tr s l s' ⟨hwf, hep, hslot⟩ hl hstep
    exact hslot.deliversOnce_iff (hstep.outStep hwf hep hout h0) hl (hstep.arms_iff hwf hep)

/-- A packet received, signalled and read. -/
theorem delivered_once_device :
    ∃ tr s, Run Step device tr s ∧ (lastPacket bulkOut tr = some ([1, 2, 3], 1) ∧
      Always (fun pre _ l => DeliversOnce bulkOut (lastPacket bulkOut pre) l) tr) := by
  obtain ⟨tr, s, hrun, hreset, hlast, hc⟩ := exists_run (s := device)
    (p := fun tr _ => NoReset tr ∧ lastPacket bulkOut tr = some ([1, 2, 3], 1) ∧
      Always (fun _ s l => (s.view bulkOut (deviceEndpoint bulkOut 2 .Bulk)).Rearms bulkOut l →
        s.completed bulkOut = false) tr)
    [.call .configure, .hw (.outDone 1 [1, 2, 3]), .call .poll,
      .call (.read bulkOut.address (List.replicate 64 0))] (by decide +kernel)
  exact ⟨tr, s, hrun, hlast, (delivered_once_iff device_booted.reachable device_bulkOut rfl
    (by decide) (device_booted.quiet _) hrun hreset).mpr hc⟩

/-- An unstall arms the endpoint over a packet that was signalled and not read. -/
theorem delivered_once_fails :
    ∃ tr s, Run Step device tr s ∧ NoReset tr ∧
      ¬ Always (fun pre _ l => DeliversOnce bulkOut (lastPacket bulkOut pre) l) tr := by
  obtain ⟨tr, t, l, s, hrun, hstep, hreset, harm, hlast⟩ := exists_step (s := device)
    (p := fun tr t l _ => NoReset (tr ++ [(t, l)]) ∧ l.Arms bulkOut ∧
      deliver bulkOut (lastPacket bulkOut tr) l = some ([1, 2, 3], 0))
    [.call .configure, .hw (.outDone 1 [1, 2, 3]), .call .poll]
    (.call (.setStalled bulkOut.address false)) (by decide +kernel)
  refine ⟨_, s, hrun.snoc hstep, hreset, fun h => ?_⟩
  have hread := (always_snoc.mp h).2.arm harm [1, 2, 3] 0 hlast
  simp at hread

/-! ## Reads agree with polls -/

/-- Follow what the last poll that found traffic reported of the endpoint,
    until a read returns data. -/
def owe (e : EpId) (b : Bool) (l : Label) : Bool :=
  match l.reported e.num with
  | some r => r
  | none => if (l.returned e).isSome then false else b

/-- The last poll that found traffic reported the endpoint, and no read has
    returned data since. -/
def owed (e : EpId) (tr : Trace) : Bool := tr.foldl (fun b x => owe e b x.2) false

theorem owed_snoc (e : EpId) (tr : Trace) (s : Sys) (l : Label) :
    owed e (tr ++ [(s, l)]) = owe e (owed e tr) l := by
  rw [owed, List.foldl_append]
  rfl

/-- A read of the endpoint, if its descriptor carries no error, returns data
    when that is owed and would block otherwise. -/
def ReadAgrees (e : EpId) (tr : Trace) (s : Sys) : Prop :=
  (s.td e.slot).errored = false → ∀ buf, ∃ r,
    (run (BusAdapter.read e.address buf) s).res = .ok r ∧
      if owed e tr then ∃ x, r = .ok x else r = .error .WouldBlock

/-- The same, of the endpoint's view. -/
def EpView.Agrees (v : EpView) (owed : Bool) : Prop :=
  v.errored = false → ((v.primed = false ∧ v.signalled = true) ↔ owed = true)

instance (v : EpView) (owed : Bool) : Decidable (v.Agrees owed) :=
  inferInstanceAs (Decidable (v.errored = false → (_ ↔ owed = true)))

theorem readAgrees_iff {s : Sys} {e : EpId} {ep : Endpoint} {tr : Trace} (h : s.WF)
    (hep : s.ep e = some ep) (h0 : e.num.val ≠ 0) :
    ReadAgrees e tr s ↔ (s.view e ep).Agrees (owed e tr) := by
  have haddr : s.ReadsFrom e.address e := (Sys.readsFrom_address hep h0).mpr rfl
  have hset : ∀ buf, ¬ s.TakesSetup e buf := by
    rintro buf ⟨rfl, -⟩
    exact h0 rfl
  have hres : ∀ buf, (run (BusAdapter.read e.address buf) s).res = .ok (s.readRet e ep buf) := by
    intro buf
    rw [run_busRead h haddr hep, if_neg (hset buf)]
    split <;> rfl
  refine forall_congr' fun herr => ?_
  -- without an error, the read is decided by the two bits
  have hread : s.Readable e ep ↔
      (s.view e ep).primed = false ∧ (s.view e ep).signalled = true :=
    ⟨fun hr => ⟨hr.2.1, hr.2.2 h0⟩, fun hr => ⟨herr, hr.1, fun _ => hr.2⟩⟩
  rw [← hread]
  constructor
  · intro hall
    obtain ⟨r, hr, howed⟩ := hall []
    obtain rfl := Res.ok.inj (hr.symm.trans (hres []))
    by_cases hrd : s.Readable e ep
    · rw [Sys.readRet_of_readable (hset []) hrd] at howed
      refine iff_of_true hrd ?_
      by_contra ho
      rw [if_neg ho] at howed
      simp at howed
    · rw [Sys.readRet_of_not_readable (hset []) hrd] at howed
      refine iff_of_false hrd fun ho => ?_
      rw [if_pos ho] at howed
      simp at howed
  · intro hiff buf
    refine ⟨_, hres buf, ?_⟩
    by_cases hrd : s.Readable e ep
    · rw [if_pos (hiff.mp hrd), Sys.readRet_of_readable (hset buf) hrd]
      exact ⟨_, rfl⟩
    · rw [if_neg fun ho => hrd (hiff.mpr ho), Sys.readRet_of_not_readable (hset buf) hrd]
      have herrv : (s.view e ep).errored = false := herr
      rw [herrv]
      rfl

/-- A step that keeps `ep_out` and the hardware in step: no call arms the
    endpoint while a packet was signalled and is complete, no poll finds it
    complete but armed again, and no packet comes in before the poll that takes
    back the last signal. -/
structure KeepsInStep (e : EpId) (v : EpView) (l : Label) : Prop where
  rearm : v.Rearms e l → v.signalled = true → v.completed = false
  poll : (l.reported e.num).isSome → v.primed = true → v.completed = false
  receive : (l.received e.num).isSome → v.signalled = false

instance (e : EpId) (v : EpView) (l : Label) : Decidable (KeepsInStep e v l) :=
  decidable_of_iff
    ((v.Rearms e l → v.signalled = true → v.completed = false) ∧
      ((l.reported e.num).isSome → v.primed = true → v.completed = false) ∧
      ((l.received e.num).isSome → v.signalled = false))
    ⟨fun h => ⟨h.1, h.2.1, h.2.2⟩, fun h => ⟨h.rearm, h.poll, h.receive⟩⟩

/-- The endpoint while everything is in step. -/
structure InStep (v : EpView) (owed : Bool) : Prop where
  errored : v.primed = true → v.errored = false
  agrees : v.Agrees owed
  signalled : owed = true → v.signalled = true
  completed : v.signalled = true → v.completed = owed

section InStep

variable {e : EpId} {n : Nat} {v : EpView} {b : Bool} {l : Label} {acts : List EpAct}

/-- A call that arms the endpoint finds no data owed. -/
theorem InStep.rearmed (h : InStep v b) (hc : v.signalled = true → v.completed = false) :
    b = false := by
  by_contra hb
  have hb' : b = true := by simpa using hb
  have hs := h.signalled hb'
  rw [← h.completed hs, hc hs] at hb'
  simp at hb'

/-- The endpoint right after such a call. -/
theorem InStep.armed (h : InStep v b) (hc : v.signalled = true → v.completed = false)
    {w : EpView} (hp : w.primed = true) (herr : w.errored = false)
    (hs : w.signalled = v.signalled) (hcomp : w.completed = v.completed) : InStep w b := by
  have hb := h.rearmed hc
  refine ⟨fun _ => herr, fun _ => ?_, ?_, ?_⟩
  · rw [hp, hb]
    simp
  · rw [hb]
    simp
  · rw [hs, hcomp]
    exact h.completed

theorem InStep.step (h : InStep v b) (hstep : OutStep e n v l acts) (hreset : l.isReset = false)
    (hc : KeepsInStep e v l) : InStep (v.acts acts) (owe e b l) := by
  obtain ⟨herr, hagree, hsig, hcomp⟩ := id h
  cases hstep with
  | received hp hlen =>
    -- the bit is not set from the packet before
    have hs : v.signalled = false := hc.receive (by simp [Label.received])
    have hb : b = false := by
      by_contra hb
      rw [hsig (by simpa using hb)] at hs
      simp at hs
    refine ⟨fun _ => rfl, fun _ => ?_, ?_, ?_⟩
    · show false = false ∧ v.signalled = true ↔ b = true
      rw [hs, hb]
      simp
    · exact hsig
    · intro hs'
      rw [show v.signalled = true from hs'] at hs
      simp at hs
  | failed hp => exact ⟨(by rintro ⟨⟩), (by rintro ⟨⟩), hsig, hcomp⟩
  | polled hbit =>
    -- the poll sets the bit to what has completed
    have hb : ∀ epIn epSetup obs, owe e b (.call .poll (.poll (.Data _ epIn epSetup)) obs) =
        v.completed := fun _ _ _ => hbit
    rw [hb]
    refine ⟨herr, fun _ => ?_, id, fun _ => rfl⟩
    show v.primed = false ∧ v.completed = true ↔ v.completed = true
    refine ⟨And.right, fun hcom => ⟨?_, hcom⟩⟩
    by_contra hp
    rw [hc.poll rfl (by simpa using hp)] at hcom
    simp at hcom
  | read _ _ hs =>
    have hb : ∀ buf x obs, owe e b (.call (.read e.address buf) (.read (.ok x)) obs) = false := by
      simp [owe, Label.reported, Label.returned]
    rw [hb]
    refine ⟨fun _ => rfl, fun _ => ?_, (by rintro ⟨⟩), fun _ => rfl⟩
    show true = false ∧ v.signalled = true ↔ false = true
    simp
  | wrote herr hp => exact h.armed (hc.rearm ⟨rfl, herr, hp⟩) rfl rfl rfl rfl
  | unstalled hp => exact h.armed (hc.rearm ⟨rfl, rfl, hp⟩) rfl rfl rfl rfl
  | configured => exact h.armed (hc.rearm trivial) rfl rfl rfl rfl
  | reset => simp [Label.isReset] at hreset
  | other _ hret hrep =>
    rw [owe, hrep, hret]
    exact h

/-- Data that is owed is no longer there once a call has armed the endpoint. -/
theorem InStep.not_agrees_armed (h : InStep v b) {w : EpView} (hp : w.primed = true)
    (herr : w.errored = false) (hw : w.Agrees b) (hs : v.signalled = true) :
    v.completed = false := by
  rw [h.completed hs]
  by_contra hb
  have hp' := ((hw herr).mpr (by simpa using hb)).1
  rw [hp] at hp'
  simp at hp'

/-- A step after which reads still agree kept everything in step. -/
theorem InStep.keeps (h : InStep v b) (hstep : OutStep e n v l acts) (hreset : l.isReset = false)
    (hagree : (v.acts acts).Agrees (owe e b l)) : KeepsInStep e v l := by
  cases hstep with
  | received hp hlen =>
    refine ⟨(by rintro ⟨⟩), (by rintro ⟨⟩), fun _ => ?_⟩
    by_contra hs
    have hs' : v.signalled = true := by simpa using hs
    -- the bit owes a packet, and the endpoint waits for one
    have hb : b = true := (hagree rfl).mp ⟨rfl, hs'⟩
    have hp' := ((h.agrees (h.errored hp)).mpr hb).1
    rw [hp] at hp'
    simp at hp'
  | failed => exact ⟨(by rintro ⟨⟩), (by rintro ⟨⟩), (by rintro ⟨⟩)⟩
  | polled hbit =>
    refine ⟨(by rintro ⟨⟩), fun _ hp => ?_, (by rintro ⟨⟩)⟩
    by_contra hcom
    have hb : ∀ epIn epSetup obs, owe e b (.call .poll (.poll (.Data _ epIn epSetup)) obs) =
        v.completed := fun _ _ _ => hbit
    rw [hb] at hagree
    have hp' : v.primed = false := ((hagree (h.errored hp)).mpr (by simpa using hcom)).1
    rw [hp] at hp'
    simp at hp'
  | read => exact ⟨(by rintro ⟨⟩), (by rintro ⟨⟩), (by rintro ⟨⟩)⟩
  | wrote => exact ⟨fun _ => h.not_agrees_armed rfl rfl hagree, (by rintro ⟨⟩), (by rintro ⟨⟩)⟩
  | unstalled => exact ⟨fun _ => h.not_agrees_armed rfl rfl hagree, (by rintro ⟨⟩), (by rintro ⟨⟩)⟩
  | configured => exact ⟨fun _ => h.not_agrees_armed rfl rfl hagree, (by rintro ⟨⟩), (by rintro ⟨⟩)⟩
  | reset => simp [Label.isReset] at hreset
  | other hrec _ hrep hre =>
    refine ⟨fun hr => absurd hr hre, ?_, ?_⟩
    · rw [hrep]
      rintro ⟨⟩
    · rw [hrec]
      rintro ⟨⟩

end InStep

theorem Sys.Quiet.inStep {s : Sys} {e : EpId} {ep : Endpoint} (h : s.Quiet e) :
    InStep (s.view e ep) false := by
  have hs : (s.view e ep).signalled = false := h.signalled
  have hp : (s.view e ep).primed = false := h.primed
  refine ⟨?_, fun _ => ?_, (by rintro ⟨⟩), ?_⟩
  · rw [hp]
    rintro ⟨⟩
  · rw [hs]
    simp
  · rw [hs]
    rintro ⟨⟩

/-- In a run without a bus reset, what reads of an OUT endpoint would return
    agrees with what polls signalled in every state if and only if every step
    keeps `ep_out` and the hardware in step. -/
theorem read_agrees_iff {s₀ s : Sys} {tr : Trace} {e : EpId} {ep : Endpoint}
    (hs : Reachable s₀) (hep : s₀.ep e = some ep) (hout : e.dir = .Out) (h0 : e.num.val ≠ 0)
    (hq : s₀.Quiet e) (hrun : Run Step s₀ tr s) (hreset : NoReset tr) :
    Throughout (ReadAgrees e) tr s ↔
      Always (fun _ s l => KeepsInStep e (s.view e ep) l) tr := by
  refine hrun.throughout_iff hreset
    (I := fun tr s => s.WF ∧ s.ep e = some ep ∧ InStep (s.view e ep) (owed e tr))
    ⟨hs.wf, hep, hq.inStep⟩ ?_ ?_ ?_
  · rintro tr s l s' ⟨hwf, hep, hin⟩ hl hc hstep
    refine ⟨hstep.wf hwf, (hstep.ep_eq hwf e).trans hep, ?_⟩
    rw [owed_snoc, hstep.view_eq hwf hep]
    exact hin.step (hstep.outStep hwf hep hout h0) hl hc
  · rintro tr s ⟨hwf, hep, hin⟩
    exact (readAgrees_iff hwf hep h0).mpr hin.agrees
  · rintro tr s l s' ⟨hwf, hep, hin⟩ hl hstep hgood
    have hep' := (hstep.ep_eq hwf e).trans hep
    rw [readAgrees_iff (hstep.wf hwf) hep' h0, owed_snoc, hstep.view_eq hwf hep] at hgood
    exact hin.keeps (hstep.outStep hwf hep hout h0) hl hgood

/-- Two packets, each signalled before it is read. -/
theorem read_agrees_device :
    ∃ tr s, Run Step device tr s ∧ (lastPacket bulkOut tr = some ([4, 5], 1) ∧
      Throughout (ReadAgrees bulkOut) tr s) := by
  obtain ⟨tr, s, hrun, hreset, hlast, hc⟩ := exists_run (s := device)
    (p := fun tr _ => NoReset tr ∧ lastPacket bulkOut tr = some ([4, 5], 1) ∧
      Always (fun _ s l => KeepsInStep bulkOut (s.view bulkOut (deviceEndpoint bulkOut 2 .Bulk)) l)
        tr)
    [.call .configure, .hw (.outDone 1 [1, 2, 3]), .call .poll,
      .call (.read bulkOut.address (List.replicate 64 0)), .call (.write bulkIn.address [7]),
      .hw (.inDone 1 1), .call .poll, .hw (.outDone 1 [4, 5]), .call .poll,
      .call (.read bulkOut.address (List.replicate 64 0))] (by decide +kernel)
  exact ⟨tr, s, hrun, hlast, (read_agrees_iff device_booted.reachable device_bulkOut rfl
    (by decide) (device_booted.quiet _) hrun hreset).mpr hc⟩

/-- A second packet comes in after the first was read, and before the next poll. -/
theorem read_agrees_fails :
    ∃ tr s, Run Step device tr s ∧ NoReset tr ∧ ¬ Throughout (ReadAgrees bulkOut) tr s := by
  obtain ⟨tr, s, hrun, hreset, hbad⟩ := exists_run (s := device)
    (p := fun tr s => NoReset tr ∧
      ¬ (s.view bulkOut (deviceEndpoint bulkOut 2 .Bulk)).Agrees (owed bulkOut tr))
    [.call .configure, .hw (.outDone 1 [1, 2, 3]), .call .poll,
      .call (.read bulkOut.address (List.replicate 64 0)), .hw (.outDone 1 [4, 5])]
    (by decide +kernel)
  have hwf := device_booted.reachable.wf
  have hep := (ep_run hwf hrun bulkOut).trans device_bulkOut
  exact ⟨tr, s, hrun, hreset, fun h =>
    hbad ((readAgrees_iff (hwf.run hrun) hep (by decide)).mp h.2)⟩

end ImxrtUsbd
