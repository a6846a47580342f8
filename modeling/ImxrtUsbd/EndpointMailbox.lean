/-
  ImxrtUsbd.EndpointMailbox

  What an endpoint is for.  Seen from both of its ends, an endpoint is a place
  for one packet: on an IN endpoint `write` posts and the controller takes, on
  an OUT endpoint the controller posts and `read` takes.

  - `InBox` and `OutBox` relate an endpoint to its mailbox; `inBox_refines` and
    `outBox_refines` say that all steps of the system are steps of it.
  - `in_packets_in_order`, `out_packets_in_order`: so packets come out as they
    went in, each once.
-/
import ImxrtUsbd.InTransfers
import ImxrtUsbd.OutDelivery
import ImxrtUsbd.Lib.Mailbox

namespace ImxrtUsbd

open Lib

/-! ## IN endpoints -/

namespace Label

/-- The step reads data from the endpoint. -/
def Fetches (s : Sys) (e : EpId) : Label → Prop
  | .call (.read addr _) (.read (.ok _)) _ => s.ReadsFrom addr e
  | _ => False

instance (s : Sys) (e : EpId) (l : Label) : Decidable (l.Fetches s e) := by
  unfold Fetches
  split <;> infer_instance

/-- What the step does to the packet of an IN endpoint. -/
def inMail (s : Sys) (e : EpId) : Label → Option (Mail (List Byte))
  | .call (.write addr buf) (.write (.ok n)) _ =>
    if s.WritesTo addr e then some (.post (buf.take n)) else none
  | .call (.write addr _) (.write (.error .WouldBlock)) _ =>
    if s.WritesTo addr e then some .busy else none
  | .call (.reset _) _ _ => some .drop
  | .hw (.inDone n _) => if e = ⟨.In, n⟩ then some (.take (s.described e)) else none
  | .hw (.error f _ _ _) => if e = f then some .drop else none
  -- a SETUP packet cancels the response to the last one
  | .hw (.setup _) => if e = .ep0In then some .drop else none
  | _ => none

end Label

/-- What a step can be to an IN endpoint: what becomes of its view, and of its
    packet. -/
inductive InTurn (v : EpView) (described : List Byte) (v' : EpView) :
    Option (Mail (List Byte)) → Prop where
  | quiet (as : List EpAct) : (∀ a ∈ as, a.Light) → v' = v.acts as → InTurn v described v' none
  | post {data : List Byte} : v.primed = false → v'.primed = true → v'.Carries data →
      InTurn v described v' (some (.post data))
  | busy : v.primed = true → v' = v → InTurn v described v' (some .busy)
  | take : v.primed = true → v'.primed = false → InTurn v described v' (some (.take described))
  | drop : v'.primed = false → InTurn v described v' (some .drop)

section InTurn

variable {s s' : Sys} {l : Label} {e : EpId} {ep : Endpoint}

/-- A write acts on the endpoint it goes to, if it is accepted. -/
theorem acts_write (hep : s.ep e = some ep) (hdir : e.dir = .In) (addr : EndpointAddress)
    (buf : List Byte) :
    Call.acts s e ep (.write addr buf) =
      if s.WritesTo addr e ∧ s.Writable e then
        [.fill (buf.take ep.packetLen), .schedule (min ep.packetLen buf.length)]
      else [] := by
  -- its address is found
  have halloc : ∀ f : EpId, f = e → (s.lookup f.address).isSome = true := by
    rintro f rfl
    rw [Sys.lookup_address, hep]
    rfl
  by_cases h0 : e.num.val ≠ 0
  · have hto : s.WritesTo addr e ↔ addr = e.address := by
      constructor
      · rintro ⟨-, h⟩
        split at h
        · subst h
          exact absurd rfl h0
        · exact h
      · rintro rfl
        rw [Sys.WritesTo, EpId.address_index, if_neg h0]
        exact ⟨halloc e rfl, rfl⟩
    rw [Call.acts, if_pos h0]
    exact if_congr (and_congr_left fun _ => hto.symm) rfl rfl
  · have he : e = .ep0In := by
      rcases e.num_cases with h | rfl | rfl
      · exact absurd h h0
      · simp [EpId.ep0Out] at hdir
      · rfl
    subst he
    have hto : s.WritesTo addr .ep0In ↔ addr.index = 0 ∧ (s.lookup addr).isSome := by
      constructor
      · rintro ⟨ha, h⟩
        refine ⟨?_, ha⟩
        by_contra hne
        rw [if_neg hne] at h
        rw [h] at hne
        exact hne (EpId.address_index .ep0In)
      · rintro ⟨hi, ha⟩
        exact ⟨ha, by rw [if_pos hi]⟩
    rw [Call.acts, if_neg h0, if_pos hdir]
    exact if_congr (by rw [hto, and_assoc]) rfl rfl

theorem HwEvent.inTurn {ev : HwEvent} (hev : ev.Enabled s) (hdir : e.dir = .In) :
    InTurn (s.view e ep) (s.described e) ((s.view e ep).acts (ev.acts e))
      (Label.inMail s e (.hw ev)) := by
  cases ev with
  | outDone n data =>
    have hne : e ≠ ⟨.Out, n⟩ := fun heq => by rw [heq] at hdir; simp at hdir
    rw [HwEvent.acts, only_of_ne hne]
    exact .quiet [] (by simp) rfl
  | inDone n k =>
    rw [HwEvent.acts, Label.inMail]
    by_cases he : e = ⟨.In, n⟩
    · rw [if_pos he, ← he, only_self]
      rw [HwEvent.Enabled, ← he] at hev
      exact .take hev.1 rfl
    · rw [if_neg he, only_of_ne he]
      exact .quiet [] (by simp) rfl
  | error f halted dataBuffer transaction =>
    rw [HwEvent.acts, Label.inMail]
    by_cases he : e = f
    · rw [if_pos he, he, only_self]
      exact .drop rfl
    · rw [if_neg he, only_of_ne he]
      exact .quiet [] (by simp) rfl
  | setup packet =>
    rw [Label.inMail]
    by_cases he : e = .ep0In
    · have hacts : (HwEvent.setup packet).acts e = [.unprime] := if_pos (Or.inr he)
      rw [if_pos he, hacts]
      exact .drop rfl
    · have hout : e ≠ .ep0Out := fun heq => by rw [heq] at hdir; simp [EpId.ep0Out] at hdir
      have hacts : (HwEvent.setup packet).acts e = [] := if_neg (not_or.mpr ⟨hout, he⟩)
      rw [if_neg he, hacts]
      exact .quiet [] (by simp) rfl
  | nak | resetBegin | resetEnd => exact .quiet [] (by simp) rfl

/-- A read that fetches nothing does nothing to an IN endpoint. -/
theorem Step.acts_read_in {addr : EndpointAddress} {buf : List Byte} {r : Ret} {obs : List Obs}
    (h : s.WF) (hep : s.ep e = some ep) (hdir : e.dir = .In)
    (hf : ¬ (Label.call (.read addr buf) r obs).Fetches s e)
    (hstep : Step s (.call (.read addr buf) r obs) s') :
    Call.acts s e ep (.read addr buf) = [] := by
  have hset : ¬ s.TakesSetup e buf := by
    rintro ⟨rfl, -⟩
    simp [EpId.ep0Out] at hdir
  rw [Call.acts, if_neg hset]
  by_cases haddr : s.ReadsFrom addr e
  · -- data would have been fetched
    have hnr : ¬ s.Readable e ep := by
      intro hr
      have hret := hstep.read_ret h haddr hep
      rw [Sys.readRet_of_readable hset hr] at hret
      subst hret
      exact hf haddr
    rw [if_neg hnr, ite_self]
  · rw [if_neg haddr]

/-- A write posts its packet, finds the one before it still there, or does nothing. -/
theorem Step.inTurn_write {addr : EndpointAddress} {buf : List Byte} {r : Ret} {obs : List Obs}
    (h : s.WF) (hep : s.ep e = some ep) (hdir : e.dir = .In)
    (hstep : Step s (.call (.write addr buf) r obs) s') :
    InTurn (s.view e ep) (s.described e) (s'.view e ep)
      (Label.inMail s e (.call (.write addr buf) r obs)) := by
  have hview := hstep.view_eq h hep
  obtain ⟨res, hrun, rfl⟩ := run_map_ok hstep.run_eq
  rw [Sys.acts_call hep, acts_write hep hdir] at hview
  by_cases haddr : s.WritesTo addr e
  · have hret := write_ret h haddr hep hrun
    by_cases hw : s.Writable e
    · have herr : (s.view e ep).errored = false := hw.1
      have hp : (s.view e ep).primed = false := hw.2
      rw [Sys.writeRet, herr, hp] at hret
      have hres : res = .ok (min ep.packetLen buf.length) := hret
      subst hres
      rw [Label.inMail, if_pos haddr]
      obtain ⟨-, hp', hc⟩ := hstep.carries_write h hep hdir haddr
      exact .post hp hp' hc
    · -- refused: on account of an error, or of the packet before it
      rw [if_neg fun hc => hw hc.2] at hview
      rw [Sys.writeRet] at hret
      cases herr : (s.view e ep).errored with
      | true =>
        have hres : res = .error .InvalidState := by rw [hret, herr, if_pos rfl]
        subst hres
        exact .quiet [] (by simp) hview
      | false =>
        have hp : (s.view e ep).primed = true := by
          by_contra hp
          exact hw ⟨herr, Bool.eq_false_of_not_eq_true hp⟩
        rw [herr, hp] at hret
        have hres : res = .error .WouldBlock := hret
        subst hres
        rw [Label.inMail, if_pos haddr]
        exact .busy hp hview
  · -- a write to another endpoint
    rw [if_neg fun hc => haddr hc.1] at hview
    have hnone : Label.inMail s e (.call (.write addr buf) (.write res) obs) = none := by
      unfold Label.inMail
      split <;> simp_all
    rw [hnone]
    exact .quiet [] (by simp) hview

theorem Step.inTurn (h : s.WF) (hep : s.ep e = some ep) (hdir : e.dir = .In)
    (hf : ¬ l.Fetches s e) (hstep : Step s l s') :
    InTurn (s.view e ep) (s.described e) (s'.view e ep) (l.inMail s e) := by
  have hview := hstep.view_eq h hep
  cases l with
  | hw ev =>
    rw [hview]
    exact HwEvent.inTurn hstep.enabled.1 hdir
  | call c r obs =>
    rw [Sys.acts_call hep] at hview
    cases c with
    | poll =>
      refine .quiet _ ?_ hview
      simp only [Call.acts]
      split_ifs <;> simp [EpAct.Light]
    | read addr buf =>
      rw [hstep.acts_read_in h hep hdir hf] at hview
      exact .quiet [] (by simp) hview
    | write addr buf => exact hstep.inTurn_write h hep hdir
    | setStalled addr stalled =>
      -- only OUT endpoints are primed again
      rw [Call.acts, if_neg fun hc => by simp [hdir] at hc] at hview
      exact .quiet [] (by simp) hview
    | reset debugAssertions =>
      refine .drop ?_
      rw [hview]
      rfl
    | configure =>
      rw [Call.acts, if_neg fun hc => by simp [hdir] at hc] at hview
      exact .quiet [] (by simp) hview
    | isStalled | setDeviceAddress | enable | enableZlt | setInterrupts =>
      exact .quiet [] (by simp) hview

end InTurn

/-- An IN endpoint as a mailbox: the packet that waits is the transfer in flight. -/
structure InBox (v : EpView) (b : Option (List Byte)) : Prop where
  free : b = none → v.primed = false
  full : ∀ data, b = some data → v.primed = true ∧ v.Carries data

namespace InBox

variable {v v' : EpView} {b : Option (List Byte)}

theorem of_unprimed (h : v.primed = false) : InBox v none := ⟨fun _ => h, by rintro _ ⟨⟩⟩

theorem of_primed (h : InBox v b) (hp : v.primed = true) :
    ∃ data, b = some data ∧ v.Carries data := by
  cases b with
  | none =>
    have hfree := h.free rfl
    rw [hp] at hfree
    simp at hfree
  | some data => exact ⟨data, rfl, (h.full data rfl).2⟩

theorem eq_none (h : InBox v b) (hp : v.primed = false) : b = none := by
  cases b with
  | none => rfl
  | some data =>
    have hfull := (h.full data rfl).1
    rw [hp] at hfull
    simp at hfull

theorem light (h : InBox v b) {as : List EpAct} (has : ∀ a ∈ as, a.Light) :
    InBox (v.acts as) b := by
  have hp : (v.acts as).primed = v.primed := by
    clear h
    induction as generalizing v with
    | nil => rfl
    | cons a as ih =>
      rw [List.forall_mem_cons] at has
      rw [EpView.acts_cons, ih has.2]
      have ha := has.1
      cases a with
      | ack | signal | complete => rfl
      | schedule | fill | unprime | retire => exact ha.elim
  refine ⟨fun hb => by rw [hp]; exact h.free hb, fun data hb => ?_⟩
  obtain ⟨hprimed, hc⟩ := h.full data hb
  exact ⟨by rw [hp]; exact hprimed, hc.light has⟩

end InBox

/-- To an IN endpoint, every step of the system is a step of its mailbox. -/
theorem inBox_refines {e : EpId} (ep : Endpoint) (hdir : e.dir = .In) :
    Refines Step Mailbox (fun s l => ¬ l.Fetches s e) (fun s l => l.inMail s e)
      (fun s b => s.WF ∧ s.ep e = some ep ∧ InBox (s.view e ep) b) where
  visible := by
    rintro s s' b l k ⟨hwf, hep, hbox⟩ hf hstep hk
    have hwf' := hstep.wf hwf
    have hep' := (hstep.ep_eq hwf e).trans hep
    have hturn := hstep.inTurn hwf hep hdir hf
    rw [hk] at hturn
    cases hturn with
    | @post data hp hp' hc =>
      obtain rfl := hbox.eq_none hp
      refine ⟨some data, .post data, hwf', hep', by rintro ⟨⟩, fun d hd => ?_⟩
      rw [← Option.some.inj hd]
      exact ⟨hp', hc⟩
    | busy hp heq =>
      obtain ⟨data, rfl, -⟩ := hbox.of_primed hp
      refine ⟨some data, .busy data, hwf', hep', ?_⟩
      rwa [heq]
    | take hp hp' =>
      obtain ⟨data, rfl, hc⟩ := hbox.of_primed hp
      -- what the controller fetches is the packet posted
      rw [(hwf.carries hep hc).described]
      exact ⟨none, .take data, hwf', hep', .of_unprimed hp'⟩
    | drop hp' => exact ⟨none, .drop b, hwf', hep', .of_unprimed hp'⟩
  silent := by
    rintro s s' b l ⟨hwf, hep, hbox⟩ hf hstep hk
    have hturn := hstep.inTurn hwf hep hdir hf
    rw [hk] at hturn
    cases hturn with
    | quiet as has heq =>
      refine ⟨hstep.wf hwf, (hstep.ep_eq hwf e).trans hep, ?_⟩
      rw [heq]
      exact hbox.light has

/-- The history of an IN endpoint as a mailbox. -/
def inMails (e : EpId) (tr : Trace) : List (Mail (List Byte)) := seen (fun s l => l.inMail s e) tr

/-- The packet in flight on an IN endpoint. -/
def Sys.inFlight (s : Sys) (e : EpId) : List (List Byte) :=
  if s.primed e then [s.described e] else []

theorem InBox.toList {s : Sys} {e : EpId} {ep : Endpoint} {b : Option (List Byte)} (h : s.WF)
    (hep : s.ep e = some ep) (hbox : InBox (s.view e ep) b) : b.toList = s.inFlight e := by
  cases b with
  | none =>
    have hp : s.primed e = false := hbox.free rfl
    rw [Sys.inFlight, hp, if_neg Bool.false_ne_true, Option.toList_none]
  | some data =>
    obtain ⟨hp, hc⟩ := hbox.full data rfl
    have hp : s.primed e = true := hp
    rw [Sys.inFlight, hp, if_pos rfl, (h.carries hep hc).described, Option.toList_some]

/-- Along a run, an IN endpoint goes through a run of its mailbox. -/
theorem inBox_run {s₀ s : Sys} {tr : Trace} {e : EpId} {ep : Endpoint}
    (hs : Reachable s₀) (hep : s₀.ep e = some ep) (hdir : e.dir = .In) (hq : s₀.Quiet e)
    (hrun : Run Step s₀ tr s) (hf : Always (fun _ s l => ¬ l.Fetches s e) tr) :
    ∃ tr' b, Run Mailbox none tr' b ∧ marks tr' = inMails e tr ∧ s.WF ∧ s.ep e = some ep ∧
      InBox (s.view e ep) b := by
  have hbox₀ : InBox (s₀.view e ep) none := .of_unprimed hq.primed
  exact (inBox_refines ep hdir).run hrun hf ⟨hs.wf, hep, hbox₀⟩

/-- An IN endpoint is a mailbox: writes post, and the controller takes; whatever
    waits is what its descriptor leads the controller to. -/
theorem in_endpoint_mailbox {s₀ s : Sys} {tr : Trace} {e : EpId} {ep : Endpoint}
    (hs : Reachable s₀) (hep : s₀.ep e = some ep) (hdir : e.dir = .In) (hq : s₀.Quiet e)
    (hrun : Run Step s₀ tr s) (hf : Always (fun _ s l => ¬ l.Fetches s e) tr) :
    ∃ tr' b, Run Mailbox none tr' b ∧ marks tr' = inMails e tr ∧ b.isSome = s.primed e ∧
      ∀ data, b = some data → s.Carries e ep data := by
  obtain ⟨tr', b, hrun', hmarks, hwf, hep', hbox⟩ := inBox_run hs hep hdir hq hrun hf
  refine ⟨tr', b, hrun', hmarks, ?_, fun data hdata => hwf.carries hep' (hbox.full data hdata).2⟩
  cases b with
  | none => exact (hbox.free rfl).symm
  | some data => exact (hbox.full data rfl).1.symm

/-- A packet transmitted, a write that comes too early, and an error. -/
theorem in_endpoint_mailbox_device : ∃ (tr : Trace) (s : Sys)
    (tr' : Hist (Option (List Byte)) (Mail (List Byte))) (b : Option (List Byte)),
    Run Step device tr s ∧ Run Mailbox none tr' b ∧
      marks tr' = [.post [1, 2, 3], .busy, .take [1, 2, 3], .post [4], .drop] := by
  obtain ⟨tr, s, hrun, hf, hmails⟩ := exists_run (s := device)
    (p := fun tr _ => Always (fun _ s l => ¬ l.Fetches s bulkIn) tr ∧
      inMails bulkIn tr = [.post [1, 2, 3], .busy, .take [1, 2, 3], .post [4], .drop])
    [.call .configure, .call (.write bulkIn.address [1, 2, 3]),
      .call (.write bulkIn.address [9]), .hw (.inDone 1 3), .call .poll,
      .call (.write bulkIn.address [4]), .hw (.error bulkIn true false false)]
    (by decide +kernel)
  obtain ⟨tr', b, hrun', hmarks, -⟩ := in_endpoint_mailbox device_booted.reachable device_bulkIn
    rfl (device_booted.quiet _) hrun hf
  exact ⟨tr, s, tr', b, hrun, hrun', hmarks.trans hmails⟩

/-- The packets that an IN endpoint transmits, with the one in flight, are the
    packets that writes were accepted for, in order and each once; of these at
    most one is missing for every error, bus reset or SETUP packet. -/
theorem in_packets_in_order {s₀ s : Sys} {tr : Trace} {e : EpId} {ep : Endpoint}
    (hs : Reachable s₀) (hep : s₀.ep e = some ep) (hdir : e.dir = .In) (hq : s₀.Quiet e)
    (hrun : Run Step s₀ tr s) (hf : Always (fun _ s l => ¬ l.Fetches s e) tr) :
    (Mail.takes (inMails e tr) ++ s.inFlight e).Sublist (Mail.posts (inMails e tr)) ∧
      (Mail.posts (inMails e tr)).length ≤
        (Mail.takes (inMails e tr) ++ s.inFlight e).length + Mail.drops (inMails e tr) ∧
      (Mail.drops (inMails e tr) = 0 →
        Mail.posts (inMails e tr) = Mail.takes (inMails e tr) ++ s.inFlight e) := by
  obtain ⟨tr', b, hrun', hmarks, hwf, hep', hbox⟩ := inBox_run hs hep hdir hq hrun hf
  rw [← hmarks, ← hbox.toList hwf hep']
  obtain ⟨hsub, hlen⟩ := Mailbox.order hrun'
  exact ⟨hsub, hlen, Mailbox.order_eq hrun'⟩

/-- Two packets transmitted, a write that comes too early, and one in flight. -/
theorem in_packets_in_order_device : ∃ tr s, Run Step device tr s ∧
    Mail.takes (inMails bulkIn tr) = [[1, 2, 3], [4, 5]] ∧ s.inFlight bulkIn = [[6]] ∧
      Mail.posts (inMails bulkIn tr) = Mail.takes (inMails bulkIn tr) ++ s.inFlight bulkIn := by
  obtain ⟨tr, s, hrun, hf, hd, htakes, hflight⟩ := exists_run (s := device)
    (p := fun tr s => Always (fun _ s l => ¬ l.Fetches s bulkIn) tr ∧
      Mail.drops (inMails bulkIn tr) = 0 ∧
      Mail.takes (inMails bulkIn tr) = [[1, 2, 3], [4, 5]] ∧ s.inFlight bulkIn = [[6]])
    [.call .configure, .call (.write bulkIn.address [1, 2, 3]),
      .call (.write bulkIn.address [9]), .hw (.inDone 1 3), .call .poll,
      .call (.write bulkIn.address [4, 5]), .hw (.outDone 1 [7]), .hw (.inDone 1 2),
      .call (.write bulkIn.address [6])] (by decide +kernel)
  obtain ⟨-, -, hall⟩ := in_packets_in_order device_booted.reachable device_bulkIn rfl
    (device_booted.quiet _) hrun hf
  exact ⟨tr, s, hrun, htakes, hflight, hall hd⟩

/-! ## OUT endpoints -/

/-- The packet that an OUT endpoint has received. -/
def Sys.held (s : Sys) (e : EpId) (ep : Endpoint) : List Byte :=
  (s.view e ep).bytes.take ((s.view e ep).size - (s.view e ep).left)

/-- What the step does to the packet of an OUT endpoint. -/
def Label.outMail (s : Sys) (e : EpId) (ep : Endpoint) (l : Label) : Option (Mail (List Byte)) :=
  match l.received e.num with
  | some data => some (.post data)
  | none => if (l.returned e).isSome then some (.take (s.held e ep)) else none

/-- No bus reset, and no call but a read arms the endpoint over a packet. -/
def Label.Careful (s : Sys) (e : EpId) (ep : Endpoint) (l : Label) : Prop :=
  l.isReset = false ∧ ((s.view e ep).Rearms e l → s.completed e = false)

instance (s : Sys) (e : EpId) (ep : Endpoint) (l : Label) : Decidable (l.Careful s e ep) :=
  inferInstanceAs (Decidable (_ ∧ (_ → _)))

/-- An OUT endpoint as a mailbox: the packet that waits has not been read. -/
def OutBox (n : Nat) (v : EpView) (b : Option (List Byte)) : Prop :=
  Slot n v (b.map fun data => (data, 0))

section OutBox

variable {n : Nat} {v : EpView} {b : Option (List Byte)}

/-- Once the last packet was read, nothing waits. -/
theorem Slot.outBox {last : Option (List Byte × Nat)} (h : Slot n v last) (hr : ReadOnce last) :
    OutBox n v none := by
  have hnone : ReadOnce none := by rintro _ _ ⟨⟩
  cases h with
  | armed hp hc hleft _ => exact .armed hp hc hleft hnone
  | unread data hlast _ =>
    have := hr data 0 hlast
    omega
  | idle hp hc hor _ => exact .idle hp hc hor hnone

theorem OutBox.holds {data : List Byte} (h : OutBox n v (some data)) : v.Holds n data := by
  have hnot : ¬ ReadOnce (some (data, 0)) := fun hr => by
    have := hr data 0 rfl
    omega
  cases h with
  | armed _ _ _ hr | idle _ _ _ hr => exact absurd hr hnot
  | unread d hd hold =>
    obtain rfl : data = d := (Prod.mk.inj (Option.some.inj hd)).1
    exact hold

theorem OutBox.completed (h : OutBox n v none) : v.completed = false := by
  cases h with
  | armed _ hc | idle _ hc => exact hc
  | unread _ hlast => simp at hlast

end OutBox

theorem Sys.held_of_holds {s : Sys} {e : EpId} {ep : Endpoint} {n : Nat} {data : List Byte}
    (h : (s.view e ep).Holds n data) : s.held e ep = data := by
  rw [Sys.held, h.received, h.bytes]

section OutTurn

variable {s s' : Sys} {l : Label} {e : EpId} {ep : Endpoint} {b : Option (List Byte)}

/-- A read takes the packet that waits. -/
theorem OutBox.of_read (hwf : s.WF) (hep : s.ep e = some ep) (hout : e.dir = .Out)
    (h0 : e.num.val ≠ 0) (hbox : OutBox ep.packetLen (s.view e ep) b) (hstep : Step s l s')
    {buf out : List Byte} {k : Nat} (hret : l.returned e = some (buf, k, out)) :
    b = some (s.held e ep) ∧ k = min buf.length (s.held e ep).length ∧
      out = (s.held e ep).take k ++ buf.drop k := by
  have hturn := hstep.outStep hwf hep hout h0
  generalize s.acts l e = acts at hturn
  cases hturn with
  | @read buf' obs herr hp hs =>
    obtain ⟨data, hlast, hold⟩ := Slot.unread_of_read hbox herr hp hs
    rw [Label.returned, if_pos rfl, hold.fetch] at hret
    obtain ⟨rfl, hfetch⟩ := Prod.mk.inj (Option.some.inj hret)
    obtain ⟨rfl, rfl⟩ := Prod.mk.inj hfetch
    rw [Sys.held_of_holds hold]
    obtain ⟨d, rfl, hd⟩ := Option.map_eq_some_iff.mp hlast
    rw [(Prod.mk.inj hd).1]
    exact ⟨rfl, rfl, rfl⟩
  | received | failed | polled | wrote | unstalled | configured | reset =>
    simp [Label.returned] at hret
  | other _ hnone =>
    rw [hnone] at hret
    simp at hret

end OutTurn

/-- To an OUT endpoint, every careful step of the system is a step of its mailbox. -/
theorem outBox_refines {e : EpId} (ep : Endpoint) (hout : e.dir = .Out) (h0 : e.num.val ≠ 0) :
    Refines Step Mailbox (fun s l => l.Careful s e ep) (fun s l => l.outMail s e ep)
      (fun s b => s.WF ∧ s.ep e = some ep ∧ OutBox ep.packetLen (s.view e ep) b) where
  visible := by
    rintro s s' b l k ⟨hwf, hep, hbox⟩ ⟨hreset, hre⟩ hstep hk
    have hwf' := hstep.wf hwf
    have hep' := (hstep.ep_eq hwf e).trans hep
    have hslot := Slot.step hbox (hwf.epOk e ep hep).td.size_le
      (hstep.outStep hwf hep hout h0) hreset hre
    rw [← hstep.view_eq hwf hep, deliver] at hslot
    rw [Label.outMail] at hk
    cases hrec : l.received e.num with
    | some data =>
      rw [hrec] at hslot hk
      obtain rfl := Option.some.inj hk
      -- the endpoint was primed, so nothing waited
      have hnone : b = none := by
        cases b with
        | none => rfl
        | some d =>
          have hp := hbox.holds.primed
          have hturn := hstep.outStep hwf hep hout h0
          generalize s.acts l e = acts at hturn
          cases hturn with
          | received hp' _ =>
            rw [hp] at hp'
            simp at hp'
          | failed | polled | read | wrote | unstalled | configured | reset =>
            simp [Label.received] at hrec
          | other hrec' =>
            rw [hrec'] at hrec
            simp at hrec
      subst hnone
      exact ⟨some data, .post data, hwf', hep', hslot⟩
    | none =>
      rw [hrec] at hslot hk
      cases hret : l.returned e with
      | none =>
        rw [hret] at hk
        simp at hk
      | some x =>
        obtain ⟨buf, k', out⟩ := x
        obtain ⟨rfl, -, -⟩ := OutBox.of_read hwf hep hout h0 hbox hstep hret
        rw [hret] at hslot hk
        obtain rfl := Option.some.inj hk
        refine ⟨none, .take _, hwf', hep', Slot.outBox hslot fun d j hj => ?_⟩
        exact (Prod.mk.inj (Option.some.inj hj)).2.symm
  silent := by
    rintro s s' b l ⟨hwf, hep, hbox⟩ ⟨hreset, hre⟩ hstep hk
    refine ⟨hstep.wf hwf, (hstep.ep_eq hwf e).trans hep, ?_⟩
    have hslot := Slot.step hbox (hwf.epOk e ep hep).td.size_le
      (hstep.outStep hwf hep hout h0) hreset hre
    rw [← hstep.view_eq hwf hep, deliver] at hslot
    rw [Label.outMail] at hk
    cases hrec : l.received e.num with
    | some data =>
      rw [hrec] at hk
      simp at hk
    | none =>
      rw [hrec] at hslot hk
      cases hret : l.returned e with
      | none =>
        rw [hret] at hslot
        exact hslot
      | some x =>
        rw [hret] at hk
        simp at hk

/-- The history of an OUT endpoint as a mailbox. -/
def outMails (e : EpId) (ep : Endpoint) (tr : Trace) : List (Mail (List Byte)) :=
  seen (fun s l => l.outMail s e ep) tr

/-- The packet of an OUT endpoint that waits to be read. -/
def Sys.unread (s : Sys) (e : EpId) (ep : Endpoint) : List (List Byte) :=
  if s.completed e then [s.held e ep] else []

theorem drops_outMails (e : EpId) (ep : Endpoint) (tr : Trace) :
    Mail.drops (outMails e ep tr) = 0 := by
  rw [Mail.drops, List.countP_eq_zero]
  intro k hk
  obtain ⟨⟨t, l⟩, -, hl⟩ := List.mem_filterMap.mp hk
  have hl' : l.outMail t e ep = some k := hl
  rw [Label.outMail] at hl'
  split at hl'
  · rw [← Option.some.inj hl']
    exact Bool.false_ne_true
  · split at hl'
    · rw [← Option.some.inj hl']
      exact Bool.false_ne_true
    · simp at hl'

theorem OutBox.toList {s : Sys} {e : EpId} {ep : Endpoint} {n : Nat} {b : Option (List Byte)}
    (hbox : OutBox n (s.view e ep) b) : b.toList = s.unread e ep := by
  cases b with
  | none =>
    have hcom : s.completed e = false := hbox.completed
    rw [Sys.unread, hcom, if_neg Bool.false_ne_true, Option.toList_none]
  | some data =>
    have hcom : s.completed e = true := hbox.holds.completed
    rw [Sys.unread, hcom, if_pos rfl, Sys.held_of_holds hbox.holds, Option.toList_some]

/-- Along a careful run, an OUT endpoint goes through a run of its mailbox. -/
theorem outBox_run {s₀ s : Sys} {tr : Trace} {e : EpId} {ep : Endpoint}
    (hs : Reachable s₀) (hep : s₀.ep e = some ep) (hout : e.dir = .Out) (h0 : e.num.val ≠ 0)
    (hq : s₀.Quiet e) (hrun : Run Step s₀ tr s) (hc : Always (fun _ s l => l.Careful s e ep) tr) :
    ∃ tr' b, Run Mailbox none tr' b ∧ marks tr' = outMails e ep tr ∧ s.WF ∧ s.ep e = some ep ∧
      OutBox ep.packetLen (s.view e ep) b := by
  have hbox₀ : OutBox ep.packetLen (s₀.view e ep) none := hq.slot _
  exact (outBox_refines ep hout h0).run hrun hc ⟨hs.wf, hep, hbox₀⟩

/-- In careful runs an OUT endpoint is a mailbox: the controller posts, and
    reads take; a packet waits while the completion bit is set. -/
theorem out_endpoint_mailbox {s₀ s : Sys} {tr : Trace} {e : EpId} {ep : Endpoint}
    (hs : Reachable s₀) (hep : s₀.ep e = some ep) (hout : e.dir = .Out) (h0 : e.num.val ≠ 0)
    (hq : s₀.Quiet e) (hrun : Run Step s₀ tr s) (hc : Always (fun _ s l => l.Careful s e ep) tr) :
    ∃ tr' b, Run Mailbox none tr' b ∧ marks tr' = outMails e ep tr ∧
      b.isSome = s.completed e ∧
      ∀ data, b = some data → s.primed e = false ∧ (s.td e.slot).errored = false ∧
        s.mem.load ep.buffer.ptr data.length = data := by
  obtain ⟨tr', b, hrun', hmarks, hwf, hep', hbox⟩ := outBox_run hs hep hout h0 hq hrun hc
  refine ⟨tr', b, hrun', hmarks, ?_, ?_⟩
  · cases b with
    | none => exact hbox.completed.symm
    | some data => exact hbox.holds.completed.symm
  · rintro data rfl
    have hold := hbox.holds
    have hle : data.length ≤ ep.buffer.len := Nat.le_trans hold.fits (Nat.min_le_left _ _)
    have hbytes := hold.bytes
    rw [show (s.view e ep).bytes = s.mem.load ep.buffer.ptr ep.buffer.len from rfl,
      Mem.take_load _ _ hle] at hbytes
    exact ⟨hold.primed, hold.errored, hbytes⟩

/-- A packet received and read, and another that waits. -/
theorem out_endpoint_mailbox_device : ∃ (tr : Trace) (s : Sys)
    (tr' : Hist (Option (List Byte)) (Mail (List Byte))) (b : Option (List Byte)),
    Run Step device tr s ∧ Run Mailbox none tr' b ∧
      marks tr' = [.post [1, 2, 3], .take [1, 2, 3], .post [4]] := by
  obtain ⟨tr, s, hrun, hc, hmails⟩ := exists_run (s := device)
    (p := fun tr _ =>
      Always (fun _ s l => l.Careful s bulkOut (deviceEndpoint bulkOut 2 .Bulk)) tr ∧
        outMails bulkOut (deviceEndpoint bulkOut 2 .Bulk) tr =
          [.post [1, 2, 3], .take [1, 2, 3], .post [4]])
    [.call .configure, .hw (.outDone 1 [1, 2, 3]), .call .poll,
      .call (.read bulkOut.address (List.replicate 64 0)), .hw (.outDone 1 [4])]
    (by decide +kernel)
  obtain ⟨tr', b, hrun', hmarks, -⟩ := out_endpoint_mailbox device_booted.reachable device_bulkOut
    rfl (by decide) (device_booted.quiet _) hrun hc
  exact ⟨tr, s, tr', b, hrun, hrun', hmarks.trans hmails⟩

/-- In careful runs the packets that an OUT endpoint receives are those that
    reads return, in order and each once, with the one that waits; and a read
    puts as much of its packet into the slice as fits. -/
theorem out_packets_in_order {s₀ s : Sys} {tr : Trace} {e : EpId} {ep : Endpoint}
    (hs : Reachable s₀) (hep : s₀.ep e = some ep) (hout : e.dir = .Out) (h0 : e.num.val ≠ 0)
    (hq : s₀.Quiet e) (hrun : Run Step s₀ tr s) (hc : Always (fun _ s l => l.Careful s e ep) tr) :
    Mail.posts (outMails e ep tr) = Mail.takes (outMails e ep tr) ++ s.unread e ep ∧
      Always (fun _ t l => ∀ buf k out, l.returned e = some (buf, k, out) →
        k = min buf.length (t.held e ep).length ∧
          out = (t.held e ep).take k ++ buf.drop k) tr := by
  obtain ⟨tr', b, hrun', hmarks, -, -, hbox⟩ := outBox_run hs hep hout h0 hq hrun hc
  have hdrops : Mail.drops (marks tr') = 0 := by rw [hmarks, drops_outMails]
  have hrefines := outBox_refines ep hout h0
  refine ⟨by rw [← hmarks, ← hbox.toList]; exact Mailbox.order_eq hrun' hdrops, ?_⟩
  refine hrun.always hc
    (I := fun _ s => s.WF ∧ s.ep e = some ep ∧ ∃ b, OutBox ep.packetLen (s.view e ep) b)
    ⟨hs.wf, hep, none, hq.slot _⟩ ?_ ?_
  · rintro tr t l t' ⟨hwf, hept, b, hbox⟩ hl hstep
    refine ⟨hstep.wf hwf, (hstep.ep_eq hwf e).trans hept, ?_⟩
    cases hk : l.outMail t e ep with
    | none => exact ⟨b, (hrefines.silent ⟨hwf, hept, hbox⟩ hl hstep hk).2.2⟩
    | some k =>
      obtain ⟨b', -, -, -, hbox'⟩ := hrefines.visible ⟨hwf, hept, hbox⟩ hl hstep hk
      exact ⟨b', hbox'⟩
  · rintro tr t l t' ⟨hwf, hept, b, hbox⟩ - hstep buf k out hret
    exact (OutBox.of_read hwf hept hout h0 hbox hstep hret).2

/-- Three packets received, the second one read into a slice that is too short. -/
theorem out_packets_in_order_device : ∃ tr s, Run Step device tr s ∧
    Mail.posts (outMails bulkOut (deviceEndpoint bulkOut 2 .Bulk) tr) =
      [[1, 2, 3], [4, 5, 6]] ++ [[7]] ∧
      Always (fun _ t l => ∀ buf k out, l.returned bulkOut = some (buf, k, out) →
        k = min buf.length (t.held bulkOut (deviceEndpoint bulkOut 2 .Bulk)).length ∧
          out = (t.held bulkOut (deviceEndpoint bulkOut 2 .Bulk)).take k ++ buf.drop k) tr := by
  obtain ⟨tr, s, hrun, hc, htakes, hunread⟩ := exists_run (s := device)
    (p := fun tr s =>
      Always (fun _ s l => l.Careful s bulkOut (deviceEndpoint bulkOut 2 .Bulk)) tr ∧
        Mail.takes (outMails bulkOut (deviceEndpoint bulkOut 2 .Bulk) tr) =
          [[1, 2, 3], [4, 5, 6]] ∧
        s.unread bulkOut (deviceEndpoint bulkOut 2 .Bulk) = [[7]])
    [.call .configure, .hw (.outDone 1 [1, 2, 3]), .call .poll,
      .call (.read bulkOut.address (List.replicate 64 0)), .hw (.outDone 1 [4, 5, 6]),
      .call .poll, .call (.read bulkOut.address [0, 0]), .call .poll, .hw (.outDone 1 [7])]
    (by decide +kernel)
  obtain ⟨hposts, hall⟩ := out_packets_in_order device_booted.reachable device_bulkOut rfl
    (by decide) (device_booted.quiet _) hrun hc
  rw [htakes, hunread] at hposts
  exact ⟨tr, s, hrun, hposts, hall⟩

end ImxrtUsbd
