/-
  ImxrtUsbd.OutEndpoint

  A non-zero OUT endpoint.  `OutStep` lists what a step of the system can be to
  such an endpoint, in terms of the endpoint's view alone: what the controller
  does to it, the polls that report it, the reads that return its packet, and
  the calls that arm it again for another reason.  `Step.outStep` says that the
  list is complete, so that whatever is to be shown of OUT endpoints is shown by
  cases on it.
-/
import ImxrtUsbd.System

namespace ImxrtUsbd

open Lib

/-! ## What a step means to an OUT endpoint -/

namespace Label

/-- The packet that the controller receives on OUT endpoint `n`. -/
def received (n : Fin 8) : Label → Option (List Byte)
  | .hw (.outDone m data) => if m = n then some data else none
  | _ => none

/-- The slice passed to a read of the endpoint, and what the read returned. -/
def returned (e : EpId) : Label → Option (List Byte × Nat × List Byte)
  | .call (.read addr buf) (.read (.ok r)) _ => if addr = e.address then some (buf, r) else none
  | _ => none

/-- Whether a poll that found traffic reported a packet on OUT endpoint `n`. -/
def reported (n : Fin 8) : Label → Option Bool
  | .call .poll (.poll (.Data epOut _ _)) _ => some (epOut.getLsbD n.val)
  | _ => none

end Label

/-- The calls that arm an OUT endpoint without reading it: an unstall, a write
    that is accepted, and `configure`. -/
def EpView.Rearms (v : EpView) (e : EpId) : Label → Prop
  | .call (.setStalled addr stalled) _ _ => addr = e.address ∧ stalled = false ∧ v.primed = false
  | .call (.write addr _) _ _ => addr = e.address ∧ v.errored = false ∧ v.primed = false
  | .call .configure _ _ => True
  | _ => False

instance (v : EpView) (e : EpId) (l : Label) : Decidable (v.Rearms e l) :=
  match l with
  | .call (.setStalled _ _) _ _ => inferInstanceAs (Decidable (_ ∧ _))
  | .call (.write _ _) _ _ => inferInstanceAs (Decidable (_ ∧ _))
  | .call .configure _ _ => .isTrue trivial
  | .hw _ | .call (.read _ _) _ _ | .call .poll _ _ | .call (.isStalled _) _ _
  | .call (.reset _) _ _ | .call (.setDeviceAddress _) _ _ | .call .enable _ _
  | .call (.enableZlt _) _ _ | .call (.setInterrupts _) _ _ =>
    inferInstanceAs (Decidable False)

/-- What a step can be to the non-zero OUT endpoint `e` with packets of up to
    `n` bytes: its label, and what it does to the endpoint. -/
inductive OutStep (e : EpId) (n : Nat) (v : EpView) : Label → List EpAct → Prop where
  /-- A packet is received. -/
  | received {data : List Byte} : v.primed = true → data.length ≤ v.left →
      OutStep e n v (.hw (.outDone e.num data))
        [.fill data, .retire data.length false, .complete]
  /-- The transfer ends with an error. -/
  | failed {halted dataBuffer transaction : Bool} : v.primed = true →
      OutStep e n v (.hw (.error e halted dataBuffer transaction)) [.retire 0 true]
  /-- A poll finds traffic, on this endpoint or another. -/
  | polled {epOut epInComplete epSetup : BitVec 16} {obs : List Obs} :
      epOut.getLsbD e.num.val = v.completed →
      OutStep e n v (.call .poll (.poll (.Data epOut epInComplete epSetup)) obs)
        [.signal v.completed]
  /-- A read returns data. -/
  | read {buf : List Byte} {obs : List Obs} :
      v.errored = false → v.primed = false → v.signalled = true →
      OutStep e n v (.call (.read e.address buf) (.read (.ok (v.fetch n buf))) obs)
        [.ack, .schedule n]
  /-- A write is accepted. -/
  | wrote {buf : List Byte} {r : Ret} {obs : List Obs} : v.errored = false → v.primed = false →
      OutStep e n v (.call (.write e.address buf) r obs)
        [.fill (buf.take n), .schedule (min n buf.length)]
  /-- An unstall finds the endpoint unprimed. -/
  | unstalled {r : Ret} {obs : List Obs} : v.primed = false →
      OutStep e n v (.call (.setStalled e.address false) r obs) [.schedule n]
  | configured {r : Ret} {obs : List Obs} :
      OutStep e n v (.call .configure r obs) [.schedule n]
  | reset {debugAssertions : Bool} {r : Ret} {obs : List Obs} :
      OutStep e n v (.call (.reset debugAssertions) r obs) [.ack, .unprime]
  /-- Anything else leaves the endpoint alone. -/
  | other {l : Label} : l.received e.num = none → l.returned e = none →
      l.reported e.num = none → ¬ v.Rearms e l → l.isReset = false → OutStep e n v l []

/-! ## A packet that waits to be read -/

/-- What is read when the last transfer moved as many bytes as `data` has, and
    these stand at the front of the buffer. -/
theorem EpView.fetch_eq {v : EpView} {n : Nat} {data : List Byte}
    (hreceived : v.size - v.left = data.length) (hfits : data.length ≤ n)
    (hbytes : v.bytes.take data.length = data) (buf : List Byte) :
    v.fetch n buf = (min buf.length data.length,
      data.take (min buf.length data.length) ++ buf.drop (min buf.length data.length)) := by
  have hk : min (min n buf.length) (v.size - v.left) = min buf.length data.length := by
    rw [hreceived]
    omega
  have htake : ∀ k, k ≤ data.length → v.bytes.take k = data.take k := by
    intro k hle
    rw [← hbytes, List.take_take, Nat.min_eq_left hle]
  rw [EpView.fetch, hk, htake _ (Nat.min_le_right _ _)]

/-- A packet was received and waits to be read. -/
structure EpView.Holds (v : EpView) (n : Nat) (data : List Byte) : Prop where
  primed : v.primed = false
  completed : v.completed = true
  errored : v.errored = false
  received : v.size - v.left = data.length
  fits : data.length ≤ n
  bytes : v.bytes.take data.length = data

namespace EpView.Holds

variable {v : EpView} {n : Nat} {data : List Byte}

/-- The controller puts a packet into an armed endpoint. -/
theorem of_received (hleft : v.left = v.size) (hsize : v.size ≤ n) (hlen : data.length ≤ v.left) :
    (v.acts [.fill data, .retire data.length false, .complete]).Holds n data where
  primed := rfl
  completed := rfl
  errored := rfl
  received := by
    show v.size - (v.left - data.length) = data.length
    omega
  fits := by omega
  bytes := by
    show (data ++ v.bytes.drop data.length).take data.length = data
    exact List.take_left' rfl

/-- What a read of it returns: as much of it as the slice takes. -/
theorem fetch (h : v.Holds n data) (buf : List Byte) :
    v.fetch n buf = (min buf.length data.length,
      data.take (min buf.length data.length) ++ buf.drop (min buf.length data.length)) :=
  fetch_eq h.received h.fits h.bytes buf

end EpView.Holds

/-! ## The list is complete -/

section Complete

variable {s s' : Sys} {l : Label} {e : EpId} {ep : Endpoint}

theorem HwEvent.outStep {ev : HwEvent} (hev : ev.Enabled s) (hout : e.dir = .Out)
    (h0 : e.num.val ≠ 0) : OutStep e ep.packetLen (s.view e ep) (.hw ev) (ev.acts e) := by
  have he : e = ⟨.Out, e.num⟩ := by rw [← hout]
  cases ev with
  | outDone n data =>
    by_cases hn : n = e.num
    · subst hn
      rw [HwEvent.acts, ← he, only_self]
      rw [HwEvent.Enabled, ← he] at hev
      exact .received hev.1 hev.2
    · have hne : e ≠ ⟨.Out, n⟩ := fun heq => hn (by rw [heq])
      rw [HwEvent.acts, only_of_ne hne]
      exact .other (if_neg hn) rfl rfl id rfl
  | inDone n k =>
    have hne : e ≠ ⟨.In, n⟩ := fun heq => by rw [heq] at hout; simp at hout
    rw [HwEvent.acts, only_of_ne hne]
    exact .other rfl rfl rfl id rfl
  | error f halted dataBuffer transaction =>
    by_cases hf : e = f
    · subst hf
      rw [HwEvent.acts, only_self]
      exact .failed hev.1
    · rw [HwEvent.acts, only_of_ne hf]
      exact .other rfl rfl rfl id rfl
  | setup packet =>
    have hne : ¬ (e = .ep0Out ∨ e = .ep0In) := by
      rintro (rfl | rfl) <;> exact h0 rfl
    have hacts : (HwEvent.setup packet).acts e = [] := if_neg hne
    rw [hacts]
    exact .other rfl rfl rfl id rfl
  | nak _ | resetBegin | resetEnd => exact .other rfl rfl rfl id rfl

/-- What a poll reports of an OUT endpoint is its completion bit. -/
theorem Step.poll_cases {r : Ret} {obs : List Obs} (hstep : Step s (.call .poll r obs) s') :
    (s.resetReceived = true ∧ r = .poll .Reset) ∨
      (s.resetReceived = false ∧ s.usbInterrupt = true ∧ r = .poll s.pollData) ∨
      (s.resetReceived = false ∧ s.usbInterrupt = false ∧ r = .poll .None) := by
  obtain ⟨-, ⟨hr, hret, -⟩ | ⟨hr, hu, hret, -⟩ | ⟨hr, hu, hret, -⟩⟩ := poll_leaves hstep.run_eq
  · exact Or.inl ⟨hr, hret⟩
  · exact Or.inr (Or.inl ⟨hr, hu, hret⟩)
  · exact Or.inr (Or.inr ⟨hr, hu, hret⟩)

/-- What a read returns is determined by the endpoint it reads from. -/
theorem Step.read_ret {addr : EndpointAddress} {buf : List Byte} {r : Ret} {obs : List Obs}
    (h : s.WF) (haddr : s.ReadsFrom addr e) (hep : s.ep e = some ep)
    (hstep : Step s (.call (.read addr buf) r obs) s') : r = .read (s.readRet e ep buf) := by
  obtain ⟨a, hrun, rfl⟩ := run_map_ok hstep.run_eq
  rw [ImxrtUsbd.read_ret h haddr hep hrun]

theorem Step.outStep_poll {r : Ret} {obs : List Obs} (hout : e.dir = .Out)
    (hstep : Step s (.call .poll r obs) s') :
    OutStep e ep.packetLen (s.view e ep) (.call .poll r obs) (Call.acts s e ep .poll) := by
  have hin : ¬ e.dir = .In := by rw [hout]; rintro ⟨⟩
  rw [Call.acts]
  rcases hstep.poll_cases with ⟨hr, rfl⟩ | ⟨hr, hu, rfl⟩ | ⟨hr, hu, rfl⟩
  · rw [hr, Bool.true_or, if_pos rfl]
    exact .other rfl rfl rfl id rfl
  · have he : (⟨.Out, e.num⟩ : EpId) = e := by rw [← hout]
    rw [hr, hu, Bool.not_true, Bool.or_self, if_neg Bool.false_ne_true, if_neg hin, he]
    refine .polled ?_
    rw [getLsbD_epOut, he]
    rfl
  · rw [hr, hu, Bool.not_false, Bool.or_true, if_pos rfl]
    exact .other rfl rfl rfl id rfl

theorem Step.outStep_read {addr : EndpointAddress} {buf : List Byte} {r : Ret} {obs : List Obs}
    (h : s.WF) (hep : s.ep e = some ep) (h0 : e.num.val ≠ 0)
    (hstep : Step s (.call (.read addr buf) r obs) s') :
    OutStep e ep.packetLen (s.view e ep) (.call (.read addr buf) r obs)
      (Call.acts s e ep (.read addr buf)) := by
  have hset : ¬ s.TakesSetup e buf := by
    rintro ⟨rfl, -⟩
    exact h0 rfl
  rw [Call.acts, if_neg hset]
  by_cases haddr : s.ReadsFrom addr e
  · obtain rfl := hstep.read_ret h haddr hep
    have htarget := haddr.2
    split at htarget
    · -- address zero reads from the control endpoint
      subst htarget
      exact absurd rfl h0
    · subst htarget
      rw [if_pos haddr]
      by_cases hr : s.Readable e ep
      · rw [if_pos hr, Sys.readRet_of_readable hset hr]
        exact .read hr.1 hr.2.1 (hr.2.2 h0)
      · rw [if_neg hr, Sys.readRet_of_not_readable hset hr]
        exact .other rfl rfl rfl id rfl
  · -- a read of another endpoint
    have hne : addr ≠ e.address := by
      rintro rfl
      exact haddr ((Sys.readsFrom_address hep h0).mpr rfl)
    rw [if_neg haddr]
    refine .other rfl ?_ rfl id rfl
    unfold Label.returned
    split
    · rename_i heq
      obtain ⟨⟨rfl, rfl⟩, -⟩ := Label.call.inj heq |>.imp_left Call.read.inj
      exact if_neg hne
    · rfl

/-- Every step is one of those of an OUT endpoint. -/
theorem Step.outStep (h : s.WF) (hep : s.ep e = some ep) (hout : e.dir = .Out)
    (h0 : e.num.val ≠ 0) (hstep : Step s l s') :
    OutStep e ep.packetLen (s.view e ep) l (s.acts l e) := by
  cases l with
  | hw ev => exact HwEvent.outStep hstep.enabled.1 hout h0
  | call c r obs =>
    rw [Sys.acts_call hep]
    cases c with
    | poll => exact hstep.outStep_poll hout
    | read addr buf => exact hstep.outStep_read h hep h0
    | write addr buf =>
      rw [Call.acts, if_pos h0]
      split
      · rename_i hw
        obtain ⟨rfl, herr, hp⟩ := hw
        exact .wrote herr hp
      · rename_i hw
        exact .other rfl rfl rfl (fun hr => hw ⟨hr.1, hr.2.1, hr.2.2⟩) rfl
    | setStalled addr stalled =>
      rw [Call.acts]
      split
      · rename_i hc
        obtain ⟨rfl, rfl, -, hp⟩ := hc
        exact .unstalled hp
      · rename_i hc
        exact .other rfl rfl rfl (fun hr => hc ⟨hr.1, hr.2.1, hout, hr.2.2⟩) rfl
    | reset debugAssertions => exact .reset
    | configure =>
      -- `configure` arms without a look
      rw [Call.acts, if_pos ⟨h0, hout⟩]
      exact .configured
    | isStalled _ | setDeviceAddress _ | enable | enableZlt _ | setInterrupts _ =>
      exact .other rfl rfl rfl id rfl

end Complete

end ImxrtUsbd
