/-
  ImxrtUsbd.InTransfers

  What the controller transmits.  A write that is accepted arms the endpoint,
  and from then on until the controller lets go of the transfer, nothing
  touches its bytes or its descriptor: every call that could is guarded by the
  endpoint's own `ENDPTSTAT` bit (`Step.light_or_unprimed`).
-/
import ImxrtUsbd.OutEndpoint
import ImxrtUsbd.Replay

namespace ImxrtUsbd

open Lib

/-! ## A transfer in flight -/

namespace Sys

/-- The bytes that the descriptor of `e` leads the controller to. -/
def described (s : Sys) (e : EpId) : List Byte :=
  (List.range (s.td e.slot).totalBytes).map fun i => s.mem ((s.td e.slot).dmaAddr i)

/-- The endpoint is ready to transmit `data`. -/
structure Carries (s : Sys) (e : EpId) (ep : Endpoint) (data : List Byte) : Prop where
  /-- The front of its buffer. -/
  bytes : s.mem.load ep.buffer.ptr data.length = data
  /-- `TOTAL_BYTES` -/
  left : (s.td e.slot).totalBytes = data.length
  size : (s.td e.slot).lastTransferSize.toNat = data.length
  errored : (s.td e.slot).errored = false
  pointers : data ≠ [] → ∀ i, (s.td e.slot).bufferPointers i = pageWord ep.buffer.ptr i.val
  /-- The bytes that the controller fetches. -/
  described : s.described e = data

end Sys

namespace EpView

/-- The same, of what there is to see of the endpoint. -/
structure Carries (v : EpView) (data : List Byte) : Prop where
  bytes : v.bytes.take data.length = data
  left : v.left = data.length
  size : v.size = data.length
  errored : v.errored = false

end EpView

section Carries

variable {s : Sys} {e : EpId} {ep : Endpoint} {data : List Byte}

/-- The descriptor leads to the front of the buffer. -/
theorem Sys.WF.described (h : s.WF) (hep : s.ep e = some ep) :
    s.described e = s.mem.load ep.buffer.ptr (s.td e.slot).totalBytes := by
  have hd := h.describes e ep hep
  have hptr : ep.buffer.ptr < 0xE0000000 := by
    have := (h.epOk e ep hep).inPlace.ptr_lt
    omega
  have hmpl : ep.packetLen ≤ 1024 := Nat.min_le_right _ _
  rw [Sys.described, Mem.load]
  apply List.map_congr_left
  intro i hi
  have hlt := List.mem_range.mp hi
  have hsize : (s.td e.slot).lastTransferSize.toNat ≠ 0 := by
    have := hd.left_le
    omega
  have hbound : i < 16384 := by
    have := hd.left_le
    have := hd.size_le
    omega
  rw [dmaAddr_eq hptr (hd.pointers hsize) hbound]

theorem Sys.WF.carries (h : s.WF) (hep : s.ep e = some ep) (hc : (s.view e ep).Carries data) :
    s.Carries e ep data := by
  have hd := h.describes e ep hep
  have hleft : (s.td e.slot).totalBytes = data.length := hc.left
  have hsize : (s.td e.slot).lastTransferSize.toNat = data.length := hc.size
  have hfit : data.length ≤ ep.buffer.len := by
    have hle : ep.packetLen ≤ ep.buffer.len := Nat.min_le_left _ _
    have := hd.size_le
    omega
  have hbytes : s.mem.load ep.buffer.ptr data.length = data := by
    have htake := hc.bytes
    rw [show (s.view e ep).bytes = s.mem.load ep.buffer.ptr ep.buffer.len from rfl,
      Mem.take_load _ _ hfit] at htake
    exact htake
  refine ⟨hbytes, hleft, hsize, hc.errored, fun hne => ?_, ?_⟩
  · have hpos := List.length_pos_iff.mpr hne
    exact hd.pointers (by omega)
  · rw [h.described hep, hleft, hbytes]

end Carries

/-! ## Guards -/

/-- This leaves the transfer and its bytes alone. -/
def EpAct.Light : EpAct → Prop
  | .ack | .signal _ | .complete => True
  | .schedule _ | .fill _ | .unprime | .retire _ _ => False

namespace EpView

variable {v : EpView} {as : List EpAct} {data : List Byte}

theorem Carries.light (h : v.Carries data) (has : ∀ a ∈ as, a.Light) :
    (v.acts as).Carries data := by
  induction as generalizing v with
  | nil => exact h
  | cons a as ih =>
    rw [List.forall_mem_cons] at has
    refine ih ?_ has.2
    have ha := has.1
    cases a with
    | ack | signal | complete => exact ⟨h.bytes, h.left, h.size, h.errored⟩
    | schedule | fill | unprime | retire => exact ha.elim

/-- A write fills the buffer and arms it. -/
theorem carries_write : (v.acts [.fill data, .schedule data.length]).Carries data where
  bytes := by
    show (data ++ v.bytes.drop data.length).take data.length = data
    simp
  left := rfl
  size := rfl
  errored := rfl

end EpView

section Guards

variable {s s' : Sys} {l : Label} {e : EpId} {ep : Endpoint}

theorem HwEvent.light_or_unprimed (v : EpView) (ev : HwEvent) (hdir : e.dir = .In) :
    (∀ a ∈ ev.acts e, a.Light) ∨ (v.acts (ev.acts e)).primed = false := by
  -- an action on another endpoint, or one that ends this transfer
  have honly : ∀ f as, (v.acts as).primed = false →
      (∀ a ∈ only f as e, a.Light) ∨ (v.acts (only f as e)).primed = false := by
    intro f as has
    by_cases hf : e = f
    · subst hf
      exact Or.inr (by rwa [only_self])
    · exact Or.inl (by simp [only_of_ne hf])
  cases ev with
  | outDone n data =>
    refine Or.inl fun a ha => ?_
    have hne : e ≠ ⟨.Out, n⟩ := by
      rintro rfl
      simp at hdir
    rw [HwEvent.acts, only_of_ne hne] at ha
    simp at ha
  | inDone n k => exact honly _ _ rfl
  | error f halted dataBuffer transaction => exact honly _ _ rfl
  | setup packet =>
    simp only [HwEvent.acts]
    split
    · exact Or.inr rfl
    · exact Or.inl (by simp)
  | nak | resetBegin | resetEnd => exact Or.inl (by simp [HwEvent.acts])

/-- Every call that could touch a transfer of an IN endpoint looks at the
    endpoint's `ENDPTSTAT` bit first, or flushes it. -/
theorem Call.light_or_unprimed (c : Call) (hdir : e.dir = .In) (hp : s.primed e = true)
    (v : EpView) :
    (∀ a ∈ c.acts s e ep, a.Light) ∨ (v.acts (c.acts s e ep)).primed = false := by
  have hnot : ¬ s.Writable e := by
    rintro ⟨-, h⟩
    rw [hp] at h
    simp at h
  have hnr : ¬ s.Readable e ep := by
    rintro ⟨-, h, -⟩
    rw [show (s.view e ep).primed = s.primed e from rfl, hp] at h
    simp at h
  cases c with
  | poll =>
    refine Or.inl ?_
    simp only [Call.acts]
    split_ifs <;> simp [EpAct.Light]
  | read addr buf =>
    refine Or.inl ?_
    have hset : ¬ s.TakesSetup e buf := by
      rintro ⟨rfl, -⟩
      simp [EpId.ep0Out] at hdir
    rw [Call.acts, if_neg hset, if_neg hnr, ite_self]
    simp
  | write addr buf =>
    refine Or.inl ?_
    rw [Call.acts]
    split
    · rw [if_neg fun h => hnot h.2]
      simp
    · rename_i h0
      -- number 0: the guard is on the IN half, which this is
      have he : e = .ep0In := by
        rcases e.num_cases with h | rfl | rfl
        · exact absurd h h0
        · simp [EpId.ep0Out] at hdir
        · rfl
      rw [if_neg fun h => hnot (he ▸ h.2.2)]
      simp
  | setStalled addr stalled =>
    refine Or.inl ?_
    rw [Call.acts, if_neg fun h => by simp [hp] at h]
    simp
  | reset debugAssertions => exact Or.inr rfl
  | configure =>
    refine Or.inl ?_
    rw [Call.acts, if_neg fun h => by simp [hdir] at h]
    simp
  | isStalled | setDeviceAddress | enable | enableZlt | setInterrupts =>
    exact Or.inl (by simp [Call.acts])

/-- While the endpoint stays primed, no step touches the transfer. -/
theorem Step.carries (h : s.WF) (hep : s.ep e = some ep) (hdir : e.dir = .In)
    (hp : s.primed e = true) (hp' : s'.primed e = true) (hstep : Step s l s') {data : List Byte}
    (hc : (s.view e ep).Carries data) : (s'.view e ep).Carries data := by
  have hview := hstep.view_eq h hep
  have hcases : (∀ a ∈ s.acts l e, a.Light) ∨ ((s.view e ep).acts (s.acts l e)).primed = false := by
    cases l with
    | hw ev => exact ev.light_or_unprimed _ hdir
    | call c r obs =>
      rw [Sys.acts_call hep]
      exact c.light_or_unprimed hdir hp _
  rcases hcases with hlight | hun
  · rw [hview]
    exact hc.light hlight
  · rw [← hview] at hun
    rw [show s'.primed e = false from hun] at hp'
    simp at hp'

end Guards

/-! ## Runs -/

/-- A write to `e` is refused. -/
def Label.RefusesWrite (s : Sys) (e : EpId) : Label → Prop
  | .call (.write addr _) r _ => s.WritesTo addr e → r = .write (.error .WouldBlock)
  | _ => True

theorem Step.refusesWrite {s s' : Sys} {l : Label} {e : EpId} {ep : Endpoint} (h : s.WF)
    (hep : s.ep e = some ep) (hp : s.primed e = true) (herr : (s.td e.slot).errored = false)
    (hstep : Step s l s') : l.RefusesWrite s e := by
  unfold Label.RefusesWrite
  split
  · intro haddr
    rename_i addr buf r obs
    obtain ⟨res, hrun, rfl⟩ := run_map_ok hstep.run_eq
    have hview : (s.view e ep).errored = false ∧ (s.view e ep).primed = true := ⟨herr, hp⟩
    rw [write_ret h haddr hep hrun, Sys.writeRet, hview.1, hview.2]
    rfl
  · exact trivial

/-- What a write that is accepted leaves behind. -/
theorem Step.carries_write {s s' : Sys} {e : EpId} {ep : Endpoint} {addr : EndpointAddress}
    {buf : List Byte} {n : Nat} {obs : List Obs} (h : s.WF) (hep : s.ep e = some ep)
    (hdir : e.dir = .In) (haddr : s.WritesTo addr e)
    (hstep : Step s (.call (.write addr buf) (.write (.ok n)) obs) s') :
    n = min buf.length (s.maxPacketLen e) ∧ s'.primed e = true ∧
      (s'.view e ep).Carries (buf.take n) := by
  obtain ⟨res, hrun, hres⟩ := run_map_ok hstep.run_eq
  obtain rfl := Ret.write.inj hres
  have hret := write_ret h haddr hep hrun
  have hmpl := (h.epOk e ep hep).mpl
  -- the guards let the write pass
  have hw : s.Writable e := by
    rw [Sys.writeRet] at hret
    cases herr : (s.view e ep).errored with
    | true =>
      rw [herr] at hret
      simp at hret
    | false =>
      rw [herr] at hret
      cases hp : (s.view e ep).primed with
      | true =>
        rw [hp] at hret
        simp at hret
      | false => exact ⟨herr, hp⟩
  have hn : n = min ep.packetLen buf.length := by
    have herr : (s.view e ep).errored = false := hw.1
    have hp : (s.view e ep).primed = false := hw.2
    rw [Sys.writeRet, herr, hp] at hret
    exact Except.ok.inj hret
  have hacts : s.acts (.call (.write addr buf) (.write (.ok n)) obs) e =
      [.fill (buf.take ep.packetLen), .schedule (min ep.packetLen buf.length)] := by
    obtain ⟨halloc, htarget⟩ := haddr
    rw [Sys.acts_call hep, Call.acts]
    split at htarget
    · rename_i h0
      subst htarget
      have hnum : ¬ EpId.ep0In.num.val ≠ 0 := by decide
      rw [if_neg hnum, if_pos ⟨h0, halloc, hw⟩, if_pos hdir]
    · rename_i h0
      subst htarget
      rw [EpId.address_index] at h0
      rw [if_pos h0, if_pos ⟨rfl, hw⟩]
  have hview := hstep.view_eq h hep
  rw [hacts] at hview
  have htake : buf.take n = buf.take ep.packetLen := by
    rw [hn, ← List.take_eq_take_min]
  have hlen : (buf.take ep.packetLen).length = min ep.packetLen buf.length := List.length_take
  refine ⟨by rw [hn, hmpl, Nat.min_comm], congrArg EpView.primed hview, ?_⟩
  rw [hview, htake, ← hlen]
  exact EpView.carries_write

/-- A write to an IN endpoint that returns `Ok(n)` takes the first `n` bytes, as
    many as fit into a packet.  Until the controller lets go of the transfer, the
    endpoint's buffer and descriptor carry just these bytes, and further writes
    are refused, whatever is called in between. -/
theorem write_carried {s₀ s s₁ : Sys} {tr : Trace} {e : EpId} {ep : Endpoint}
    {addr : EndpointAddress} {buf : List Byte} {n : Nat} {obs : List Obs} (h₀ : Booted s₀)
    (hrun : Run Step s₀ tr s) (hdir : e.dir = .In) (hep : s.ep e = some ep)
    (haddr : s.WritesTo addr e)
    (hwrite : Step s (.call (.write addr buf) (.write (.ok n)) obs) s₁) :
    n = min buf.length (s.maxPacketLen e) ∧ s₁.primed e = true ∧
      ∀ tr' s', Run Step s₁ tr' s' → Throughout (fun _ t => t.primed e = true) tr' s' →
        Throughout (fun _ t => t.Carries e ep (buf.take n)) tr' s' ∧
          Always (fun _ t l => l.RefusesWrite t e) tr' := by
  have hwf := h₀.idle.wf.run hrun
  obtain ⟨hn, hp₁, hc₁⟩ := hwrite.carries_write hwf hep hdir haddr
  refine ⟨hn, hp₁, fun tr' s' hrun' hprimed => ?_⟩
  have hwf₁ := hwrite.wf hwf
  have hep₁ : s₁.ep e = some ep := by rw [hwrite.ep_eq hwf, hep]
  -- by induction on the run after the write
  suffices h : (s'.WF ∧ s'.ep e = some ep ∧ (s'.view e ep).Carries (buf.take n)) ∧
      Throughout (fun _ t => t.Carries e ep (buf.take n)) tr' s' ∧
        Always (fun _ t l => l.RefusesWrite t e) tr' from h.2
  induction hrun' with
  | nil =>
    exact ⟨⟨hwf₁, hep₁, hc₁⟩, ⟨Always.nil, hwf₁.carries hep₁ hc₁⟩, Always.nil⟩
  | snoc _ hstep ih =>
    obtain ⟨hbefore, hp'⟩ := throughout_snoc.mp hprimed
    obtain ⟨⟨ht, hept, hct⟩, hall, href⟩ := ih hbefore
    have ht' := hstep.wf ht
    have hept' : _ = some ep := (hstep.ep_eq ht e).trans hept
    have hct' := hstep.carries ht hept hdir hbefore.2 hp' hct
    refine ⟨⟨ht', hept', hct'⟩, throughout_snoc.mpr ⟨hall, ht'.carries hept' hct'⟩,
      always_snoc.mpr ⟨href, ?_⟩⟩
    exact hstep.refusesWrite ht hept hbefore.2 hct.errored

/-- The write returned `Ok(n)`. -/
def Label.acceptsWrite (addr : EndpointAddress) (buf : List Byte) (n : Nat) : Label → Bool
  | .call (.write a b) (.write (.ok m)) _ => a == addr && b == buf && m == n
  | _ => false

theorem Label.acceptsWrite_eq {addr : EndpointAddress} {buf : List Byte} {n : Nat} {l : Label}
    (h : l.acceptsWrite addr buf n = true) :
    ∃ obs, l = .call (.write addr buf) (.write (.ok n)) obs := by
  unfold acceptsWrite at h
  split at h
  · rw [Bool.and_eq_true, Bool.and_eq_true, beq_iff_eq, beq_iff_eq, beq_iff_eq] at h
    obtain ⟨⟨rfl, rfl⟩, rfl⟩ := h
    exact ⟨_, rfl⟩
  · simp at h

/-- A write of three bytes, and calls on every endpoint before the controller
    comes to it. -/
theorem write_carried_device : ∃ (tr tr' : Trace) (s s₁ s' : Sys) (obs : List Obs),
    Run Step device tr s ∧
      Step s (.call (.write bulkIn.address [1, 2, 3]) (.write (.ok 3)) obs) s₁ ∧
      Run Step s₁ tr' s' ∧ tr'.length = 6 ∧
      s'.Carries bulkIn (deviceEndpoint bulkIn 3 .Bulk) [1, 2, 3] ∧
      Always (fun _ t l => l.RefusesWrite t bulkIn) tr' := by
  obtain ⟨tr, s, l, s₁, hrun, hstep, hl, haddr, hmore⟩ := exists_step (s := device)
    (p := fun _ t l s₁ => l.acceptsWrite bulkIn.address [1, 2, 3] 3 = true ∧
      t.WritesTo bulkIn.address bulkIn ∧
      ((replay s₁ [.call (.write bulkIn.address [4, 5]), .hw (.outDone 1 [8, 8]), .call .poll,
        .call (.read bulkOut.address [0, 0]), .call (.write EpId.ep0In.address [6]),
        .call (.setStalled bulkIn.address true)]).any fun x =>
          decide (x.1.length = 6 ∧ Always (fun _ t _ => t.primed bulkIn = true) x.1 ∧
            x.2.primed bulkIn = true)) = true)
    [.call .configure] (.call (.write bulkIn.address [1, 2, 3])) (by decide +kernel)
  obtain ⟨obs, rfl⟩ := Label.acceptsWrite_eq hl
  obtain ⟨⟨tr', s'⟩, htr', hprimed⟩ := (Option.any_eq_true _ _).mp hmore
  obtain ⟨hlen, hp⟩ := of_decide_eq_true hprimed
  have hrun' := replay_sound htr'
  have hep : s.ep bulkIn = some (deviceEndpoint bulkIn 3 .Bulk) := by
    rw [ep_device hrun, device_bulkIn]
  obtain ⟨-, -, hcarry⟩ := write_carried device_booted hrun rfl hep haddr hstep
  obtain ⟨hall, href⟩ := hcarry tr' s' hrun' hp
  exact ⟨tr, tr', s, s₁, s', obs, hrun, hstep, hrun', hlen, hall.2, href⟩

end ImxrtUsbd
