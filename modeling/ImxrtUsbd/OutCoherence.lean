/-
  ImxrtUsbd.OutCoherence

  Transfers to an OUT endpoint and reads of them, on cached memory.

  Between the read that arms a transfer and the read that looks at it, the
  driver neither writes its descriptor back nor drops it from the cache, and
  it never maintains the buffer of an OUT endpoint.  So a read gets what the
  controller stored exactly if nothing of it was cached when the transfer
  completed (`out_coherent_iff`).  The first read caches the descriptor for good
  (`CacheInv.stays_cached`), so it is the last one that can be coherent
  (`CacheInv.not_uncovered`).
-/
import ImxrtUsbd.CachedDriver
import ImxrtUsbd.Confinement

namespace ImxrtUsbd

open Lib
open EndpointAllocator (endpoint)

/-! ## The tokens a read loads -/

/-- The `TOKEN` of element `i` of the TD list, if that is what was loaded. -/
def CacheObs.tokenOf (i : Nat) : CacheObs → Option Word
  | .token j v => if j = i then some v else none
  | .usb _ => none

/-- The `TOKEN`s loaded from element `i` of the TD list, in order. -/
def tokens (i : Nat) (obs : List CacheObs) : List Word := obs.filterMap (CacheObs.tokenOf i)

theorem tokens_append (i : Nat) (o o' : List CacheObs) :
    tokens i (o ++ o') = tokens i o ++ tokens i o' := List.filterMap_append

/-- No `TOKEN` was loaded, and the driver sees the descriptors it saw. -/
def Unread (L : Layout) (c : CachedSys) (obs : List CacheObs) (c' : CachedSys) : Prop :=
  (∀ i, tokens i obs = []) ∧ (c'.view L).td = (c.view L).td

section Tokens

variable {L : Layout} {c c' : CachedSys} {obs : List CacheObs} {α : Type}

theorem unread_composes (L : Layout) : Composes (Unread L) where
  refl := fun _ => ⟨fun _ => rfl, rfl⟩
  trans := fun h h' =>
    ⟨fun i => by rw [tokens_append, h.1, h'.1, List.append_nil], h'.2.trans h.2⟩

theorem unread_act {β : Type} {e : Access β} (h : e.Plain False) (c : CachedSys) :
    Unread L c ((cached L).act e c).2.2 ((cached L).act e c).2.1 := by
  cases e with
  | loadTd | storeTd | dccimvac | addrOfSelf => exact absurd h id
  | writeReg r v =>
    refine ⟨fun i => ?_, rfl⟩
    show tokens i (if _ then _ else _) = []
    split <;> rfl
  | loadCapabilities i => exact ⟨fun _ => rfl, congrArg Sys.td (c.view_load (.capabilities i))⟩
  | loadSetup i high => exact ⟨fun _ => rfl, congrArg Sys.td (c.view_load (.setup i high))⟩
  | loadByte a => exact ⟨fun _ => rfl, congrArg Sys.td (c.view_load (.byte a))⟩
  | storeCapabilities i v =>
    have hview := (c.view_store (L := L) (.capabilities i) v).trans
      (withMemory_storeCapabilities i v)
    exact ⟨fun _ => rfl, (congrArg Sys.td hview).trans rfl⟩
  | storeByte a b =>
    have hview := (c.view_store (L := L) (.byte a) b).trans (withMemory_storeByte a b)
    exact ⟨fun _ => rfl, (congrArg Sys.td hview).trans rfl⟩
  | readReg | getDriver | setDriver => exact ⟨fun _ => rfl, rfl⟩

theorem unread_exec {p : UsbM α} (h : Plain False p) {n : Nat} {res : Res Fault α}
    (hrun : exec (cached L) n p c = ⟨res, c', obs⟩) : Unread L c obs c' := by
  have hkeeps := Keeps.of_only (unread_composes L) (fun _ _ c he => unread_act he c) h n c
  rwa [hrun] at hkeeps

/-- A load of a `TOKEN` gets the one the driver sees. -/
theorem tokens_load {i n : Nat} {res : Res Fault Word}
    (hrun : exec (cached L) n (loadTd (.list i) .TOKEN) c = ⟨res, c', obs⟩) :
    tokens i obs = [((c.view L).td i).token] ∧ (c'.view L).td = (c.view L).td := by
  rw [loadTd, exec_access] at hrun
  obtain ⟨-, rfl, rfl⟩ := Out.mk.inj hrun
  refine ⟨?_, congrArg Sys.td (c.view_load (.td (.list i) .TOKEN))⟩
  show tokens i [.token i (c.load L (.td (.list i) .TOKEN)).1] = _
  rw [CachedSys.load_fst]
  simp [tokens, CacheObs.tokenOf]
  rfl

/-- `check_errors` loads the word once, which leaves its line in the cache. -/
theorem load_of_checkErrors {ep : Endpoint} {n : Nat} {res : Except UsbError Unit}
    (hrun : exec (cached L) n ep.checkErrors c = ⟨.ok res, c', obs⟩) :
    exec (cached L) n (loadTd (.list ep.td) .TOKEN) c =
      ⟨.ok (c.load L (.td (.list ep.td) .TOKEN)).1, c', obs⟩ := by
  obtain ⟨status, c₁, o₁, o₂, hstatus, hrest, rfl⟩ := exec_bind_ok _ _ hrun
  obtain ⟨token, c₂, o₁, o₃, hload, hpure, rfl⟩ := exec_bind_ok _ _ hstatus
  rw [exec_pure] at hpure
  obtain ⟨-, rfl, rfl⟩ := Out.mk.inj hpure
  have hend : c' = c₂ ∧ o₂ = [] := by
    split at hrest
    · rw [exec_pure] at hrest
      obtain ⟨-, rfl, rfl⟩ := Out.mk.inj hrest
      exact ⟨rfl, rfl⟩
    · rw [exec_pure] at hrest
      obtain ⟨-, rfl, rfl⟩ := Out.mk.inj hrest
      exact ⟨rfl, rfl⟩
  obtain ⟨rfl, rfl⟩ := hend
  rw [List.append_nil, List.append_nil, hload]
  rw [loadTd, exec_access] at hload
  rw [← (Out.mk.inj hload).1]
  rfl

theorem tokens_read {ep : Endpoint} {buf : List Byte} {n : Nat} {r : Nat × List Byte}
    (hrun : exec (cached L) n (ep.read buf) c = ⟨.ok r, c', obs⟩) :
    ∃ rest, tokens ep.td obs = ((c.view L).td ep.td).token :: rest := by
  obtain ⟨mpl, c₁, o₁, o₂, hmpl, hrun₁, rfl⟩ := exec_bind_ok _ _ hrun
  obtain ⟨htok₁, htd₁⟩ := unread_exec (only_maxPacketLen ep) hmpl
  obtain ⟨size, c₂, o₂, o₃, hsize, -, rfl⟩ := exec_bind_ok _ _ hrun₁
  obtain ⟨token, c₃, o₂, o₄, hload, -, rfl⟩ := exec_bind_ok _ _ hsize
  refine ⟨tokens ep.td o₄ ++ tokens ep.td o₃, ?_⟩
  rw [tokens_append, tokens_append, tokens_append, htok₁, (tokens_load hload).1, htd₁]
  rfl

/-- The lookup finds what the driver sees. -/
theorem found_endpoint {e : EpId} {ep : Endpoint} {found : Option Endpoint}
    (hinv : (cacheView L).inv c) (h : (c.view L).WF) (hep : (c.view L).ep e = some ep)
    (hfound : exec (cached L) 1 (endpoint e.address) c = ⟨.ok found, c', obs⟩) :
    found = some ep ∧ (cacheView L).inv c' := by
  obtain ⟨hsim, hinv', -⟩ := (simulates_plain (only_endpoint e.address)).exec_eq hinv hfound
  have hlook := (run_endpoint h e.address).symm.trans hsim
  rw [Sys.lookup_address, hep] at hlook
  exact ⟨(Res.ok.inj (Out.mk.inj hlook).1).symm, hinv'⟩

/-- The status and the length of a read come from the `TOKEN` the driver sees. -/
theorem tokens_epRead {e : EpId} {ep : Endpoint} {buf : List Byte} {r : Nat × List Byte}
    (hinv : (cacheView L).inv c) (h : (c.view L).WF) (hep : (c.view L).ep e = some ep)
    (hrun : runCached L (Driver.epRead buf e.address) c = ⟨.ok (.ok r), c', obs⟩) :
    ∃ rest, tokens e.slot obs =
      ((c.view L).td e.slot).token :: ((c.view L).td e.slot).token :: rest := by
  have hat := (h.epOk e ep hep).inPlace
  obtain ⟨found, c₁, o₁, o₂, hfound, hrun₁, rfl⟩ := exec_bind_ok _ _ hrun
  obtain ⟨htok₁, htd₁⟩ := unread_exec (only_endpoint e.address) hfound
  obtain ⟨hsome, -⟩ := found_endpoint hinv h hep hfound
  subst hsome
  obtain ⟨ep', c₂, o₂, o₃, hunwrap, hrun₂, rfl⟩ := exec_bind_ok _ _ hrun₁
  rw [unwrap, exec_getOr_some] at hunwrap
  obtain ⟨hep', rfl, rfl⟩ := Out.mk.inj hunwrap
  obtain rfl := Res.ok.inj hep'
  -- `check_errors` loads the word once
  obtain ⟨errors, c₃, o₃, o₄, hcheck, hrun₃, rfl⟩ := exec_bind_ok _ _ hrun₂
  obtain ⟨htok₃, htd₃⟩ := tokens_load (load_of_checkErrors hcheck)
  rw [hat.td, htd₁] at htok₃
  cases errors with
  | error err =>
    rw [exec_pure] at hrun₃
    simp at hrun₃
  | ok _ =>
    -- the endpoint is not primed, and the completion was signalled
    obtain ⟨primed, c₄, o₄, o₅, hprimed, hrun₄, rfl⟩ := exec_bind_ok _ _ hrun₃
    obtain ⟨htok₄, htd₄⟩ := unread_exec (only_isPrimed ep) hprimed
    obtain ⟨d, c₅, o₅, o₆, hdriver, hrun₅, rfl⟩ := exec_bind_ok _ _ hrun₄
    obtain ⟨htok₅, htd₅⟩ := unread_exec (p := getDriver) (.access trivial) hdriver
    obtain ⟨bit, c₆, o₆, o₇, hbit, hrun₆, rfl⟩ := exec_bind_ok _ _ hrun₅
    obtain ⟨htok₆, htd₆⟩ := unread_exec (only_bit16 _) hbit
    split at hrun₆
    · rw [exec_pure] at hrun₆
      simp at hrun₆
    · obtain ⟨_, c₇, o₇, o₈, hcomplete, hrun₇, rfl⟩ := exec_bind_ok _ _ hrun₆
      obtain ⟨htok₇, htd₇⟩ := unread_exec (plain_clearComplete ep) hcomplete
      obtain ⟨_, c₈, o₈, o₉, hnack, hrun₈, rfl⟩ := exec_bind_ok _ _ hrun₇
      obtain ⟨htok₈, htd₈⟩ := unread_exec (plain_clearNack ep) hnack
      -- `bytes_transferred` loads it again
      obtain ⟨read, c₉, o₉, o₁₀, hread, -, rfl⟩ := exec_bind_ok _ _ hrun₈
      obtain ⟨rest, htok₉⟩ := tokens_read hread
      rw [hat.td, htd₈, htd₇, htd₆, htd₅, htd₄, htd₃, htd₁] at htok₉
      refine ⟨rest ++ tokens e.slot o₁₀, ?_⟩
      simp [tokens_append, htok₁, htok₃, htok₄, htok₅, htok₆, htok₇, htok₈, htok₉]

end Tokens

/-! ## The system -/

/-- What happens at an OUT endpoint. -/
inductive CacheLabel where
  | poll
  /-- A read that returned `r` and loaded these `TOKEN`s of the endpoint. -/
  | read (buf : List Byte) (r : Except UsbError (Nat × List Byte)) (toks : List Word)
  /-- A transfer completes with this packet. -/
  | done (data : List Byte)

/-- A step of the controller, which works on what is in RAM. -/
def CachedSys.hw (c : CachedSys) (ev : HwEvent) : CachedSys :=
  ⟨(ev.apply c.inRam).core, c.memory.dma (ev.apply c.inRam).content⟩

inductive CacheStep (L : Layout) (n : Fin 8) (c : CachedSys) : CacheLabel → CachedSys → Prop where
  | poll {r : PollResult} {c' : CachedSys} {obs : List CacheObs} :
      runCached L Driver.poll c = ⟨.ok r, c', obs⟩ → CacheStep L n c .poll c'
  | read {buf : List Byte} {r : Except UsbError (Nat × List Byte)} {c' : CachedSys}
      {obs : List CacheObs} :
      runCached L (Driver.epRead buf (EpId.address ⟨.Out, n⟩)) c = ⟨.ok r, c', obs⟩ →
        CacheStep L n c (.read buf r (tokens (EpId.slot ⟨.Out, n⟩) obs)) c'
  | done {data : List Byte} : (HwEvent.outDone n data).Enabled c.inRam →
      CacheStep L n c (.done data) (c.hw (.outDone n data))

/-! ## The controller's stores -/

theorem Td.ofWords_get (t : Td) : .ofWords t.get = t := rfl

section Stores

variable {L : Layout} {c : CachedSys} {n : Fin 8} {data : List Byte}

theorem td_view (c : CachedSys) (i : Nat) :
    (c.view L).td i = .ofWords fun w => c.memory.view L.line (.td (.list i) w) := rfl

theorem view_hw (p : Place) : (c.hw (.outDone n data)).memory.view L.line p =
    if c.memory.holds L.line p then c.memory.view L.line p
    else ((HwEvent.outDone n data).apply c.inRam).content p :=
  Cache.view_dma _ _ p

/-- What the controller does not store to looks as before. -/
theorem view_hw_of_same {p : Place}
    (h : ((HwEvent.outDone n data).apply c.inRam).content p = c.inRam.content p) :
    (c.hw (.outDone n data)).memory.view L.line p = c.memory.view L.line p := by
  rw [view_hw, h]
  split
  · rfl
  · rename_i hh
    rw [CachedSys.inRam, content_withMemory, Cache.view_of_not_holds (by simpa using hh)]

/-- A descriptor is in the cache as a whole. -/
theorem holds_td (i : Nat) (w : TdWord) :
    c.memory.holds L.line (.td (.list i) w) = c.memory.holds L.line (.td (.list i) .TOKEN) := by
  rw [Cache.holds, Cache.holds, L.line_td]

theorem content_outDone_td (s : Sys) (i : Nat) (w : TdWord) :
    ((HwEvent.outDone n data).apply s).content (.td (.list i) w) =
      (Function.update s.td (EpId.slot ⟨.Out, n⟩)
        ((s.td (EpId.slot ⟨.Out, n⟩)).retire data.length 0) i).get w := rfl

theorem td_hw_of_ne {i : Nat} (hi : i ≠ EpId.slot ⟨.Out, n⟩) :
    ((c.hw (.outDone n data)).view L).td i = (c.view L).td i := by
  rw [td_view, td_view]
  refine congrArg Td.ofWords (funext fun w => view_hw_of_same ?_)
  rw [content_outDone_td, Function.update_of_ne hi]
  rfl

/-- The driver keeps seeing a descriptor that is in the cache. -/
theorem td_hw_held
    (h : c.memory.holds L.line (.td (.list (EpId.slot ⟨.Out, n⟩)) .TOKEN) = true) :
    ((c.hw (.outDone n data)).view L).td (EpId.slot ⟨.Out, n⟩) =
      (c.view L).td (EpId.slot ⟨.Out, n⟩) := by
  rw [td_view, td_view]
  refine congrArg Td.ofWords (funext fun w => ?_)
  rw [view_hw, holds_td, h, if_pos rfl]

theorem td_inRam_unheld {i : Nat} (h : c.memory.holds L.line (.td (.list i) .TOKEN) = false) :
    c.inRam.td i = (c.view L).td i := by
  show Td.ofWords (fun w => c.memory.ram (.td (.list i) w)) = _
  rw [td_view]
  refine congrArg Td.ofWords (funext fun w => ?_)
  exact (Cache.view_of_not_holds ((holds_td i w).trans h)).symm

theorem td_hw_unheld
    (h : c.memory.holds L.line (.td (.list (EpId.slot ⟨.Out, n⟩)) .TOKEN) = false) :
    ((c.hw (.outDone n data)).view L).td (EpId.slot ⟨.Out, n⟩) =
      ((c.view L).td (EpId.slot ⟨.Out, n⟩)).retire data.length 0 := by
  rw [← td_inRam_unheld h, ← Td.ofWords_get (Td.retire _ _ _), td_view]
  refine congrArg Td.ofWords (funext fun w => ?_)
  rw [view_hw, holds_td, h, content_outDone_td, Function.update_self]
  rfl

theorem qh_hw : ((c.hw (.outDone n data)).view L).qh = (c.view L).qh := by
  have hover : ∀ i w, (c.hw (.outDone n data)).memory.view L.line (.td (.overlay i) w) =
      c.memory.view L.line (.td (.overlay i) w) := fun i w => view_hw_of_same rfl
  have hcap : ∀ i, (c.hw (.outDone n data)).memory.view L.line (.capabilities i) =
      c.memory.view L.line (.capabilities i) := fun i => view_hw_of_same rfl
  have hsetup : ∀ i high, (c.hw (.outDone n data)).memory.view L.line (.setup i high) =
      c.memory.view L.line (.setup i high) := fun i high => view_hw_of_same rfl
  unfold CachedSys.view Core.withMemory
  simp only [hover, hcap, hsetup]

theorem mem_hw (a : Nat) : ((c.hw (.outDone n data)).view L).mem a =
    if c.memory.holds L.line (.byte a) then (c.view L).mem a
    else dmaStore (c.inRam.td (EpId.slot ⟨.Out, n⟩)) c.inRam.mem 0 data a :=
  view_hw (.byte a)

theorem reg_hw : ((c.hw (.outDone n data)).view L).reg =
    ((HwEvent.outDone n data).apply (c.view L)).reg := rfl

theorem reg_hw_of_ne {r : Reg} (h : r ≠ .ENDPTSTAT ∧ r ≠ .ENDPTCOMPLETE ∧ r ≠ .USBSTS) :
    ((c.hw (.outDone n data)).view L).reg r = (c.view L).reg r := by
  rw [reg_hw]
  exact (Sys.reg_setReg_of_ne _ _ h.2.2).trans
    ((Sys.reg_setReg_of_ne _ _ h.2.1).trans (Sys.reg_lower_of_ne _ _ h.1))

theorem primed_hw {e : EpId} (h : ((c.hw (.outDone n data)).view L).primed e = true) :
    e ≠ ⟨.Out, n⟩ ∧ (c.view L).primed e = true := by
  have hret : (HwEvent.retire (c.view L) ⟨.Out, n⟩ data.length 0).primed e = true := h
  exact HwEvent.primed_retire hret

end Stores

/-! ## Runs -/

/-- What holds throughout, of what the driver sees. -/
structure CacheInv (L : Layout) (n : Fin 8) (ep : Endpoint) (c : CachedSys) : Prop where
  view : (cacheView L).inv c
  wf : (c.view L).WF
  fresh : (c.view L).AllFresh
  ep : (c.view L).ep ⟨.Out, n⟩ = some ep

section Steps

variable {L : Layout} {n : Fin 8} {ep : Endpoint} {c c' : CachedSys} {l : CacheLabel}

/-- A read, seen from the driver. -/
theorem CacheInv.read_cases (h : CacheInv L n ep c) {buf : List Byte}
    {r : Except UsbError (Nat × List Byte)} {obs : List CacheObs}
    (hrun : runCached L (Driver.epRead buf (EpId.address ⟨.Out, n⟩)) c = ⟨.ok r, c', obs⟩) :
    ((∃ err, r = .error err) ∧ c'.view L = c.view L) ∨
      r = .ok (((c.view L).view ⟨.Out, n⟩ ep).fetch ep.packetLen buf) ∧
        c'.view L = (c.view L).rearm ⟨.Out, n⟩ ep ep.packetLen := by
  have hsim := ((simulates_epRead buf _).exec_eq h.view hrun).1
  have hread := (run_epRead h.wf h.ep buf).symm.trans hsim
  split at hread
  · obtain ⟨hr, hpost, -⟩ := Out.mk.inj hread
    exact Or.inl ⟨⟨_, (Res.ok.inj hr).symm⟩, hpost.symm⟩
  · split at hread
    · obtain ⟨hr, hpost, -⟩ := Out.mk.inj hread
      exact Or.inl ⟨⟨_, (Res.ok.inj hr).symm⟩, hpost.symm⟩
    · obtain ⟨hr, hpost, -⟩ := Out.mk.inj hread
      exact Or.inr ⟨(Res.ok.inj hr).symm, hpost.symm⟩

theorem CacheInv.done (h : CacheInv L n ep c) (data : List Byte) :
    CacheInv L n ep (c.hw (.outDone n data)) := by
  have hframe : (c.view L).Frame ((c.hw (.outDone n data)).view L) := by
    refine ⟨rfl, rfl, rfl, reg_hw_of_ne (by simp), reg_hw_of_ne (by simp), fun hr => ?_,
      fun e => ?_⟩
    · rwa [reg_hw_of_ne (by simp)]
    · rw [Sys.maxPacketLen, qh_hw, Sys.maxPacketLen]
  -- the controller stores to the one descriptor
  have htd : ∀ e : EpId, e ≠ ⟨.Out, n⟩ →
      ((c.hw (.outDone n data)).view L).td e.slot = (c.view L).td e.slot :=
    fun e he => td_hw_of_ne fun hs => he (EpId.slot_inj.mp hs)
  refine ⟨h.view, h.wf.of_frame hframe (fun e fp hfp => ?_) fun e he => ?_, fun e he => ?_, ?_⟩
  · have hd := h.wf.describes e fp hfp
    by_cases he : e = ⟨.Out, n⟩
    · subst he
      cases hh : c.memory.holds L.line (.td (.list (EpId.slot ⟨.Out, n⟩)) .TOKEN) with
      | true =>
        rw [td_hw_held hh]
        exact hd
      | false =>
        rw [td_hw_unheld hh]
        exact hd.retire _ _
    · rw [htd e he]
      exact hd
  · exact h.wf.primed e (primed_hw he).2
  · rw [htd e (primed_hw he).1]
    exact h.fresh e (primed_hw he).2
  · rw [hframe.ep]
    exact h.ep

theorem CacheStep.inv (h : CacheInv L n ep c) (hstep : CacheStep L n c l c') :
    CacheInv L n ep c' := by
  cases hstep with
  | poll hrun =>
    obtain ⟨hsim, hview, -⟩ := simulates_poll.exec_eq h.view hrun
    have hpoll : run Driver.poll (c.view L) = ⟨_, c'.view L, _⟩ := hsim
    have hcall : Step (c.view L) (.call .poll (.poll _) _) (c'.view L) := .call (by
      rw [Call.prog, run_bind, hpoll, Out.andThen_ok_obs, run_pure])
    refine ⟨hview, hcall.wf h.wf, hcall.allFresh h.wf h.fresh, ?_⟩
    rw [hcall.ep_eq h.wf]
    exact h.ep
  | read hrun =>
    have hview := ((simulates_epRead _ _).exec_eq h.view hrun).2.1
    rcases h.read_cases hrun with ⟨-, hsame⟩ | ⟨-, harm⟩
    · refine ⟨hview, ?_, ?_, ?_⟩ <;> rw [hsame]
      · exact h.wf
      · exact h.fresh
      · exact h.ep
    · have hmoves : Moves (fun _ => True) (c.view L)
          ((c.view L).rearm ⟨.Out, n⟩ ep ep.packetLen) :=
        .rearm h.ep (Nat.le_refl _) trivial trivial
      refine ⟨hview, ?_, ?_, ?_⟩ <;> rw [harm]
      · exact (rearm_effect h.wf h.ep (Nat.le_refl _)).wf
      · exact hmoves.invariant h.fresh fun _ _ => Move.allFresh
      · exact h.ep
  | done => exact h.done _

/-- Nothing is taken from the endpoint in this step. -/
def CacheLabel.Waits : CacheLabel → Prop
  | .poll | .read _ (.error _) _ => True
  | .read _ (.ok _) _ | .done _ => False

theorem CacheStep.waits (h : CacheInv L n ep c) (hstep : CacheStep L n c l c') (hl : l.Waits) :
    (c'.view L).td = (c.view L).td ∧ (c'.view L).mem = (c.view L).mem := by
  cases hstep with
  | poll hrun =>
    have hpoll := (run_poll (c.view L)).symm.trans (simulates_poll.exec_eq h.view hrun).1
    -- a poll changes registers and the driver's own fields
    split at hpoll
    · obtain ⟨-, hpost, -⟩ := Out.mk.inj hpoll
      have hview : c'.view L = (c.view L).lower .USBSTS (USBSTS.URI.put 1) := hpost.symm
      rw [hview]
      exact ⟨rfl, rfl⟩
    · split at hpoll
      · obtain ⟨-, hpost, -⟩ := Out.mk.inj hpoll
        have hview : c'.view L = (c.view L).polled := hpost.symm
        rw [hview]
        exact ⟨rfl, rfl⟩
      · obtain ⟨-, hpost, -⟩ := Out.mk.inj hpoll
        exact ⟨congrArg Sys.td hpost.symm, congrArg Sys.mem hpost.symm⟩
  | read hrun =>
    rcases h.read_cases hrun with ⟨-, hsame⟩ | ⟨rfl, -⟩
    · exact ⟨congrArg Sys.td hsame, congrArg Sys.mem hsame⟩
    · exact hl.elim
  | done => exact hl.elim

theorem CacheInv.run {tr : Hist CachedSys CacheLabel} (h : CacheInv L n ep c)
    (hrun : Run (CacheStep L n) c tr c') : CacheInv L n ep c' :=
  hrun.invariant (I := CacheInv L n ep) (always_true tr) h fun _ _ _ _ hI _ hs => hs.inv hI

theorem CacheInv.waits {tr : Hist CachedSys CacheLabel} (h : CacheInv L n ep c)
    (hrun : Run (CacheStep L n) c tr c') (hidle : Always (fun _ _ l => l.Waits) tr) :
    CacheInv L n ep c' ∧ (c'.view L).td = (c.view L).td ∧ (c'.view L).mem = (c.view L).mem :=
  hrun.invariant
    (I := fun c' => CacheInv L n ep c' ∧ (c'.view L).td = (c.view L).td ∧
      (c'.view L).mem = (c.view L).mem) hidle ⟨h, rfl, rfl⟩
    fun _ _ _ _ hI hl hs => ⟨hs.inv hI.1, (hs.waits hI.1 hl).1.trans hI.2.1,
      (hs.waits hI.1 hl).2.trans hI.2.2⟩

/-- After a read, the descriptor is in the cache. -/
theorem CacheInv.holds_read (h : CacheInv L n ep c) {buf : List Byte}
    {r : Except UsbError (Nat × List Byte)} {obs : List CacheObs} {i : Nat}
    (hline : L.line (.td (.list (EpId.slot ⟨.Out, n⟩)) .TOKEN) = some i)
    (hrun : runCached L (Driver.epRead buf (EpId.address ⟨.Out, n⟩)) c = ⟨.ok r, c', obs⟩) :
    c'.memory.holds L.line (.td (.list (EpId.slot ⟨.Out, n⟩)) .TOKEN) = true := by
  obtain ⟨found, c₁, o₁, o₂, hfound, hrun₁, rfl⟩ := exec_bind_ok _ _ hrun
  obtain ⟨hsome, hinv₁⟩ := found_endpoint h.view h.wf h.ep hfound
  subst hsome
  obtain ⟨ep', c₂, o₂, o₃, hunwrap, hrun₂, rfl⟩ := exec_bind_ok _ _ hrun₁
  rw [unwrap, exec_getOr_some] at hunwrap
  obtain ⟨hep', rfl, rfl⟩ := Out.mk.inj hunwrap
  obtain rfl := Res.ok.inj hep'
  obtain ⟨errors, c₃, o₃, o₄, hcheck, hrun₃, rfl⟩ := exec_bind_ok _ _ hrun₂
  have hinv₃ := ((simulates_plain (plain_checkErrors trivial ep)).exec_eq hinv₁ hcheck).2.1
  have hheld : c₃.memory.holds L.line (.td (.list (EpId.slot ⟨.Out, n⟩)) .TOKEN) = true := by
    have hload := load_of_checkErrors hcheck
    rw [loadTd, exec_access, (h.wf.epOk _ ep h.ep).inPlace.td] at hload
    obtain ⟨-, rfl, -⟩ := Out.mk.inj hload
    exact Cache.holds_touch hline
  cases errors with
  | error err =>
    rw [exec_pure] at hrun₃
    obtain ⟨-, rfl, -⟩ := Out.mk.inj hrun₃
    exact hheld
  | ok _ =>
    -- the rest does not drop it
    have hkept := ((simulates_readUnlessPrimed ep buf).exec_eq hinv₃ hrun₃).2.2
    rw [Cache.holds_some hline] at hheld ⊢
    exact hkept.2 i (L.cacheable_of_line hline) hheld

/-- Once in the cache, the descriptor stays there. -/
theorem CacheStep.holds (h : CacheInv L n ep c) (hstep : CacheStep L n c l c') {p : Place}
    (hp : c.memory.holds L.line p = true) : c'.memory.holds L.line p = true := by
  have hkept : ∀ {α : Type} {q : UsbM α} {r : α} {c' : CachedSys} {obs : List CacheObs},
      (cacheView L).Simulates q → runCached L q c = ⟨.ok r, c', obs⟩ →
        c'.memory.holds L.line p = true := by
    intro α q r c' obs hq hrun
    cases hline : L.line p with
    | none =>
      rw [Cache.holds_none hline] at hp
      simp at hp
    | some i =>
      rw [Cache.holds_some hline] at hp ⊢
      exact (hq.exec_eq h.view hrun).2.2.2 i (L.cacheable_of_line hline) hp
  cases hstep with
  | poll hrun => exact hkept simulates_poll hrun
  | read hrun => exact hkept (simulates_epRead _ _) hrun
  | done => exact hp

/-- So the cache hides every transfer that completes after the first read. -/
theorem CacheInv.stays_cached (h : CacheInv L n ep c) {buf : List Byte}
    {r : Except UsbError (Nat × List Byte)} {toks : List Word} {i : Nat}
    (hline : L.line (.td (.list (EpId.slot ⟨.Out, n⟩)) .TOKEN) = some i)
    (hread : CacheStep L n c (.read buf r toks) c') {tr : Hist CachedSys CacheLabel}
    {d : CachedSys} (hrun : Run (CacheStep L n) c' tr d) :
    d.memory.holds L.line (.td (.list (EpId.slot ⟨.Out, n⟩)) .TOKEN) = true := by
  have h' := hread.inv h
  cases hread with
  | read hexec =>
    have hheld := h.holds_read hline hexec
    exact (hrun.invariant
      (I := fun d => CacheInv L n ep d ∧
        d.memory.holds L.line (.td (.list (EpId.slot ⟨.Out, n⟩)) .TOKEN) = true)
      (always_true tr) ⟨h', hheld⟩ fun _ _ _ _ hI _ hs => ⟨hs.inv hI.1, hs.holds hI.1 hI.2⟩).2

end Steps

/-! ## Coherence -/

/-- A read of `k` bytes took status and length from the `TOKEN` `w`, and the
    bytes from the packet. -/
def ReadsStored (w : Word) (data : List Byte) (k : Nat) (out : List Byte) (toks : List Word) :
    Prop :=
  (∃ rest, toks = w :: w :: rest) ∧ out.take k = data.take k

/-- Nothing that `data` brings for the first `m` bytes is hidden by the cache. -/
structure CachedSys.Uncovered (c : CachedSys) (L : Layout) (n : Fin 8) (ep : Endpoint) (m : Nat)
    (data : List Byte) : Prop where
  descriptor : c.memory.holds L.line (.td (.list (EpId.slot ⟨.Out, n⟩)) .TOKEN) = false
  bytes : ∀ i b, i < m → data[i]? = some b →
    c.memory.holds L.line (.byte (ep.buffer.ptr + i)) = true →
      c.memory.copy (.byte (ep.buffer.ptr + i)) = b

section Coherence

variable {L : Layout} {n : Fin 8} {ep : Endpoint} {d : CachedSys} {data : List Byte}

/-- On cached memory, one read is enough: every later packet is hidden. -/
theorem CacheInv.not_uncovered {c c' : CachedSys} (h : CacheInv L n ep c) {buf : List Byte}
    {r : Except UsbError (Nat × List Byte)} {toks : List Word} {i : Nat}
    (hline : L.line (.td (.list (EpId.slot ⟨.Out, n⟩)) .TOKEN) = some i)
    (hread : CacheStep L n c (.read buf r toks) c') {tr : Hist CachedSys CacheLabel}
    (hrun : Run (CacheStep L n) c' tr d) (m : Nat) : ¬ d.Uncovered L n ep m data := by
  intro hu
  have hdescriptor := hu.descriptor
  rw [h.stays_cached hline hread hrun] at hdescriptor
  simp at hdescriptor

/-- The stored `TOKEN` is not active any more. -/
theorem active_stored (t : Td) (k : Nat) : (t.retire k 0).token.getLsbD 7 = false := by
  rw [Td.retire, Field.getLsbD_set _ _ _ (by decide), if_pos (by decide)]
  decide

/-- What the driver sees at the buffer once the packet is stored. -/
theorem mem_stored (h : CacheInv L n ep d)
    (hheld : d.memory.holds L.line (.td (.list (EpId.slot ⟨.Out, n⟩)) .TOKEN) = false)
    (hdone : (HwEvent.outDone n data).Enabled d.inRam) {i : Nat} {b : Byte}
    (hi : data[i]? = some b) :
    ((d.hw (.outDone n data)).view L).mem (ep.buffer.ptr + i) = b ↔
      (d.memory.holds L.line (.byte (ep.buffer.ptr + i)) = true →
        d.memory.copy (.byte (ep.buffer.ptr + i)) = b) := by
  have hok := h.wf.epOk _ ep h.ep
  have hlen := hdone.2
  rw [td_inRam_unheld hheld] at hlen
  have hptr : ep.buffer.ptr < 0xE0000000 := by
    have := hok.inPlace.ptr_lt
    omega
  rw [mem_hw, td_inRam_unheld hheld,
    dmaStore_describes hptr (Nat.min_le_right _ _) hok.td hlen]
  cases hh : d.memory.holds L.line (.byte (ep.buffer.ptr + i)) with
  | true =>
    have hview : (d.view L).mem (ep.buffer.ptr + i) = d.memory.copy (.byte (ep.buffer.ptr + i)) :=
      Cache.view_of_holds hh
    simp [hview]
  | false =>
    rw [if_neg (by simp), Mem.store_apply, if_pos (Nat.le_add_right _ i), Nat.add_sub_cancel_left,
      hi]
    simp

/-- A read that sees the stored descriptor takes as much of the packet as fits. -/
theorem fetch_stored (h : CacheInv L n ep d)
    (hheld : d.memory.holds L.line (.td (.list (EpId.slot ⟨.Out, n⟩)) .TOKEN) = false)
    (hdone : (HwEvent.outDone n data).Enabled d.inRam) {s : Sys}
    (htd : s.td (EpId.slot ⟨.Out, n⟩) = ((d.view L).td (EpId.slot ⟨.Out, n⟩)).retire data.length 0)
    (buf : List Byte) :
    (s.view ⟨.Out, n⟩ ep).fetch ep.packetLen buf =
      (min buf.length data.length,
        s.mem.load ep.buffer.ptr (min buf.length data.length) ++
          buf.drop (min buf.length data.length)) := by
  have hok := (h.wf.epOk _ ep h.ep).td
  have hfresh := (h.fresh ⟨.Out, n⟩ hdone.1).whole
  have hlen := hdone.2
  rw [td_inRam_unheld hheld] at hlen
  have hsize := hok.size_le
  have hcap := packetLen_le ep
  -- all of the transfer was left when the packet came
  have hk : min (min ep.packetLen buf.length)
      (((s.view ⟨.Out, n⟩ ep)).size - (s.view ⟨.Out, n⟩ ep).left) =
        min buf.length data.length := by
    show min (min ep.packetLen buf.length) ((s.td _).lastTransferSize.toNat -
      (s.td _).totalBytes) = _
    rw [htd, Td.totalBytes_retire]
    show min (min ep.packetLen buf.length) (((d.view L).td _).lastTransferSize.toNat - _) = _
    omega
  rw [EpView.fetch, hk]
  have htake : (s.view ⟨.Out, n⟩ ep).bytes.take (min buf.length data.length) =
      s.mem.load ep.buffer.ptr (min buf.length data.length) := Mem.take_load _ _ (by omega)
  rw [htake]

end Coherence

/-- The memory the driver was started with is where the layout says, and the
    stack is elsewhere. -/
structure Layout.Fits (L : Layout) (k : Core) : Prop where
  tdList : L.tdList = k.driver.epAllocator.tdList
  qhList : L.qhList = k.driver.epAllocator.qhList
  stack : L.StackApart k.stack

theorem CacheInv.of_reachable {L : Layout} {n : Fin 8} {ep : Endpoint} {c : CachedSys}
    (hfit : L.Fits c.core) (h : Reachable (c.view L)) (hep : (c.view L).ep ⟨.Out, n⟩ = some ep) :
    CacheInv L n ep c := by
  have hstack : c.core.stack < 0xE0000000 := h.wf.stack
  exact ⟨⟨hfit.stack, by omega⟩, h.wf, h.allFresh, hep⟩

/-- In every run of transfers and reads on an OUT endpoint, from any state of
    the cache: the read of a transfer gets what the controller stored exactly
    if the cache hid nothing of it when the transfer completed. -/
theorem out_coherent_iff {L : Layout} {n : Fin 8} {ep : Endpoint} {c₀ d d₁ c c' : CachedSys}
    {tr tr' : Hist CachedSys CacheLabel} {data buf out : List Byte} {k : Nat} {toks : List Word}
    (hfit : L.Fits c₀.core) (h₀ : Reachable (c₀.view L))
    (hep : (c₀.view L).ep ⟨.Out, n⟩ = some ep)
    (hrun : Run (CacheStep L n) c₀ tr d) (hdone : CacheStep L n d (.done data) d₁)
    (hwait : Run (CacheStep L n) d₁ tr' c) (hidle : Always (fun _ _ l => l.Waits) tr')
    (hread : CacheStep L n c (.read buf (.ok (k, out)) toks) c') :
    ReadsStored (d₁.inRam.td (EpId.slot ⟨.Out, n⟩)).token data k out toks ↔
      d.Uncovered L n ep buf.length data := by
  have hd : CacheInv L n ep d := (CacheInv.of_reachable hfit h₀ hep).run hrun
  cases hdone with
  | done henabled =>
    obtain ⟨hinv, htd, hmem⟩ := (hd.done data).waits hwait hidle
    -- what is in RAM once the transfer is complete
    have hram : (d.hw (.outDone n data)).inRam.td (EpId.slot ⟨.Out, n⟩) =
        (d.inRam.td (EpId.slot ⟨.Out, n⟩)).retire data.length 0 := by
      show Td.ofWords (fun w => ((HwEvent.outDone n data).apply d.inRam).content
        (.td (.list (EpId.slot ⟨.Out, n⟩)) w)) = _
      simp only [content_outDone_td, Function.update_self]
      rfl
    have hactive := active_stored (d.inRam.td (EpId.slot ⟨.Out, n⟩)) data.length
    have hfresh := hd.fresh ⟨.Out, n⟩ henabled.1
    cases hread with
    | @read _ _ _ obs hexec =>
      obtain ⟨rest, htoks⟩ := tokens_epRead hinv.view hinv.wf hinv.ep hexec
      obtain ⟨⟨err, herr⟩, -⟩ | ⟨hr, -⟩ := hinv.read_cases hexec
      · simp at herr
      rw [hram, htoks, htd]
      cases hh : d.memory.holds L.line (.td (.list (EpId.slot ⟨.Out, n⟩)) .TOKEN) with
      | true =>
        -- the cached descriptor is still active
        rw [td_hw_held hh]
        constructor
        · rintro ⟨⟨rest', heq⟩, -⟩
          have hsame := (List.cons.inj heq).1
          rw [← hsame, hfresh.active] at hactive
          simp at hactive
        · intro hun
          rw [hun.descriptor] at hh
          simp at hh
      | false =>
        rw [fetch_stored hd hh henabled (by rw [htd, td_hw_unheld hh]), hmem] at hr
        obtain ⟨rfl, rfl⟩ := Prod.mk.inj (Except.ok.inj hr)
        rw [td_hw_unheld hh, ← td_inRam_unheld hh]
        have htake : ∀ m : Mem, (m.load ep.buffer.ptr (min buf.length data.length) ++
            buf.drop (min buf.length data.length)).take (min buf.length data.length) =
              m.load ep.buffer.ptr (min buf.length data.length) := by
          intro m
          exact List.take_left' (Mem.length_load _ _ _)
        rw [ReadsStored, htake, Mem.load_eq_take_iff _ _ (Nat.min_le_right _ _)]
        constructor
        · rintro ⟨-, hbytes⟩
          refine ⟨hh, fun i b hi hb => (mem_stored hd hh henabled hb).mp (hbytes i b ?_ hb)⟩
          obtain ⟨hlt, -⟩ := List.getElem?_eq_some_iff.mp hb
          omega
        · intro hun
          refine ⟨⟨rest, rfl⟩, fun i b hi hb => (mem_stored hd hh henabled hb).mpr ?_⟩
          exact hun.bytes i b (by omega) hb

/-! ## A device with its memory in the cache -/

theorem CacheStep.of_read (L : Layout) (n : Fin 8) (c : CachedSys) (buf : List Byte)
    {r : Except UsbError (Nat × List Byte)}
    (h : (runCached L (Driver.epRead buf (EpId.address ⟨.Out, n⟩)) c).res = .ok r) :
    CacheStep L n c (.read buf r (tokens (EpId.slot ⟨.Out, n⟩)
      (runCached L (Driver.epRead buf (EpId.address ⟨.Out, n⟩)) c).obs))
      (runCached L (Driver.epRead buf (EpId.address ⟨.Out, n⟩)) c).post :=
  .read (by rw [← h])

theorem CacheStep.of_poll {L : Layout} {n : Fin 8} {c : CachedSys} {r : PollResult}
    (h : (runCached L Driver.poll c).res = .ok r) :
    CacheStep L n c .poll (runCached L Driver.poll c).post :=
  .poll (by rw [← h])

/-- Everything from the QH list on is cacheable; the stack is below. -/
def deviceLayout : Layout where
  tdList := 0x20101000
  qhList := 0x20100000
  cacheable := fun l => decide (0x20100000 / 32 ≤ l)
  aligned := by decide

theorem configured_step :
    Step device (.call .configure .unit device.configuredObs) device.configured := by
  refine .call ?_
  rw [Call.prog, run_bind, run_onConfigured device_booted.reachable.wf, Out.andThen_ok_obs,
    run_pure, List.append_nil]

theorem reachable_configured (L : Layout) :
    Reachable ((CachedSys.cold device.configured).view L) := by
  rw [CachedSys.view_cold]
  exact device_booted.reachable.run (.single configured_step)

theorem ep_configured (L : Layout) : ((CachedSys.cold device.configured).view L).ep bulkOut =
    some (deviceEndpoint bulkOut 2 .Bulk) := by
  rw [CachedSys.view_cold, configured_step.ep_eq device_booted.reachable.wf]
  exact device_bulkOut

theorem fits_configured : deviceLayout.Fits (CachedSys.cold device.configured).core := by
  refine ⟨?_, ?_, ?_, ?_⟩ <;> decide +kernel

/-- The packet comes before the driver has looked at the descriptor: it is read.
    The cache is cold although the endpoint is armed.  No run from boot on this
    memory gets there, since arming goes through the cache; and after the read of
    this run the cache is never cold again (`CacheInv.stays_cached`). -/
theorem out_coherent_device : ∃ (d₁ c c' : CachedSys) (toks : List Word),
    CacheStep deviceLayout 1 (.cold device.configured) (.done [7, 8]) d₁ ∧
      CacheStep deviceLayout 1 d₁ .poll c ∧
      CacheStep deviceLayout 1 c (.read [0, 0, 0, 0] (.ok (2, [7, 8, 0, 0])) toks) c' ∧
      ReadsStored (d₁.inRam.td bulkOut.slot).token [7, 8] 2 [7, 8, 0, 0] toks := by
  have hdone : CacheStep deviceLayout 1 (.cold device.configured) (.done [7, 8])
      ((CachedSys.cold device.configured).hw (.outDone 1 [7, 8])) := .done (by decide +kernel)
  have hpoll : CacheStep deviceLayout 1 ((CachedSys.cold device.configured).hw (.outDone 1 [7, 8]))
      .poll _ := .of_poll (r := .Data 2 0 0) (by decide +kernel)
  have hread := CacheStep.of_read deviceLayout 1 (runCached deviceLayout Driver.poll
      ((CachedSys.cold device.configured).hw (.outDone 1 [7, 8]))).post [0, 0, 0, 0]
    (r := .ok (2, [7, 8, 0, 0])) (by decide +kernel)
  refine ⟨_, _, _, _, hdone, hpoll, hread, ?_⟩
  refine (out_coherent_iff fits_configured (reachable_configured _) (ep_configured _) .nil hdone
    (.single hpoll) (always_single.mpr trivial) hread).mpr ⟨?_, fun i b _ _ hh => ?_⟩
  · exact CachedSys.holds_cold device.configured _
  · rw [CachedSys.holds_cold] at hh
    simp at hh

/-- The driver looks once too early: the read of the packet then finds the
    descriptor as it was, and returns nothing. -/
theorem out_stale : ∃ (L : Layout) (c₀ c₁ d₁ c c' : CachedSys) (toks₀ toks : List Word),
    L.Fits c₀.core ∧ Reachable (c₀.view L) ∧
      CacheStep L 1 c₀ (.read [0, 0, 0, 0] (.error .WouldBlock) toks₀) c₁ ∧
      CacheStep L 1 c₁ (.done [7, 8]) d₁ ∧ CacheStep L 1 d₁ .poll c ∧
      CacheStep L 1 c (.read [0, 0, 0, 0] (.ok (0, [0, 0, 0, 0])) toks) c' ∧
      ¬ ReadsStored (d₁.inRam.td bulkOut.slot).token [7, 8] 0 [0, 0, 0, 0] toks := by
  have hearly := CacheStep.of_read deviceLayout 1 (.cold device.configured) [0, 0, 0, 0]
    (r := .error .WouldBlock) (by decide +kernel)
  have hdone : CacheStep deviceLayout 1 _ (.done [7, 8])
      ((runCached deviceLayout (Driver.epRead [0, 0, 0, 0] bulkOut.address)
        (.cold device.configured)).post.hw (.outDone 1 [7, 8])) := .done (by decide +kernel)
  have hpoll : CacheStep deviceLayout 1 ((runCached deviceLayout
      (Driver.epRead [0, 0, 0, 0] bulkOut.address) (.cold device.configured)).post.hw
        (.outDone 1 [7, 8])) .poll _ := .of_poll (r := .Data 2 0 0) (by decide +kernel)
  have hread := CacheStep.of_read deviceLayout 1 (runCached deviceLayout Driver.poll
      ((runCached deviceLayout (Driver.epRead [0, 0, 0, 0] bulkOut.address)
        (.cold device.configured)).post.hw (.outDone 1 [7, 8]))).post [0, 0, 0, 0]
    (r := .ok (0, [0, 0, 0, 0])) (by decide +kernel)
  refine ⟨_, _, _, _, _, _, _, _, fits_configured, reachable_configured _, hearly, hdone, hpoll,
    hread, ?_⟩
  rintro ⟨⟨rest, heq⟩, -⟩
  have hhead := congrArg List.head? heq
  rw [List.head?_cons] at hhead
  revert hhead
  decide +kernel

end ImxrtUsbd
