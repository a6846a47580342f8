/-
  ImxrtUsbd.Allocation

  Requests for endpoints.  `requests_served_iff` says of every sequence of
  requests that all of them are served as they should be, none of them panics,
  exactly if every one of them can be answered without storage that is not
  there.
-/
import ImxrtUsbd.Replay

namespace ImxrtUsbd

open Lib

/-! ## What a request should come to -/

/-- The numbers that automatic assignment tries. -/
def autoNumbers : List Nat := [1, 2, 3, 4, 5, 6, 7]

/-- The lowest free number in this direction that has storage. -/
structure Sys.LowestFree (s : Sys) (epDir : UsbDirection) (n : Nat) : Prop where
  mem : n ∈ autoNumbers
  storage : s.HasStorage (.fromParts n epDir)
  free : s.lookup (.fromParts n epDir) = none
  lowest : ∀ m ∈ autoNumbers, m < n → s.HasStorage (.fromParts m epDir) →
    (s.lookup (.fromParts m epDir)).isSome = true

/-- All numbers in this direction that have storage are taken. -/
def Sys.Full (s : Sys) (epDir : UsbDirection) : Prop :=
  ∀ n ∈ autoNumbers, s.HasStorage (.fromParts n epDir) →
    (s.lookup (.fromParts n epDir)).isSome = true

/-- The answer `r` to a request, which leaves `s'`, is right. -/
structure Request.Answers (q : Request) (s : Sys) (r : Except UsbError EndpointAddress)
    (s' : Sys) : Prop where
  /-- A granted address was free, is taken now, and is the one requested or the lowest. -/
  granted : ∀ addr, r = .ok addr →
    s.lookup addr = none ∧ (s'.lookup addr).isSome = true ∧
      (q.epAddr = some addr ∨
        q.epAddr = none ∧ ∃ n, addr = .fromParts n q.epDir ∧ s.LowestFree q.epDir n)
  /-- A refusal leaves both allocators as they were. -/
  refused : ∀ err, r = .error err →
    s'.driver.epAllocator = s.driver.epAllocator ∧
      s'.driver.bufferAllocator = s.driver.bufferAllocator
  overflow : q.epAddr = none → (r = .error .EndpointOverflow ↔ s.Full q.epDir)
  /-- An address without storage is refused. -/
  storage : ∀ addr, q.epAddr = some addr → ¬ s.HasStorage addr → ∃ err, r = .error err

/-- The request returns, with the right answer. -/
def Request.Served (q : Request) (s : Sys) : Prop :=
  ∃ r, (run q.prog s).res = .ok r ∧ q.Answers s r (run q.prog s).post

/-- The request does not run into missing storage: its address is taken, has
    storage, or is refused for lack of memory; or there is a free number with
    storage, or storage for all numbers. -/
def Request.Answerable (q : Request) (s : Sys) : Prop :=
  match q.epAddr with
  | some addr =>
    (s.lookup addr).isSome = true ∨ s.HasStorage addr ∨ ¬ s.CanGrant q.maxPacketSize.toNat
  | none =>
    (∃ n ∈ autoNumbers, s.HasStorage (.fromParts n q.epDir) ∧
      s.lookup (.fromParts n q.epDir) = none) ∨
      ∀ n ∈ autoNumbers, s.HasStorage (.fromParts n q.epDir)

instance (q : Request) (s : Sys) : Decidable (q.Answerable s) := by
  obtain ⟨epDir, epAddr, epType, maxPacketSize⟩ := q
  cases epAddr with
  | some addr => exact inferInstanceAs (Decidable (_ ∨ _ ∨ _))
  | none => exact inferInstanceAs (Decidable (_ ∨ _))

/-! ## Storage -/

section Storage

variable {s : Sys} {q : Request} {epDir : UsbDirection} {n m : Nat}

theorem lt_of_mem_autoNumbers (hn : n ∈ autoNumbers) : n < 8 := by
  have hall : ∀ n ∈ autoNumbers, n < 8 := by decide
  exact hall n hn

theorem fromParts_eq_address (hn : n < 8) :
    EndpointAddress.fromParts n epDir = EpId.address ⟨epDir, ⟨n, hn⟩⟩ := rfl

/-- Storage is given out from number 0 upwards. -/
theorem Sys.HasStorage.of_le (hs : s.HasStorage (.fromParts m epDir)) (hle : n ≤ m) (hm : m < 8) :
    s.HasStorage (.fromParts n epDir) := by
  have hn : n < 8 := by omega
  rw [fromParts_eq_address hm, Sys.HasStorage, EpId.index_address] at hs
  rw [fromParts_eq_address hn, Sys.HasStorage, EpId.index_address]
  have hslot : EpId.slot ⟨epDir, ⟨n, hn⟩⟩ ≤ EpId.slot ⟨epDir, ⟨m, hm⟩⟩ := by
    show n * 2 + EpId.inBit ⟨epDir, _⟩ ≤ m * 2 + EpId.inBit ⟨epDir, _⟩
    cases epDir with
    | Out | In =>
      simp only [EpId.inBit]
      omega
  omega

theorem hasStorage_of_allocated {addr : EndpointAddress} (h : s.WF)
    (halloc : (s.lookup addr).isSome = true) : s.HasStorage addr := by
  obtain ⟨ep, hep⟩ := Option.isSome_iff_exists.mp halloc
  obtain ⟨e, rfl, he⟩ := Sys.lookup_eq_some hep
  rw [Sys.HasStorage, EpId.index_address]
  exact (h.epOk e ep he).slot_lt

/-- The numbers before the one at which the search stops are those below it. -/
theorem mem_of_autoNumbers_eq {pre post : List Nat} (heq : autoNumbers = pre ++ n :: post)
    (hm : m ∈ autoNumbers) : m ∈ pre ∧ m < n ∨ m = n ∨ n < m := by
  have hsorted : autoNumbers.Pairwise (· < ·) := by decide
  rw [heq] at hsorted hm
  obtain ⟨-, hpost, hbefore⟩ := List.pairwise_append.mp hsorted
  rcases List.mem_append.mp hm with hm | hm
  · exact Or.inl ⟨hm, hbefore m hm n List.mem_cons_self⟩
  · rcases List.mem_cons.mp hm with rfl | hm
    · exact Or.inr (Or.inl rfl)
    · exact Or.inr (Or.inr ((List.pairwise_cons.mp hpost).1 m hm))

end Storage

/-! ## One request -/

section One

variable {s : Sys} {q : Request}

/-- A refusal for another reason than that all numbers are taken. -/
theorem Request.Served.refuse {err : UsbError} {o : List Obs}
    (hrun : run q.prog s = ⟨.ok (.error err), s, o⟩)
    (hfull : q.epAddr = none → (err = .EndpointOverflow ↔ s.Full q.epDir)) : q.Served s := by
  refine ⟨_, by rw [hrun], ?_⟩
  rw [hrun]
  refine ⟨by simp, fun _ _ => ⟨rfl, rfl⟩, fun hq => ?_, fun _ _ _ => ⟨err, rfl⟩⟩
  rw [← hfull hq]
  exact ⟨fun h => Except.error.inj h, fun h => by rw [h]⟩

/-- A granted address. -/
theorem Request.Served.grant {e : EpId} {n : Nat} {kind : EndpointType} {o : List Obs}
    (hrun : run q.prog s = ⟨.ok (.ok e.address), s.allocated e n kind, o⟩)
    (hs : s.HasStorage e.address) (hnone : s.ep e = none)
    (haddr : q.epAddr = some e.address ∨
      q.epAddr = none ∧ ∃ n, e.address = .fromParts n q.epDir ∧ s.LowestFree q.epDir n) :
    q.Served s := by
  refine ⟨_, by rw [hrun], ?_⟩
  rw [hrun]
  refine ⟨fun addr ha => ?_, by simp, fun hq => ?_, fun addr hq hno => ?_⟩
  · obtain rfl := Except.ok.inj ha
    refine ⟨by rw [Sys.lookup_address, hnone], ?_, haddr⟩
    rw [Sys.lookup_address, ep_allocated, if_pos rfl]
    rfl
  · -- the number granted was free
    refine iff_of_false (by simp) fun hfull => ?_
    rcases haddr with hq' | ⟨-, n, ha, hlow⟩
    · rw [hq] at hq'
      simp at hq'
    · have := hfull n hlow.mem hlow.storage
      rw [hlow.free] at this
      simp at this
  · rcases haddr with hq' | ⟨hq', -⟩
    · rw [hq'] at hq
      obtain rfl := Option.some.inj hq
      exact absurd hs hno
    · rw [hq'] at hq
      simp at hq

theorem Request.not_served_of_panic {s' : Sys} {o : List Obs}
    (hrun : run q.prog s = ⟨.fail .panic, s', o⟩) : ¬ q.Served s := by
  rintro ⟨r, hres, -⟩
  rw [hrun] at hres
  simp at hres

/-- An explicit address. -/
theorem Request.served_iff_explicit (h : s.WF) {addr : EndpointAddress}
    (hq : q.epAddr = some addr) : q.Served s ↔
      (s.lookup addr).isSome = true ∨ s.HasStorage addr ∨ ¬ s.CanGrant q.maxPacketSize.toNat := by
  obtain ⟨epDir, epAddr, epType, maxPacketSize⟩ := q
  obtain rfl : epAddr = some addr := hq
  cases hl : s.lookup addr with
  | some ep =>
    have hrun := run_request_taken h (by rw [hl]; rfl) epDir epType maxPacketSize
    exact iff_of_true (.refuse hrun (by simp)) (Or.inl rfl)
  | none =>
    have hrun := run_request_free h hl epDir epType maxPacketSize
    by_cases hg : s.CanGrant maxPacketSize.toNat
    · by_cases hs : s.HasStorage addr
      · obtain ⟨e, rfl, he⟩ := lookup_of_hasStorage hs
        have hnone : s.ep e = none := he.symm.trans hl
        rw [run_allocAt h hg hs hnone] at hrun
        exact iff_of_true (.grant hrun hs hnone (Or.inl rfl)) (Or.inr (Or.inl hs))
      · -- the buffer is granted, and then there is no place for the endpoint
        rw [run_allocAt_panic hg hs] at hrun
        refine iff_of_false (Request.not_served_of_panic hrun) ?_
        rintro (hsome | hs' | hg')
        · simp at hsome
        · exact hs hs'
        · exact hg' hg
    · rw [run_allocAt_refused hg] at hrun
      exact iff_of_true (.refuse hrun (by simp)) (Or.inr (Or.inr hg))

/-- Automatic assignment. -/
theorem Request.served_iff_auto (h : s.WF) (hq : q.epAddr = none) : q.Served s ↔
    (∃ n ∈ autoNumbers, s.HasStorage (.fromParts n q.epDir) ∧
      s.lookup (.fromParts n q.epDir) = none) ∨
      ∀ n ∈ autoNumbers, s.HasStorage (.fromParts n q.epDir) := by
  obtain ⟨epDir, epAddr, epType, maxPacketSize⟩ := q
  obtain rfl : epAddr = none := hq
  have hprog : run (Request.prog ⟨epDir, none, epType, maxPacketSize⟩) s =
    run (BusAdapter.allocFirst epDir epType maxPacketSize autoNumbers) s := rfl
  rcases run_allocFirst h epDir epType maxPacketSize autoNumbers with
    ⟨hall, hrun⟩ | ⟨pre, n, post, heq, hpre, hfree, hrun⟩
  · -- all seven are taken, so all have storage
    exact iff_of_true
      (.refuse (hprog.trans hrun) fun _ => iff_of_true rfl fun n hn _ => hall n hn)
      (Or.inr fun n hn => hasStorage_of_allocated h (hall n hn))
  · have hn : n ∈ autoNumbers := by
      rw [heq]
      simp
    have hn8 := lt_of_mem_autoNumbers hn
    rw [hrun] at hprog
    by_cases hs : s.HasStorage (.fromParts n epDir)
    · -- the first free number has storage
      refine iff_of_true ?_ (Or.inl ⟨n, hn, hs, hfree⟩)
      by_cases hg : s.CanGrant maxPacketSize.toNat
      · have hlow : s.LowestFree epDir n := by
          refine ⟨hn, hs, hfree, fun m hm hlt _ => ?_⟩
          rcases mem_of_autoNumbers_eq heq hm with ⟨hpre', -⟩ | rfl | hgt
          · exact hpre m hpre'
          · omega
          · omega
        rw [fromParts_eq_address hn8] at hs hfree hprog
        rw [Sys.lookup_address] at hfree
        rw [run_allocAt h hg hs hfree] at hprog
        exact .grant hprog hs hfree (Or.inr ⟨rfl, n, rfl, hlow⟩)
      · rw [run_allocAt_refused hg] at hprog
        refine .refuse hprog fun _ => iff_of_false (by simp) fun hfull => ?_
        have := hfull n hn hs
        rw [hfree] at this
        simp at this
    · -- it has none, so all that have storage are taken
      have hfull : s.Full epDir := by
        intro m hm hsm
        rcases mem_of_autoNumbers_eq heq hm with ⟨hpre', -⟩ | rfl | hgt
        · exact hpre m hpre'
        · exact absurd hsm hs
        · exact absurd (hsm.of_le (by omega) (lt_of_mem_autoNumbers hm)) hs
      refine iff_of_false ?_ ?_
      · by_cases hg : s.CanGrant maxPacketSize.toNat
        · rw [run_allocAt_panic hg hs] at hprog
          exact Request.not_served_of_panic hprog
        · rintro ⟨r, hres, hans⟩
          rw [run_allocAt_refused hg] at hprog
          rw [hprog] at hres
          obtain rfl := Res.ok.inj hres
          have hov := (hans.overflow rfl).mpr hfull
          simp at hov
      · rintro (⟨m, hm, hsm, hmfree⟩ | hall)
        · have := hfull m hm hsm
          rw [hmfree] at this
          simp at this
        · exact hs (hall n hn)

theorem Request.served_iff (h : s.WF) : q.Served s ↔ q.Answerable s := by
  unfold Request.Answerable
  split
  · rename_i addr hq
    exact Request.served_iff_explicit h hq
  · rename_i hq
    exact Request.served_iff_auto h hq

end One

/-! ## Sequences of requests -/

/-- Every request of the sequence is served, each in the state that the ones
    before it leave. -/
def AllServed (s : Sys) : List Request → Prop
  | [] => True
  | q :: qs => q.Served s ∧ AllServed (run q.prog s).post qs

/-- Every request of the sequence can be answered. -/
def AllAnswerable (s : Sys) : List Request → Prop
  | [] => True
  | q :: qs => q.Answerable s ∧ AllAnswerable (run q.prog s).post qs

instance AllAnswerable.decidable (s : Sys) : (qs : List Request) → Decidable (AllAnswerable s qs)
  | [] => isTrue trivial
  | q :: qs =>
    have := AllAnswerable.decidable (run q.prog s).post qs
    inferInstanceAs (Decidable (q.Answerable s ∧ AllAnswerable (run q.prog s).post qs))

/-- A sequence of requests is served, with no panic and nothing lost, if and
    only if none of them runs into missing storage. -/
theorem requests_served_iff {s : Sys} (hb : Booted s) (qs : List Request) :
    AllServed s qs ↔ AllAnswerable s qs := by
  induction qs generalizing s with
  | nil => exact Iff.rfl
  | cons q qs ih =>
    rw [AllServed, AllAnswerable, ← Request.served_iff hb.idle.wf]
    refine and_congr_right fun hserved => ?_
    obtain ⟨r, hres, -⟩ := hserved
    have hrun : run q.prog s = ⟨.ok r, (run q.prog s).post, (run q.prog s).obs⟩ := by
      rw [← hres]
    exact ih (hb.alloc hrun)

/-- Requests for the control endpoint. -/
def controlRequests : List Request :=
  [⟨.Out, some EpId.ep0Out.address, .Control, 64⟩, ⟨.In, some EpId.ep0In.address, .Control, 64⟩]

/-- State for three endpoints in each direction: requests of both kinds that are
    granted, one for a taken address, and one for too much memory. -/
theorem requests_served_small :
    AllServed (started (powerOn 6 512) .High)
      (controlRequests ++ [⟨.Out, none, .Bulk, 64⟩, ⟨.In, none, .Bulk, 64⟩,
        ⟨.Out, some ⟨0x02⟩, .Interrupt, 32⟩, ⟨.Out, some ⟨0x02⟩, .Interrupt, 32⟩,
        ⟨.In, some ⟨0x85⟩, .Bulk, 1024⟩]) :=
  (requests_served_iff (started_booted (powerOn_ok 6 (by omega)) .High) _).mpr (by decide +kernel)

/-- With state for two IN endpoints, a request for a third panics, and so does a
    request for an address that no state was provided for. -/
theorem requests_panic :
    ¬ AllServed (started (powerOn 5 512) .High)
        (controlRequests ++ [⟨.In, none, .Bulk, 64⟩, ⟨.In, none, .Bulk, 64⟩]) ∧
      ¬ AllServed (started (powerOn 5 512) .High)
        (controlRequests ++ [⟨.In, some ⟨0x84⟩, .Bulk, 64⟩]) := by
  have hnot : ∀ {q : Request} {s : Sys},
      (match (run q.prog s).res with | .fail .panic => true | _ => false) = true →
      ¬ q.Served s := by
    rintro q s hp ⟨r, hres, -⟩
    rw [hres] at hp
    simp at hp
  constructor
  · rintro ⟨-, -, -, hserved, -⟩
    exact hnot (by decide +kernel) hserved
  · rintro ⟨-, -, hserved, -⟩
    exact hnot (by decide +kernel) hserved

end ImxrtUsbd
