/-
  ImxrtUsbd.Lib.Preempt

  One processor with interrupts, and an object that all code on it shares.

  Every call borrows the object, for reading or for writing, and may disable
  interrupts while it lasts.  Where interrupts are enabled, a handler can start
  before any access of whatever is running, and make calls of its own; it
  returns before the code that it interrupted goes on.  A call that cannot
  borrow the object is never started.

  - `Core.Ok` says who can be at work at the same time; `Trail.ok` that it
    always holds.
  - `Trail.serial`: the calls that returned did so as if they had been made one
    after the other.
-/
import ImxrtUsbd.Lib.Steps
import ImxrtUsbd.Lib.Refinement

namespace Lib

universe u v

/-- What a transition system with large states can go through. -/
inductive Trail {C : Type u} {L : Type v} (step : C → L → C → Prop) (c₀ : C) :
    List L → C → Prop where
  | nil : Trail step c₀ [] c₀
  | snoc {ls : List L} {c c' : C} {l : L} :
      Trail step c₀ ls c → step c l c' → Trail step c₀ (ls ++ [l]) c'

theorem Trail.mono {C : Type u} {L : Type v} {step step' : C → L → C → Prop}
    (h : ∀ {c l c'}, step c l c' → step' c l c') {c₀ c : C} {ls : List L}
    (hr : Trail step c₀ ls c) : Trail step' c₀ ls c := by
  induction hr with
  | nil => exact .nil
  | snoc _ hs ih => exact ih.snoc (h hs)

namespace Preempt

/-- The calls of a shared object. -/
structure Api (E : Type → Type) (φ job ρ : Type) where
  prog : job → Prog E φ ρ
  /-- The call borrows the object for reading only. -/
  reads : job → Bool

/-- A call in progress. -/
structure Frame (E : Type → Type) (O φ job ρ : Type) where
  job : job
  rest : Prog E φ ρ
  shown : List O
  /-- Interrupts were disabled when it was made. -/
  masked : Bool

/-- What was interrupted, or is running. -/
inductive Context (E : Type → Type) (O φ job ρ : Type) where
  | handler
  | call (f : Frame E O φ job ρ)

structure Core (E : Type → Type) (S O φ job ρ : Type) where
  state : S
  /-- Interrupts are disabled. -/
  masked : Bool
  readers : Nat
  writing : Bool
  /-- The innermost context first; the main program is below. -/
  stack : List (Context E O φ job ρ)

inductive Label (O job ρ ev : Type) where
  | enter
  | leave
  | mask (b : Bool)
  | start (j : job)
  | access
  | finish (j : job) (r : ρ) (o : List O)
  | event (e : ev)

variable {E : Type → Type} {S O φ job ρ ev : Type}

/-- The calls among some contexts. -/
def calls (l : List (Context E O φ job ρ)) : List (Frame E O φ job ρ) :=
  l.filterMap fun
    | .handler => none
    | .call f => some f

@[simp] theorem calls_nil : calls ([] : List (Context E O φ job ρ)) = [] := rfl

@[simp] theorem calls_handler (l : List (Context E O φ job ρ)) :
    calls (.handler :: l) = calls l := rfl

@[simp] theorem calls_call (f : Frame E O φ job ρ) (l : List (Context E O φ job ρ)) :
    calls (.call f :: l) = f :: calls l := rfl

namespace Core

/-- Nothing was called or interrupted yet. -/
def idle (s : S) (masked : Bool) : Core E S O φ job ρ := ⟨s, masked, 0, false, []⟩

/-- The code that runs is not that of a call. -/
def Outside (c : Core E S O φ job ρ) : Prop := ∀ f rest, c.stack ≠ .call f :: rest

instance (c : Core E S O φ job ρ) : Decidable c.Outside :=
  match h : c.stack with
  | [] => isTrue fun f rest hc => by simp [h] at hc
  | .handler :: _ => isTrue fun f rest hc => by simp [h] at hc
  | .call f :: rest => isFalse fun ho => ho f rest h

/-- The object can be borrowed so. -/
def Grants (c : Core E S O φ job ρ) (reads : Bool) : Prop :=
  c.writing = false ∧ (reads = true ∨ c.readers = 0)

instance (c : Core E S O φ job ρ) (reads : Bool) : Decidable (c.Grants reads) :=
  inferInstanceAs (Decidable (_ ∧ _))

/-- A call starts, in a critical section or not. -/
def start (api : Api E φ job ρ) (critical : Bool) (c : Core E S O φ job ρ) (j : job) :
    Core E S O φ job ρ :=
  { c with
    masked := critical || c.masked
    readers := if api.reads j then c.readers + 1 else c.readers
    writing := !api.reads j
    stack := .call ⟨j, api.prog j, [], c.masked⟩ :: c.stack }

/-- The innermost call is over: interrupts are enabled again if they were. -/
def finish (api : Api E φ job ρ) (critical : Bool) (c : Core E S O φ job ρ)
    (f : Frame E O φ job ρ) (rest : List (Context E O φ job ρ)) : Core E S O φ job ρ :=
  { c with
    masked := if critical && !f.masked then false else c.masked
    readers := if api.reads f.job then c.readers - 1 else c.readers
    writing := false
    stack := rest }

end Core

/-- What can happen next. -/
inductive Step (api : Api E φ job ρ) (M : Machine E S O) (env : ev → S → Option S)
    (critical : Bool) (c : Core E S O φ job ρ) :
    Label O job ρ ev → Core E S O φ job ρ → Prop where
  | enter : c.masked = false →
      Step api M env critical c .enter { c with stack := .handler :: c.stack }
  | leave {rest : List (Context E O φ job ρ)} : c.stack = .handler :: rest →
      Step api M env critical c .leave { c with stack := rest }
  | mask (b : Bool) : c.Outside → Step api M env critical c (.mask b) { c with masked := b }
  | start {j : job} : c.Outside → c.Grants (api.reads j) →
      Step api M env critical c (.start j) (c.start api critical j)
  | access {f : Frame E O φ job ρ} {rest : List (Context E O φ job ρ)} {p : Prog E φ ρ} {s : S}
      {o : List O} : c.stack = .call f :: rest → f.rest.next M c.state = some (p, s, o) →
      Step api M env critical c .access { c with
        state := s
        stack := .call { f with rest := p, shown := f.shown ++ o } :: rest }
  | finish {f : Frame E O φ job ρ} {rest : List (Context E O φ job ρ)} {r : ρ} :
      c.stack = .call f :: rest → f.rest = .ret r →
      Step api M env critical c (.finish f.job r f.shown) (c.finish api critical f rest)
  | event {e : ev} {s : S} : env e c.state = some s →
      Step api M env critical c (.event e) { c with state := s }

/-! ## Who is at work -/

/-- Interrupts, as the code outside of the calls wants them. -/
def lastMask (m : Bool) (ls : List (Label O job ρ ev)) : Bool :=
  ls.foldl (fun m l => match l with
    | .mask b => b
    | _ => m) m

/-- The cell and the interrupts fit the calls in progress; `m` is what is wanted
    of the interrupts outside of calls. -/
structure Core.Ok (api : Api E φ job ρ) (critical m : Bool) (c : Core E S O φ job ρ) : Prop where
  writer : c.writing = true → c.readers = 0 ∧ ∃ f, calls c.stack = [f] ∧ api.reads f.job = false
  reader : c.writing = false → c.readers = (calls c.stack).length ∧
    ∀ f ∈ calls c.stack, api.reads f.job = true
  /-- In a critical section, nothing else gets to run. -/
  alone : critical = true → calls c.stack = [] ∨
    c.masked = true ∧ ∃ f rest, c.stack = .call f :: rest ∧ calls rest = []
  saved : critical = true → ∀ f ∈ calls c.stack, f.masked = m
  restored : critical = false ∨ calls c.stack = [] → c.masked = m

section Ok

variable {api : Api E φ job ρ} {M : Machine E S O} {env : ev → S → Option S} {critical m : Bool}
  {c c' : Core E S O φ job ρ} {l : Label O job ρ ev} {f : Frame E O φ job ρ}
  {rest : List (Context E O φ job ρ)}

/-- Code outside of the calls runs in no critical section. -/
theorem Core.Ok.calls_nil (h : c.Ok api critical m) (hc : critical = true) (ho : c.Outside) :
    calls c.stack = [] := by
  rcases h.alone hc with hnil | ⟨-, f, rest, hstack, -⟩
  · exact hnil
  · exact absurd hstack (ho f rest)

/-! ### The call that runs -/

theorem Core.Ok.writer_call (h : c.Ok api critical m) (hstack : c.stack = .call f :: rest)
    (hw : c.writing = true) : c.readers = 0 ∧ calls rest = [] ∧ api.reads f.job = false := by
  obtain ⟨h0, g, hg, hreads⟩ := h.writer hw
  rw [hstack, calls_call] at hg
  obtain ⟨rfl, hnil⟩ := List.cons.inj hg
  exact ⟨h0, hnil, hreads⟩

theorem Core.Ok.reader_call (h : c.Ok api critical m) (hstack : c.stack = .call f :: rest)
    (hw : c.writing = false) :
    c.readers = (calls rest).length + 1 ∧ api.reads f.job = true ∧
      ∀ g ∈ calls rest, api.reads g.job = true := by
  obtain ⟨hcount, hreads⟩ := h.reader hw
  rw [hstack, calls_call] at hcount hreads
  exact ⟨hcount, hreads f List.mem_cons_self, fun g hg => hreads g (List.mem_cons_of_mem _ hg)⟩

theorem Core.Ok.alone_call (h : c.Ok api critical m) (hstack : c.stack = .call f :: rest)
    (hc : critical = true) : c.masked = true ∧ calls rest = [] := by
  rcases h.alone hc with hnil | ⟨hmasked, g, rest', hcall, hrest⟩
  · rw [hstack, calls_call] at hnil
    simp at hnil
  · rw [hstack] at hcall
    obtain ⟨-, rfl⟩ := List.cons.inj hcall
    exact ⟨hmasked, hrest⟩

theorem Core.Ok.saved_call (h : c.Ok api critical m) (hstack : c.stack = .call f :: rest)
    (hc : critical = true) : f.masked = m ∧ ∀ g ∈ calls rest, g.masked = m := by
  have hsaved := h.saved hc
  rw [hstack, calls_call] at hsaved
  exact ⟨hsaved f List.mem_cons_self, fun g hg => hsaved g (List.mem_cons_of_mem _ hg)⟩

/-! ### What happens -/

theorem Core.Ok.enter (h : c.Ok api critical m) (hm : c.masked = false) :
    ({ c with stack := .handler :: c.stack } : Core E S O φ job ρ).Ok api critical m := by
  refine ⟨h.writer, h.reader, fun hc => ?_, h.saved, h.restored⟩
  -- an interrupt was taken, so there is no critical section
  rcases h.alone hc with hnil | ⟨hmasked, -⟩
  · exact Or.inl hnil
  · rw [hm] at hmasked
    exact absurd hmasked Bool.false_ne_true

theorem Core.Ok.leave (h : c.Ok api critical m) (hstack : c.stack = .handler :: rest) :
    ({ c with stack := rest } : Core E S O φ job ρ).Ok api critical m := by
  have hcalls : calls c.stack = calls rest := by rw [hstack, calls_handler]
  obtain ⟨hwriter, hreader, halone, hsaved, hrestored⟩ := h
  rw [hcalls] at hwriter hreader halone hsaved hrestored
  refine ⟨hwriter, hreader, fun hc => ?_, hsaved, hrestored⟩
  rcases halone hc with hnil | ⟨-, f, rest', hcall, -⟩
  · exact Or.inl hnil
  · rw [hstack] at hcall
    simp at hcall

/-- What is wanted of the interrupts is what holds outside of the calls. -/
theorem Core.Ok.mask (h : c.Ok api critical m) (ho : c.Outside) (b : Bool) :
    ({ c with masked := b } : Core E S O φ job ρ).Ok api critical b := by
  refine ⟨h.writer, h.reader, fun hc => Or.inl (h.calls_nil hc ho), fun hc f hf => ?_,
    fun _ => rfl⟩
  have hnil : calls c.stack = [] := h.calls_nil hc ho
  rw [show calls c.stack = [] from hnil] at hf
  simp at hf

theorem Core.Ok.start {j : job} (h : c.Ok api critical m) (ho : c.Outside)
    (hg : c.Grants (api.reads j)) : (c.start api critical j).Ok api critical m := by
  obtain ⟨hw, hg⟩ := hg
  obtain ⟨hcount, hreads⟩ := h.reader hw
  refine ⟨fun hwrite => ?_, fun hread => ?_, fun hc => ?_, fun hc f hf => ?_, fun hr => ?_⟩
  · -- a writer is only let in when there is no reader, so no call at all
    have hj : api.reads j = false := by simpa [Core.start] using hwrite
    have h0 : c.readers = 0 := hg.resolve_left (by rw [hj]; exact Bool.false_ne_true)
    have hnil : calls c.stack = [] := List.length_eq_zero_iff.mp (hcount.symm.trans h0)
    refine ⟨by simp [Core.start, hj, h0], ⟨j, api.prog j, [], c.masked⟩, ?_, hj⟩
    simp [Core.start, hnil]
  · have hj : api.reads j = true := by simpa [Core.start] using hread
    refine ⟨by simp [Core.start, hj, hcount], fun f hf => ?_⟩
    rcases List.mem_cons.mp hf with rfl | hf
    · exact hj
    · exact hreads f hf
  · exact Or.inr ⟨by simp [Core.start, hc], _, _, rfl, h.calls_nil hc ho⟩
  · rcases List.mem_cons.mp hf with rfl | hf
    · exact h.restored (Or.inr (h.calls_nil hc ho))
    · exact h.saved hc f hf
  · rcases hr with hc | hnil
    · show (critical || c.masked) = m
      rw [hc, Bool.false_or]
      exact h.restored (Or.inl hc)
    · simp [Core.start] at hnil

/-- The same calls, one of them further on. -/
theorem Core.Ok.access (h : c.Ok api critical m) (hstack : c.stack = .call f :: rest) (s : S)
    (p : Prog E φ ρ) (o : List O) : ({ c with
      state := s
      stack := .call { f with rest := p, shown := o } :: rest } : Core E S O φ job ρ).Ok
        api critical m := by
  refine ⟨fun hw => ?_, fun hw => ?_, fun hc => ?_, fun hc g hg => ?_, fun hr => ?_⟩
  · obtain ⟨h0, hnil, hreads⟩ := h.writer_call hstack hw
    exact ⟨h0, _, congrArg (List.cons _) hnil, hreads⟩
  · obtain ⟨hcount, hread, hreads⟩ := h.reader_call hstack hw
    refine ⟨hcount, fun g hg => ?_⟩
    rcases List.mem_cons.mp hg with rfl | hg
    · exact hread
    · exact hreads g hg
  · obtain ⟨hmasked, hnil⟩ := h.alone_call hstack hc
    exact Or.inr ⟨hmasked, _, rest, rfl, hnil⟩
  · obtain ⟨hfirst, hsaved⟩ := h.saved_call hstack hc
    rcases List.mem_cons.mp hg with rfl | hg
    · exact hfirst
    · exact hsaved g hg
  · refine h.restored (hr.imp id fun hnil => ?_)
    simp at hnil

theorem Core.Ok.finish (h : c.Ok api critical m) (hstack : c.stack = .call f :: rest) :
    (c.finish api critical f rest).Ok api critical m := by
  refine ⟨fun hw => ?_, fun _ => ?_, fun hc => ?_, fun hc => ?_, fun _ => ?_⟩
  · simp [Core.finish] at hw
  · cases hw : c.writing with
    | true =>
      obtain ⟨h0, hnil, hreads⟩ := h.writer_call hstack hw
      have hrest : calls (c.finish api critical f rest).stack = [] := hnil
      rw [hrest]
      exact ⟨by simp [Core.finish, hreads, h0], fun g hg => by simp at hg⟩
    | false =>
      obtain ⟨hcount, hread, hreads⟩ := h.reader_call hstack hw
      refine ⟨?_, hreads⟩
      show (if api.reads f.job then c.readers - 1 else c.readers) = (calls rest).length
      rw [if_pos hread, hcount, Nat.add_sub_cancel]
  · exact Or.inl (h.alone_call hstack hc).2
  · exact (h.saved_call hstack hc).2
  · show (if critical && !f.masked then false else c.masked) = m
    cases hc : critical with
    | false => exact h.restored (Or.inl hc)
    | true =>
      -- interrupts were disabled on the way in, and are now as they were then
      rw [(h.saved_call hstack hc).1, (h.alone_call hstack hc).1]
      cases m <;> rfl

theorem Step.ok (h : c.Ok api critical m) (hs : Step api M env critical c l c') :
    c'.Ok api critical (lastMask m [l]) := by
  cases hs with
  | enter hm => exact h.enter hm
  | leave hstack => exact h.leave hstack
  | mask b ho => exact h.mask ho b
  | start ho hg => exact h.start ho hg
  | access hstack hn => exact h.access hstack _ _ _
  | finish hstack hr => exact h.finish hstack
  | event he => exact ⟨h.writer, h.reader, h.alone, h.saved, h.restored⟩

/-- Whatever happens, the cell and the interrupts fit the calls in progress. -/
theorem Trail.ok {s : S} {m₀ : Bool} {ls : List (Label O job ρ ev)}
    (h : Trail (Step api M env critical) (.idle s m₀) ls c) :
    c.Ok api critical (lastMask m₀ ls) := by
  induction h with
  | nil =>
    refine ⟨fun hw => absurd hw Bool.false_ne_true, fun _ => ⟨rfl, fun f hf => ?_⟩,
      fun _ => Or.inl rfl, fun _ f hf => ?_, fun _ => rfl⟩ <;> simp [Core.idle] at hf
  | snoc _ hs ih =>
    have hlast := hs.ok ih
    rw [lastMask, List.foldl_cons, List.foldl_nil] at hlast
    rw [lastMask, List.foldl_append, List.foldl_cons, List.foldl_nil]
    exact hlast

end Ok

/-! ## One after the other -/

/-- What the calls and the environment do, one at a time. -/
inductive Turn (O job ρ ev : Type) where
  | call (j : job) (r : ρ) (o : List O)
  | event (e : ev)

inductive Seq (api : Api E φ job ρ) (M : Machine E S O) (env : ev → S → Option S) (s : S) :
    Turn O job ρ ev → S → Prop where
  | call {j : job} {r : ρ} {s' : S} {o : List O} {n : Nat} :
      exec M n (api.prog j) s = ⟨.ok r, s', o⟩ → Seq api M env s (.call j r o) s'
  | event {e : ev} {s' : S} : env e s = some s' → Seq api M env s (.event e) s'

/-- What can be seen from outside. -/
def Label.turn? : Label O job ρ ev → Option (Turn O job ρ ev)
  | .finish j r o => some (.call j r o)
  | .event e => some (.event e)
  | .enter | .leave | .mask _ | .start _ | .access => none

/-- The environment only acts when no call is in progress. -/
def Quietly (step : Core E S O φ job ρ → Label O job ρ ev → Core E S O φ job ρ → Prop)
    (c : Core E S O φ job ρ) (l : Label O job ρ ev) (c' : Core E S O φ job ρ) : Prop :=
  step c l c' ∧ ∀ e, l = .event e → calls c.stack = []

/-- The calls in progress have led from the state before them to the present. -/
structure Core.After (api : Api E φ job ρ) (M : Machine E S O) (s : S)
    (c : Core E S O φ job ρ) : Prop where
  unwritten : c.writing = false → c.state = s
  leads : ∀ f ∈ calls c.stack, Leads M (api.prog f.job) s f.shown f.rest c.state

section Serial

variable {api : Api E φ job ρ} {M : Machine E S O} {env : ev → S → Option S} {critical m : Bool}
  {c c' : Core E S O φ job ρ} {l : Label O job ρ ev} {s : S} {f : Frame E O φ job ρ}
  {rest : List (Context E O φ job ρ)}

/-- Only what comes after its own access is left of the call. -/
theorem Core.After.access {P : (β : Type) → E β → Prop}
    (hP : ∀ (β : Type) (e : E β) (s : S), P β e → (M.act e s).2.1 = s)
    (hreads : ∀ j, api.reads j = true → (api.prog j).Only P) (hok : c.Ok api critical m)
    (h : c.After api M s) (hstack : c.stack = .call f :: rest) {p : Prog E φ ρ} {t : S} {o : List O}
    (hn : f.rest.next M c.state = some (p, t, o)) :
    ({ c with
      state := t
      stack := .call { f with rest := p, shown := f.shown ++ o } :: rest } :
        Core E S O φ job ρ).After api M s := by
  have hf : f ∈ calls c.stack := by rw [hstack]; exact List.mem_cons_self
  have hnext := (h.leads f hf).next hn
  cases hw : c.writing with
  | true =>
    -- it is the only one
    obtain ⟨-, hnil, -⟩ := hok.writer_call hstack hw
    refine ⟨fun hr => absurd hr (by simp), fun g hg => ?_⟩
    rcases List.mem_cons.mp hg with rfl | hg
    · exact hnext
    · have hg : g ∈ calls rest := hg
      rw [hnil] at hg
      simp at hg
  | false =>
    -- it does not change the state, nor do the others
    have hstate := h.unwritten hw
    obtain ⟨-, hread, -⟩ := hok.reader_call hstack hw
    have ht : t = s := (hnext.only hP (hreads f.job hread)).2
    refine ⟨fun _ => ht, fun g hg => ?_⟩
    rcases List.mem_cons.mp hg with rfl | hg
    · exact hnext
    · have hg : g ∈ calls c.stack := by rw [hstack]; exact List.mem_cons_of_mem _ hg
      have hleads := h.leads g hg
      rw [hstate] at hleads
      show Leads M (api.prog g.job) s g.shown g.rest t
      rw [ht]
      exact hleads

/-- The call that returns was made in the state before the calls in progress;
    those that go on are readers, and might as well start now. -/
theorem Core.After.finish (hok : c.Ok api critical m) (h : c.After api M s)
    (hstack : c.stack = .call f :: rest) {r : ρ} (hr : f.rest = .ret r) :
    (∃ n, exec M n (api.prog f.job) s = ⟨.ok r, c.state, f.shown⟩) ∧
      (c.finish api critical f rest).After api M c.state := by
  have hf : f ∈ calls c.stack := by rw [hstack]; exact List.mem_cons_self
  have hleads := h.leads f hf
  rw [hr] at hleads
  obtain ⟨n, hexec⟩ := hleads.exec_eq (exec_ret M 0 r c.state)
  rw [List.append_nil] at hexec
  refine ⟨⟨n, hexec⟩, fun _ => rfl, fun g hg => ?_⟩
  cases hw : c.writing with
  | true =>
    obtain ⟨-, hnil, -⟩ := hok.writer_call hstack hw
    rw [show calls (c.finish api critical f rest).stack = [] from hnil] at hg
    simp at hg
  | false =>
    have hg' : g ∈ calls c.stack := by rw [hstack]; exact List.mem_cons_of_mem _ hg
    have hlead := h.leads g hg'
    show Leads M (api.prog g.job) c.state g.shown g.rest c.state
    rw [h.unwritten hw] at hlead ⊢
    exact hlead

/-- A step that is not seen belongs to the calls in progress, and one that is
    seen is one of the sequential system. -/
theorem Step.after {P : (β : Type) → E β → Prop}
    (hP : ∀ (β : Type) (e : E β) (s : S), P β e → (M.act e s).2.1 = s)
    (hreads : ∀ j, api.reads j = true → (api.prog j).Only P) (hok : c.Ok api critical m)
    (h : c.After api M s) (hs : Quietly (Step api M env critical) c l c') :
    (l.turn? = none ∧ c'.After api M s) ∨
      ∃ k s', l.turn? = some k ∧ Seq api M env s k s' ∧ c'.After api M s' := by
  obtain ⟨hs, hquiet⟩ := hs
  cases hs with
  | enter => exact Or.inl ⟨rfl, h.unwritten, h.leads⟩
  | @leave rest hstack =>
    refine Or.inl ⟨rfl, h.unwritten, fun f hf => h.leads f ?_⟩
    rw [hstack]
    exact hf
  | mask => exact Or.inl ⟨rfl, h.unwritten, h.leads⟩
  | @start j ho hg =>
    -- a call starts where nothing has been written yet
    have hstate : c.state = s := h.unwritten hg.1
    refine Or.inl ⟨rfl, fun _ => hstate, fun f hf => ?_⟩
    rcases List.mem_cons.mp hf with rfl | hf
    · show Leads M (api.prog j) s [] (api.prog j) c.state
      rw [hstate]
      exact .refl
    · exact h.leads f hf
  | access hstack hn => exact Or.inl ⟨rfl, h.access hP hreads hok hstack hn⟩
  | finish hstack hr =>
    obtain ⟨⟨n, hexec⟩, hafter⟩ := h.finish hok hstack hr
    exact Or.inr ⟨_, c.state, rfl, .call hexec, hafter⟩
  | @event e t he =>
    -- nothing runs, so nothing that was written is unfinished
    have hnil : calls c.stack = [] := hquiet e rfl
    have hw : c.writing = false := by
      by_contra hw
      obtain ⟨-, f, hf, -⟩ := hok.writer (by simpa using hw)
      rw [hnil] at hf
      simp at hf
    rw [h.unwritten hw] at he
    refine Or.inr ⟨_, t, rfl, .event he, fun _ => rfl, fun f hf => ?_⟩
    rw [show calls c.stack = [] from hnil] at hf
    simp at hf

/-- Calls that only read leave the state alone.  Then, whatever is interrupted
    by whatever else, the calls that returned, in the order in which they did,
    are a run of the sequential system, and the calls in progress start where
    it has got to. -/
theorem Trail.serial {P : (β : Type) → E β → Prop}
    (hP : ∀ (β : Type) (e : E β) (s : S), P β e → (M.act e s).2.1 = s)
    (hreads : ∀ j, api.reads j = true → (api.prog j).Only P) {s₀ : S} {m₀ : Bool}
    {ls : List (Label O job ρ ev)}
    (h : Trail (Quietly (Step api M env critical)) (.idle s₀ m₀) ls c) :
    ∃ tr s, Run (Seq api M env) s₀ tr s ∧ marks tr = ls.filterMap Label.turn? ∧
      c.After api M s := by
  induction h with
  | nil =>
    refine ⟨[], s₀, .nil, rfl, fun _ => rfl, fun f hf => ?_⟩
    simp [Core.idle] at hf
  | @snoc ls c c' l hpre hs ih =>
    obtain ⟨tr, s, hrun, hmarks, hafter⟩ := ih
    have hok := Trail.ok (hpre.mono fun h => h.1)
    rw [List.filterMap_append, ← hmarks]
    rcases Step.after hP hreads hok hafter hs with ⟨hnone, hafter'⟩ | ⟨k, s', hk, hseq, hafter'⟩
    · exact ⟨tr, s, hrun, by simp [hnone], hafter'⟩
    · exact ⟨tr ++ [(s, k)], s', hrun.snoc hseq, by rw [marks_snoc]; simp [hk], hafter'⟩

end Serial

/-! ## Finding runs -/

/-- What to try next. -/
inductive Cmd (job ev : Type) where
  | enter
  | leave
  | mask (b : Bool)
  | start (j : job)
  | access
  | finish
  | event (e : ev)

section Perform

variable (api : Api E φ job ρ) (M : Machine E S O) (env : ev → S → Option S) (critical : Bool)

/-- Carry out a command, if that is possible. -/
def perform (c : Core E S O φ job ρ) :
    Cmd job ev → Option (Label O job ρ ev × Core E S O φ job ρ)
  | .enter => if c.masked then none else some (.enter, { c with stack := .handler :: c.stack })
  | .leave =>
    match c.stack with
    | .handler :: rest => some (.leave, { c with stack := rest })
    | _ => none
  | .mask b => if c.Outside then some (.mask b, { c with masked := b }) else none
  | .start j =>
    if c.Outside ∧ c.Grants (api.reads j) then some (.start j, c.start api critical j) else none
  | .access =>
    match c.stack with
    | .call f :: rest => (f.rest.next M c.state).map fun x =>
      (.access, { c with
        state := x.2.1
        stack := .call { f with rest := x.1, shown := f.shown ++ x.2.2 } :: rest })
    | _ => none
  | .finish =>
    match c.stack with
    | .call f :: rest =>
      match f.rest with
      | .ret r => some (.finish f.job r f.shown, c.finish api critical f rest)
      | _ => none
    | _ => none
  | .event e =>
    if (calls c.stack).isEmpty then
      (env e c.state).map fun s => (.event e, { c with state := s })
    else none

/-- Carry out commands in order. -/
def performAll (c : Core E S O φ job ρ) :
    List (Cmd job ev) → Option (List (Label O job ρ ev) × Core E S O φ job ρ)
  | [] => some ([], c)
  | k :: ks => do
    let (l, c₁) ← perform api M env critical c k
    let (ls, c₂) ← performAll c₁ ks
    return (l :: ls, c₂)

variable {api M env critical} {c c' : Core E S O φ job ρ} {l : Label O job ρ ev}

theorem perform_sound {k : Cmd job ev} (h : perform api M env critical c k = some (l, c')) :
    Quietly (Step api M env critical) c l c' := by
  -- only an event has a condition beside the step
  have hsilent : ∀ {l : Label O job ρ ev} {c' : Core E S O φ job ρ},
      l.turn? = none ∨ (∃ j r o, l = .finish j r o) → Step api M env critical c l c' →
      Quietly (Step api M env critical) c l c' := by
    intro l c' hl hs
    refine ⟨hs, fun e he => ?_⟩
    subst he
    rcases hl with hl | ⟨j, r, o, hl⟩ <;> simp [Label.turn?] at hl
  cases k with
  | enter =>
    have h : (if c.masked then none else some (_, _)) = some (l, c') := h
    split at h
    · simp at h
    · rename_i hm
      obtain ⟨rfl, rfl⟩ := Prod.mk.inj (Option.some.inj h)
      exact hsilent (Or.inl rfl) (.enter (by simpa using hm))
  | leave =>
    rw [perform] at h
    split at h
    · rename_i rest hstack
      obtain ⟨rfl, rfl⟩ := Prod.mk.inj (Option.some.inj h)
      exact hsilent (Or.inl rfl) (.leave hstack)
    · simp at h
  | mask b =>
    rw [perform] at h
    split at h
    · rename_i ho
      obtain ⟨rfl, rfl⟩ := Prod.mk.inj (Option.some.inj h)
      exact hsilent (Or.inl rfl) (.mask b ho)
    · simp at h
  | start j =>
    rw [perform] at h
    split at h
    · rename_i hs
      obtain ⟨rfl, rfl⟩ := Prod.mk.inj (Option.some.inj h)
      exact hsilent (Or.inl rfl) (.start hs.1 hs.2)
    · simp at h
  | access =>
    rw [perform] at h
    split at h
    · rename_i f rest hstack
      obtain ⟨⟨p, s, o⟩, hn, hx⟩ := Option.map_eq_some_iff.mp h
      obtain ⟨rfl, rfl⟩ := Prod.mk.inj hx
      exact hsilent (Or.inl rfl) (.access hstack hn)
    · simp at h
  | finish =>
    rw [perform] at h
    split at h
    · rename_i f rest hstack
      split at h
      · rename_i r hr
        obtain ⟨rfl, rfl⟩ := Prod.mk.inj (Option.some.inj h)
        exact hsilent (Or.inr ⟨_, _, _, rfl⟩) (.finish hstack hr)
      · simp at h
    · simp at h
  | event e =>
    rw [perform] at h
    split at h
    · rename_i hnil
      obtain ⟨s, hs, hx⟩ := Option.map_eq_some_iff.mp h
      obtain ⟨rfl, rfl⟩ := Prod.mk.inj hx
      exact ⟨.event hs, fun _ _ => List.isEmpty_iff.mp hnil⟩
    · simp at h

theorem performAll_sound {c₀ : Core E S O φ job ρ} {ks : List (Cmd job ev)}
    {pre ls : List (Label O job ρ ev)}
    (hpre : Trail (Quietly (Step api M env critical)) c₀ pre c)
    (h : performAll api M env critical c ks = some (ls, c')) :
    Trail (Quietly (Step api M env critical)) c₀ (pre ++ ls) c' := by
  induction ks generalizing c pre ls with
  | nil =>
    obtain ⟨rfl, rfl⟩ := Prod.mk.inj (Option.some.inj h)
    rw [List.append_nil]
    exact hpre
  | cons k ks ih =>
    rw [performAll] at h
    obtain ⟨⟨l, c₁⟩, hk, h⟩ := Option.bind_eq_some_iff.mp h
    obtain ⟨⟨ls₁, c₂⟩, hks, h⟩ := Option.bind_eq_some_iff.mp h
    obtain ⟨rfl, rfl⟩ := Prod.mk.inj (Option.some.inj h)
    have hrest := ih (hpre.snoc (perform_sound hk)) hks
    rwa [List.append_assoc] at hrest

/-- A run with a decidable property. -/
theorem exists_performed {p : List (Label O job ρ ev) → Core E S O φ job ρ → Prop}
    [∀ ls c, Decidable (p ls c)] (c : Core E S O φ job ρ) (ks : List (Cmd job ev))
    (h : ((performAll api M env critical c ks).any fun x => decide (p x.1 x.2)) = true) :
    ∃ ls c', Trail (Quietly (Step api M env critical)) c ls c' ∧ p ls c' := by
  obtain ⟨⟨ls, c'⟩, hx, hdec⟩ := (Option.any_eq_true _ _).mp h
  exact ⟨ls, c', performAll_sound .nil hx, of_decide_eq_true hdec⟩

end Perform

end Preempt

end Lib
