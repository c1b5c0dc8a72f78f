import CCNx.Core.WakeUp

/-!
# Closed means closed

`Connect` hides behind `AsyncWait`, and `CloseWithStatus` lets go of the connection before it looks
at its reason. `Latch` says what the first close with a failure has fixed; every method keeps it
(`Latch.next`), so that over any run the first reason stands, nothing revives the stream, and the
transport is created once at most (`closed_ok`).
-/

set_option autoImplicit false

namespace Core

open Xpcom Runs Transport

variable {c : NsCCNxCore} {env : Env} {s s' : Sys} {a : Act} {first : Option NsResult}

/-- The step executes `CreateTransport`: an `AsyncWait` with a callback, on an open stream, that
`OnCallbackPending` finds in `CCNX_INIT`. -/
def Creates (s : Sys) : Act → Prop
  | .asyncWait (some _) _ _ => s.core.isClosed = false ∧ s.core.mState = .init
  | _ => False

instance (s : Sys) : DecidablePred (Creates s) := fun a =>
  match a with
  | .asyncWait (some _) _ _ => inferInstanceAs (Decidable (_ ∧ _))
  | .asyncWait none _ _ | .onInputStreamReady _ | .available _ | .readSegments _ | .close _
  | .closeWithStatus _ _ | .transport _ => inferInstanceAs (Decidable False)

/-- The failure that a step hands to `CloseWithStatus`. -/
def Act.closeReason? : Act → Option NsResult
  | .closeWithStatus reason _ => if nsFailed reason then some reason else none
  | .close _ => some nsBaseStreamClosed
  | _ => none

/-- The reason of the first `CloseWithStatus` that was given a failure. -/
def firstClose (acts : List Act) : Option NsResult := acts.findSome? Act.closeReason?

/-- What a run has to show at its last state. -/
structure ClosedOk (interest : String) (acts : List Act) (s : Sys) : Prop where
  once : countSteps step Creates (start interest) acts ≤ 1
  /-- No transport is created on a closed stream. -/
  unclosed : ∀ pre a post s', acts = pre ++ a :: post → run step (start interest) pre = some s' →
    Creates s' a → firstClose pre = none
  stream : s.core.mDataStream ≠ none →
    s.core.mState = .connect ∧ s.core.mDataTransport ≠ none ∧ nsSucceeded s.core.mStatus = true
  closed : ∀ reason, firstClose acts = some reason →
    s.core.mDataTransport = none ∧ s.core.mDataStream = none ∧ s.core.mCallback = none ∧
      s.core.mStatus = reason ∧
      ∀ data, s.core.readSegments data = (if reason = nsBaseStreamClosed then nsOk else reason, 0)

/-! ## The invariant -/

/-- `first` is the reason of the first close with a failure so far. -/
structure Latch (first : Option NsResult) (c : NsCCNxCore) : Prop where
  status : c.mStatus = first.getD nsOk
  failure : ∀ reason, first = some reason → nsFailed reason = true
  stream : c.mDataStream ≠ none → c.mState = .connect ∧ c.mDataTransport ≠ none
  closed : first ≠ none →
    c.mDataTransport = none ∧ c.mDataStream = none ∧ c.mCallback = none

theorem Latch.isClosed (hL : Latch first c) : c.isClosed = first.isSome := by
  rw [NsCCNxCore.isClosed, hL.status]
  cases first with
  | none => rfl
  | some reason => exact hL.failure reason rfl

theorem Latch.none_of_open (hL : Latch first c) (hc : c.isClosed = false) : first = none := by
  rw [hL.isClosed] at hc
  simpa using hc

/-- Taking callbacks away keeps the latch. -/
theorem Latch.uncalled (hL : Latch first c) (target : Option Target) :
    Latch first { c with mCallback := none, mCallbackTarget := target } :=
  ⟨hL.status, hL.failure, hL.stream, fun hf => ⟨(hL.closed hf).1, (hL.closed hf).2.1, rfl⟩⟩

/-- Letting go of the connection keeps the latch. -/
theorem Latch.letGo (hL : Latch first c) : Latch first c.letGo :=
  ⟨hL.status, hL.failure, fun hs => absurd rfl hs, fun hf => ⟨rfl, rfl, (hL.closed hf).2.2⟩⟩

/-- `Connect` brings a stream only together with its transport and `CCNX_CONNECT`. -/
theorem connect_stream (hs : (c.connect env).2.mDataStream ≠ none) (hc : c.mDataStream = none) :
    (c.connect env).1 = .connect ∧ (c.connect env).2.mDataTransport ≠ none := by
  revert hs
  rw [NsCCNxCore.connect_eq]
  split
  · exact fun hs => absurd hc hs
  · dsimp only
    split
    · exact fun hs => absurd hc hs
    · exact fun _ => ⟨rfl, nofun⟩

/-- On an open core a callback may be registered and the connection made. -/
theorem Latch.pending (hL : Latch none c) (cb : Callback) (target : Option Target) (env : Env) :
    Latch none ((c.registered cb target).onCallbackPending env).2 := by
  obtain ⟨-, hst⟩ := onCallbackPending_keeps (c.registered cb target) env
  refine ⟨hst.trans hL.status, nofun, ?_, fun hf => absurd rfl hf⟩
  rw [NsCCNxCore.onCallbackPending_core]
  split
  · rename_i hinit
    -- without a connection so far there is no stream either
    have hnone : c.mDataStream = none := by
      apply Classical.byContradiction
      intro hs
      have := (hL.stream hs).1.symm.trans hinit
      cases this
    exact fun hs => connect_stream hs hnone
  · exact hL.stream

/-- The first close with a failure sets the latch. -/
theorem Latch.close (hL : Latch none c) {reason : NsResult} (hr : nsFailed reason = true)
    (he : env.event = true) : Latch (some reason) (c.closeWithStatus reason env).core := by
  have hc : c.isClosed = false := hL.isClosed
  rw [NsCCNxCore.closeWithStatus_open hc hr]
  have hclear := NsCCNxCore.dispatchCallback_clears (c := { c.letGo with mStatus := reason }) true
    fun _ => he
  rcases NsCCNxCore.dispatchCallback_core (c := { c.letGo with mStatus := reason }) true env.event
    with heq | heq <;>
  · rw [heq] at hclear ⊢
    refine ⟨rfl, fun r hr' => ?_, fun hs => absurd rfl hs, fun _ => ⟨rfl, rfl, hclear⟩⟩
    cases hr'
    exact hr

theorem Latch.closeWithStatus (hL : Latch first c) (reason : NsResult) (he : env.event = true) :
    Latch (first.or (if nsFailed reason then some reason else none))
      (c.closeWithStatus reason env).core := by
  cases hr : nsFailed reason with
  | false =>
    rw [NsCCNxCore.closeWithStatus_rejected hr]
    simpa using hL.letGo
  | true =>
    cases first with
    | none => exact hL.close hr he
    | some r =>
      rw [NsCCNxCore.closeWithStatus_closed _ hL.isClosed]
      exact hL.letGo

theorem Latch.asyncWait (hL : Latch first c) (callback : Option Callback)
    (target : Option Target) (he : env.event = true) :
    Latch first (c.asyncWait callback target env).core := by
  cases callback with
  | none => exact hL.uncalled target
  | some cb =>
    cases hc : c.isClosed with
    | true =>
      rw [NsCCNxCore.asyncWait_dispatched cb target hc he]
      exact hL.uncalled none
    | false =>
      rw [NsCCNxCore.asyncWait_open _ _ hc]
      cases hL.none_of_open hc
      exact hL.pending cb target env

theorem Latch.onInputStreamReady (hL : Latch first c) : Latch first c.onInputStreamReady.core := by
  rcases NsCCNxCore.onInputStreamReady_core (c := c).2 with heq | heq <;> rw [heq]
  · exact hL
  · exact hL.uncalled none

theorem Latch.threads (hL : Latch first c) (w : World) :
    Latch first { c with mDataTransport := c.mDataTransport.map fun _ => w } := by
  refine ⟨hL.status, hL.failure, fun hs => ?_, fun hf => ?_⟩
  · obtain ⟨hst, htr⟩ := hL.stream hs
    exact ⟨hst, by simpa using htr⟩
  · obtain ⟨htr, hs, hcb⟩ := hL.closed hf
    exact ⟨by simp [htr], hs, hcb⟩

/-- A step that closes nothing adds nothing to the latch. -/
theorem Latch.same (hL : Latch first c) (ha : a.closeReason? = none) :
    Latch (first.or a.closeReason?) c := by
  rw [ha, Option.or_none]
  exact hL

/-- Every step keeps the latch, and sets it at the first close with a failure. -/
theorem Latch.next (hL : Latch first s.core) (he : a.eventCreated) (h : step s a = some s') :
    Latch (first.or a.closeReason?) s'.core := by
  cases a with
  | asyncWait callback target env =>
    cases h
    exact Latch.same (hL.asyncWait callback target (he env rfl)) rfl
  | onInputStreamReady wait =>
    rw [(step_onInputStreamReady h).1]
    exact hL.onInputStreamReady.same rfl
  | available data => cases h; exact hL.same rfl
  | readSegments data => cases h; exact hL.same rfl
  | transport w =>
    cases h
    exact (hL.threads w).same rfl
  | close env =>
    cases h
    show Latch (first.or (some nsBaseStreamClosed)) (s.core.close env).core
    unfold NsCCNxCore.close
    cases hc : s.core.isClosed with
    | true =>
      obtain ⟨reason, rfl⟩ := Option.isSome_iff_exists.1 (hL.isClosed ▸ hc)
      exact hL
    | false =>
      have := hL.closeWithStatus nsBaseStreamClosed (he env rfl)
      simpa using this
  | closeWithStatus reason env =>
    cases h
    exact hL.closeWithStatus reason (he env rfl)

/-- Over a run the latch stands at the first reason. -/
theorem Latch.run (hL : Latch first s.core) {acts : List Act} (he : ∀ a ∈ acts, a.eventCreated)
    (h : Runs.run step s acts = some s') : Latch (first.or (firstClose acts)) s'.core := by
  induction acts generalizing s first with
  | nil => cases h; simpa [firstClose] using hL
  | cons a acts ih =>
    obtain ⟨s₁, h₁, hrest⟩ := run_cons_some h
    have hL₁ := hL.next (he a List.mem_cons_self) h₁
    have hL' := ih hL₁ (fun b hb => he b (List.mem_cons_of_mem _ hb)) hrest
    have hfirst : firstClose (a :: acts) = a.closeReason?.or (firstClose acts) := by
      unfold firstClose
      rw [List.findSome?_cons]
      cases a.closeReason? <;> rfl
    rw [hfirst, ← Option.or_assoc]
    exact hL'

theorem latch_start (interest : String) : Latch none (start interest).core :=
  ⟨rfl, nofun, fun hs => absurd rfl hs, fun hf => absurd rfl hf⟩

/-! ## One transport -/

/-- `CreateTransport` takes the state away from `CCNX_INIT`; nothing else changes the state. -/
theorem step_mState (h : step s a = some s') :
    (Creates s a ∧ s'.core.mState ≠ .init) ∨
      (¬ Creates s a ∧ s'.core.mState = s.core.mState) := by
  cases a with
  | asyncWait callback target env =>
    cases h
    rcases s.core.asyncWait_cases callback target env with
      ⟨hno, hst, -⟩ | ⟨cb, rfl, hc, hinit, he⟩
    · refine .inr ⟨fun hC => ?_, hst⟩
      cases callback with
      | none => cases hC
      | some cb =>
        rcases hno with hno | hno | hno
        · cases hno
        · exact Bool.false_ne_true (hC.1.symm.trans hno)
        · exact hno hC.2
    · refine .inl ⟨⟨hc, hinit⟩, ?_⟩
      show (s.core.asyncWait (some cb) target env).core.mState ≠ .init
      rw [he]
      rcases (s.core.registered cb target).connect_state env with hst | hst <;> simp [hst]
  | onInputStreamReady wait =>
    refine .inr ⟨id, ?_⟩
    rw [(step_onInputStreamReady h).1]
    exact (s.core.onInputStreamReady_connection).1
  | available data => cases h; exact .inr ⟨id, rfl⟩
  | readSegments data => cases h; exact .inr ⟨id, rfl⟩
  | transport w => cases h; exact .inr ⟨id, rfl⟩
  | close env =>
    cases h
    refine .inr ⟨id, ?_⟩
    show (s.core.close env).core.mState = _
    unfold NsCCNxCore.close
    split
    · rfl
    · exact (s.core.closeWithStatus_connection _ _).1
  | closeWithStatus reason env =>
    cases h
    exact .inr ⟨id, (s.core.closeWithStatus_connection reason env).1⟩

/-- The transport of a core is created once at most. -/
theorem creates_once (s : Sys) (acts : List Act) : countSteps step Creates s acts ≤ 1 := by
  have hle : countSteps step Creates s acts ≤ if s.core.mState = .init then 1 else 0 :=
    countSteps_le (P := fun s => s.core.mState = .init)
      (fun s a hC => ?_) (fun s a s' h hC => ?_) (fun s a s' h hgone => ?_) s acts
  · split at hle <;> omega
  · cases a with
    | asyncWait callback target env =>
      cases callback with
      | none => cases hC
      | some cb => exact hC.2
    | _ => cases hC
  · rcases step_mState h with ⟨-, hst⟩ | ⟨hno, -⟩
    · exact hst
    · exact absurd hC hno
  · rcases step_mState h with ⟨-, hst⟩ | ⟨-, hst⟩
    · exact hst
    · exact fun hi => hgone (hst.symm.trans hi)

theorem Creates.isOpen (hC : Creates s a) : s.core.isClosed = false := by
  cases a with
  | asyncWait callback target env =>
    cases callback with
    | none => cases hC
    | some cb => exact hC.1
  | _ => cases hC

/-! ## Over runs -/

/-- In every run in which creating the ready event succeeds, closed means closed. -/
theorem closed_ok (interest : String) (acts : List Act) (s : Sys)
    (h : run step (start interest) acts = some s) (he : ∀ a ∈ acts, a.eventCreated) :
    ClosedOk interest acts s := by
  have hL : Latch (firstClose acts) s.core := (latch_start interest).run he h
  refine ⟨creates_once _ _, ?_, fun hs => ?_, fun reason hfirst => ?_⟩
  · rintro pre a post s₁ rfl h₁ hC
    have hL₁ : Latch (firstClose pre) s₁.core :=
      (latch_start interest).run (fun b hb => he b (List.mem_append_left _ hb)) h₁
    exact hL₁.none_of_open hC.isOpen
  · obtain ⟨hst, htr⟩ := hL.stream hs
    refine ⟨hst, htr, ?_⟩
    have hnone : firstClose acts = none := by
      apply Classical.byContradiction
      exact fun hf => hs (hL.closed hf).2.1
    rw [hL.status, hnone]
    rfl
  · obtain ⟨htr, hs, hcb⟩ := hL.closed (by simp [hfirst])
    have hstatus : s.core.mStatus = reason := by rw [hL.status, hfirst]; rfl
    refine ⟨htr, hs, hcb, hstatus, fun data => ?_⟩
    unfold NsCCNxCore.readSegments NsCCNxCore.isClosed
    simp only [hs, hstatus, hL.failure reason hfirst, Option.isSome_none, Bool.not_true,
      Bool.false_and, Bool.false_eq_true, ↓reduceIte]
    split <;> rfl

/-- A load that is closed twice, with a wait after each close. -/
def closedTwice : List Act :=
  [.asyncWait (some 1) (some 0) {}, .closeWithStatus nsErrorAbort {}, .asyncWait (some 1) none {},
    .close {}, .asyncWait (some 2) (some 0) {}]

theorem closedTwice_ok :
    ∃ s, run step (start "/a") closedTwice = some s ∧ ClosedOk "/a" closedTwice s :=
  ⟨_, rfl, closed_ok "/a" closedTwice _ rfl (by decide)⟩

end Core
