import CCNx.Core.Connect

/-!
# Does a rejected close change nothing?

`CloseWithStatus` checks its reason after it has closed the transport and let go of it and of the
stream: a success is refused with `NS_ERROR_INVALID_ARG`, and the stream, still open by its status,
has lost what it reads from (`rejected_tornDown`). `rejected_iff`: nothing changes exactly if there
is no transport to lose.
-/

set_option autoImplicit false

namespace Core

open Xpcom Runs Transport

variable {c : NsCCNxCore} {reason : NsResult} {env : Env} {s s' : Sys} {a : Act}

/-- The call has left the core as it was, and the transport open. -/
structure Unchanged (c : NsCCNxCore) (out : NsCCNxCore.Out) : Prop where
  transport : out.core.mDataTransport = c.mDataTransport
  stream : out.core.mDataStream = c.mDataStream
  state : out.core.mState = c.mState
  status : out.core.mStatus = c.mStatus
  callback : out.core.mCallback = c.mCallback
  target : out.core.mCallbackTarget = c.mCallbackTarget
  notClosed : out.closed = none
  /-- A pending callback can still be triggered, and reading continues. -/
  triggered : out.core.onInputStreamReady.dispatch = c.onInputStreamReady.dispatch
  reading : ∀ data, out.core.readSegments data = c.readSegments data ∧
    out.core.available data = c.available data

/-- If `CloseWithStatus` returns a failure, it has changed nothing. -/
def RejectedUnchanged (c : NsCCNxCore) (reason : NsResult) (env : Env) : Prop :=
  nsFailed (c.closeWithStatus reason env).rv = true → Unchanged c (c.closeWithStatus reason env)

/-- The call is not refused, or finds no transport. -/
def NothingToLose (c : NsCCNxCore) (reason : NsResult) : Prop :=
  c.isClosed = true ∨ nsFailed reason = true ∨ c.mDataTransport = none

instance : Decidable (NothingToLose c reason) :=
  inferInstanceAs (Decidable (_ ∨ _ ∨ _ = none))

/-! ## The stream comes with its transport -/

/-- There is a stream only together with a transport. -/
def StreamBacked (c : NsCCNxCore) : Prop := c.mDataTransport = none → c.mDataStream = none

theorem StreamBacked.connect (hB : StreamBacked c) (env : Env) :
    StreamBacked (c.connect env).2 := by
  rw [NsCCNxCore.connect_eq]
  split
  · exact hB
  · dsimp only
    split <;> exact nofun

theorem StreamBacked.asyncWait (hB : StreamBacked c) (callback : Option Callback)
    (target : Option Target) (env : Env) : StreamBacked (c.asyncWait callback target env).core := by
  rcases c.asyncWait_cases callback target env with ⟨-, -, htr, hst⟩ | ⟨cb, rfl, -, -, he⟩
  · intro hnone
    exact hst.trans (hB (htr.symm.trans hnone))
  · have hreg : StreamBacked (c.registered cb target) := hB
    rw [he]
    exact hreg.connect env

theorem StreamBacked.next (hB : StreamBacked s.core) (h : step s a = some s') :
    StreamBacked s'.core := by
  have hready : StreamBacked s.core.onInputStreamReady.core := by
    obtain ⟨-, htr, hst⟩ := s.core.onInputStreamReady_connection
    intro hnone
    exact hst.trans (hB (htr.symm.trans hnone))
  apply step_keeps hB hB.asyncWait hready _ _ h
  · exact fun reason env _ => (s.core.closeWithStatus_connection reason env).2.2
  · exact fun w hnone => hB (Option.map_eq_none_iff.1 hnone)

/-! ## The refusal -/

/-- By the time of the refusal the connection has been torn down. -/
theorem closeWithStatus_refused (hc : c.isClosed = false) (hr : nsFailed reason = false) :
    c.closeWithStatus reason env =
      { rv := nsErrorInvalidArg, core := c.letGo
        closed := c.mDataTransport.map fun w => { w with tr := w.tr.close nsErrorAbort } } := by
  simp only [NsCCNxCore.isClosed] at hc
  simp only [NsCCNxCore.closeWithStatus, NsCCNxCore.isClosed, nsSucceeded, hc, hr, Bool.not_false,
    Bool.false_eq_true, ↓reduceIte, NsCCNxCore.letGo]

/-- `CloseWithStatus` returns a failure exactly if an open stream is given a success. -/
theorem closeWithStatus_rv :
    nsFailed (c.closeWithStatus reason env).rv = true ↔
      c.isClosed = false ∧ nsFailed reason = false := by
  cases hc : c.isClosed with
  | true =>
    have hc' : nsFailed c.mStatus = true := hc
    simp [NsCCNxCore.closeWithStatus, NsCCNxCore.isClosed, hc']
  | false =>
    cases hr : nsFailed reason with
    | true =>
      have hc' : nsFailed c.mStatus = false := hc
      simp [NsCCNxCore.closeWithStatus, NsCCNxCore.isClosed, nsSucceeded, hc', hr]
    | false =>
      rw [closeWithStatus_refused hc hr]
      exact iff_of_true (show nsFailed nsErrorInvalidArg = true by decide) ⟨rfl, rfl⟩

/-- Without a transport there is nothing to let go of. -/
theorem letGo_self (hB : StreamBacked c) (hnone : c.mDataTransport = none) : c.letGo = c := by
  have hst := hB hnone
  cases c
  cases hnone
  cases hst
  rfl

theorem StreamBacked.rejected_iff_nothing (hB : StreamBacked c) :
    RejectedUnchanged c reason env ↔ NothingToLose c reason := by
  rw [RejectedUnchanged, closeWithStatus_rv]
  cases hc : c.isClosed with
  | true => exact iff_of_true nofun (.inl hc)
  | false =>
    cases hr : nsFailed reason with
    | true => exact iff_of_true (fun hf => nomatch hf.2) (.inr (.inl hr))
    | false =>
      rw [closeWithStatus_refused hc hr, NothingToLose, hc, hr]
      constructor
      · intro hU
        exact .inr (.inr (hU ⟨rfl, rfl⟩).transport.symm)
      · rintro (hf | hf | hnone) -
        · cases hf
        · cases hf
        · rw [letGo_self hB hnone]
          have hclosed : c.mDataTransport.map
              (fun w => { w with tr := w.tr.close nsErrorAbort }) = none := by
            rw [hnone]
            rfl
          exact ⟨rfl, rfl, rfl, rfl, rfl, rfl, hclosed, rfl, fun _ => ⟨rfl, rfl⟩⟩

/-- In every state that a run reaches, and for every reason: a `CloseWithStatus` that returns a
failure changes nothing if and only if it finds no transport. -/
theorem rejected_iff (interest : String) (acts : List Act) (s : Sys) (reason : NsResult)
    (env : Env) (h : run step (start interest) acts = some s) :
    RejectedUnchanged s.core reason env ↔ NothingToLose s.core reason := by
  have hstart : StreamBacked (start interest).core := fun _ => rfl
  have hB : StreamBacked s.core :=
    run_inv (I := fun s => StreamBacked s.core) (fun _ _ _ => StreamBacked.next) hstart h
  exact hB.rejected_iff_nothing

/-- The connection could not be made, and a callback waits. -/
theorem refused_unconnected :
    ∃ s, run step (start "/a") [.asyncWait (some 1) (some 0) { init := { connect := -1 } }] =
        some s ∧ RejectedUnchanged s.core nsOk {} :=
  ⟨_, rfl, (rejected_iff "/a" [.asyncWait (some 1) (some 0) { init := { connect := -1 } }] _ nsOk {}
    rfl).2 (by decide)⟩

/-- On a connected stream with a callback waiting. -/
theorem rejected_tornDown :
    ¬ ∀ (interest : String) (acts : List Act) (s : Sys) (reason : NsResult) (env : Env),
        run step (start interest) acts = some s → RejectedUnchanged s.core reason env := by
  intro hP
  have hU := hP "/a" [.asyncWait (some 1) (some 0) {}] _ nsOk {} rfl (by decide)
  exact absurd hU.stream (by decide)

end Core
