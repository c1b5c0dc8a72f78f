import CCNx.Core.System

/-!
# The content stream as its clients see it

An abstract content stream is in one of five stages and has at most one pending registration.
`session_trace`: in every run, what the callers, the pump and `mDataStream` see of an `nsCCNxCore`
is what they would see of that one. `stream_iff`: so data can be read exactly from the first
`AsyncWait`, if the connection is made there, to the first close, even one that is refused.
-/

set_option autoImplicit false

namespace Core

open Xpcom Runs Transport

/-- The steps of connecting whose failure `Connect` reports succeed. -/
def Connects (env : Env) (interest : String) : Prop :=
  ¬ (env.init.connect < 0 ∨ env.init.nameFromUri interest < 0) ∧
    nsFailed env.openInput.newPipe2.1 = false

instance (env : Env) (interest : String) : Decidable (Connects env interest) :=
  inferInstanceAs (Decidable (_ ∧ _))

/-! ## The abstract stream -/

inductive Stage
  | fresh
  | live
  /-- The connection could not be made. -/
  | broken
  /-- Open, with the connection lost to a close that was refused. -/
  | torn
  | ended (reason : NsResult)
  deriving DecidableEq, Repr

def Stage.isEnded : Stage → Bool
  | .ended _ => true
  | _ => false

structure Session where
  stage : Stage := .fresh
  pending : Option (Callback × Option Target) := none
  deriving DecidableEq, Repr

/-- What a call gives its caller, whom it calls back or has called back, and whether it asks
`mDataStream` to wait. -/
structure Seen where
  rv : NsResult := nsOk
  count : Nat := 0
  dispatch : Option Dispatch := none
  asks : Bool := false
  deriving DecidableEq, Repr

namespace Session

/-- The stage after an `AsyncWait` with a callback. -/
def waited (interest : String) (env : Env) : Stage → Stage
  | .fresh => if Connects env interest then .live else .broken
  | st => st

/-- The stage after a refused close. -/
def refused : Stage → Stage
  | .live => .torn
  | st => st

def closed (σ : Session) (reason : NsResult) (env : Env) : Session :=
  if σ.stage.isEnded then σ
  else if nsFailed reason then
    { stage := .ended reason, pending := if env.event then none else σ.pending }
  else { σ with stage := refused σ.stage }

def next (interest : String) (σ : Session) : Act → Session
  | .asyncWait none _ _ => { σ with pending := none }
  | .asyncWait (some cb) target env =>
    if σ.stage.isEnded then { σ with pending := if env.event then none else some (cb, target) }
    else { stage := waited interest env σ.stage, pending := some (cb, target) }
  | .onInputStreamReady _ => { σ with pending := none }
  | .available _ | .readSegments _ | .transport _ => σ
  | .close env => σ.closed nsBaseStreamClosed env
  | .closeWithStatus reason env => σ.closed reason env

def seeClosed (σ : Session) (reason : NsResult) (env : Env) : Seen :=
  if σ.stage.isEnded then {}
  else if nsFailed reason then
    { dispatch := if env.event then σ.pending.map fun p => .posted p.1 p.2 else none }
  else { rv := nsErrorInvalidArg }

def see (interest : String) (σ : Session) : Act → Seen
  | .asyncWait none _ _ => {}
  | .asyncWait (some cb) target env =>
    if σ.stage.isEnded then { dispatch := if env.event then some (.posted cb target) else none }
    else { asks := waited interest env σ.stage == .live }
  | .onInputStreamReady _ => { dispatch := σ.pending.map fun p => .called p.1 }
  | .available data =>
    match σ.stage with
    | .live => { rv := data.1, count := data.2 }
    | .ended reason => { rv := reason }
    | _ => {}
  | .readSegments data =>
    match σ.stage with
    | .live => { rv := data.1, count := data.2 }
    | .ended reason => { rv := if reason = nsBaseStreamClosed then nsOk else reason }
    | _ => { rv := nsBaseStreamWouldBlock }
  | .close env => σ.seeClosed nsBaseStreamClosed env
  | .closeWithStatus reason env => σ.seeClosed reason env
  | .transport _ => {}

/-- What is seen of the abstract stream in a run. -/
def trace (interest : String) : Session → List Act → List Seen
  | _, [] => []
  | σ, a :: acts => σ.see interest a :: trace interest (σ.next interest a) acts

end Session

/-! ## The core -/

def NsCCNxCore.Out.seen (out : NsCCNxCore.Out) : Seen :=
  { rv := out.rv, dispatch := out.dispatch, asks := out.wait.isSome }

/-- What is seen of the core. -/
def NsCCNxCore.see (c : NsCCNxCore) : Act → Seen
  | .asyncWait callback target env => (c.asyncWait callback target env).seen
  | .onInputStreamReady _ => c.onInputStreamReady.seen
  | .available data => { rv := (c.available data).1, count := (c.available data).2 }
  | .readSegments data => { rv := (c.readSegments data).1, count := (c.readSegments data).2 }
  | .close env => (c.close env).seen
  | .closeWithStatus reason env => (c.closeWithStatus reason env).seen
  | .transport _ => {}

/-- The members in each stage. -/
def StageIs (status : NsResult) (state : CcnxState) (stream : Option Opened) : Stage → Prop
  | .fresh => status = nsOk ∧ state = .init ∧ stream = none
  | .live => status = nsOk ∧ state = .connect ∧ stream.isSome = true
  | .broken => status = nsOk ∧ state = .error ∧ stream = none
  | .torn => status = nsOk ∧ state = .connect ∧ stream = none
  | .ended reason => status = reason ∧ nsFailed reason = true ∧ stream = none

/-- The core is the abstract stream. -/
structure Models (interest : String) (σ : Session) (c : NsCCNxCore) : Prop where
  name : c.mInterest = interest
  nonBlocking : c.mNonBlocking = true
  stage : StageIs c.mStatus c.mState c.mDataStream σ.stage
  pending : c.mCallback.map (fun cb => (cb, c.mCallbackTarget)) = σ.pending

section
variable {interest : String} {σ : Session} {c : NsCCNxCore} {env : Env}

theorem Models.isClosed (hM : Models interest σ c) : c.isClosed = σ.stage.isEnded := by
  have hs := hM.stage
  unfold NsCCNxCore.isClosed
  cases hst : σ.stage with
  | ended reason =>
    rw [hst] at hs
    obtain ⟨hstatus, hf, -⟩ := hs
    rw [hstatus, hf]
    rfl
  | _ =>
    rw [hst] at hs
    rw [hs.1]
    rfl

theorem Models.status (hM : Models interest σ c) (ho : σ.stage.isEnded = false) :
    c.mStatus = nsOk := by
  have hs := hM.stage
  cases hst : σ.stage with
  | ended reason => rw [hst] at ho; cases ho
  | _ => rw [hst] at hs; exact hs.1

/-! ## Each method is the abstract one -/

/-- The connection that `OnCallbackPending` makes on a fresh core. -/
theorem onCallbackPending_fresh (hi : c.mState = .init) (hs : c.mDataStream = none) (env : Env) :
    ∃ transport stream, (c.onCallbackPending env).2 =
        { c with
          mDataTransport := transport
          mDataStream := stream
          mState := if Connects env c.mInterest then .connect else .error } ∧
      stream.isSome = decide (Connects env c.mInterest) := by
  rw [NsCCNxCore.onCallbackPending_core, if_pos hi, NsCCNxCore.connect_eq]
  by_cases hfail : env.init.connect < 0 ∨ env.init.nameFromUri c.mInterest < 0
  · have hC : ¬ Connects env c.mInterest := fun hC => hC.1 hfail
    rw [if_pos hfail, if_neg hC]
    exact ⟨c.mDataTransport, c.mDataStream, rfl, by simp [hs, hC]⟩
  · rw [if_neg hfail]
    dsimp only
    cases hp : nsFailed env.openInput.newPipe2.1 with
    | true =>
      have hC : ¬ Connects env c.mInterest := fun hC => by
        rw [hC.2] at hp
        cases hp
      rw [if_pos rfl, if_neg hC]
      exact ⟨_, c.mDataStream, rfl, by simp [hs, hC]⟩
    | false =>
      have hC : Connects env c.mInterest := ⟨hfail, hp⟩
      rw [if_neg Bool.false_ne_true, if_pos hC]
      exact ⟨_, _, rfl, by simp [hC]⟩

/-- An `AsyncWait` on an open core. -/
theorem Models.pendingOpen (hM : Models interest σ c) (ho : σ.stage.isEnded = false)
    (cb : Callback) (target : Option Target) (env : Env) :
    Models interest ⟨Session.waited interest env σ.stage, some (cb, target)⟩
        ((c.registered cb target).onCallbackPending env).2 ∧
      ((c.registered cb target).onCallbackPending env).1.isSome =
        (Session.waited interest env σ.stage == .live) := by
  have hwait := (c.registered cb target).onCallbackPending_wait env
  have hs := hM.stage
  by_cases hfresh : σ.stage = .fresh
  · rw [hfresh] at hs ⊢
    obtain ⟨hstatus, hinit, hstream⟩ := hs
    obtain ⟨transport, stream, he, hsome⟩ :=
      onCallbackPending_fresh (c := c.registered cb target) hinit hstream env
    rw [show (c.registered cb target).mInterest = interest from hM.name] at he hsome
    rw [hwait, he]
    unfold Session.waited
    by_cases hC : Connects env interest
    · simp only [hC, decide_true] at hsome
      simp only [if_pos hC, hsome]
      exact ⟨⟨rfl, hM.nonBlocking, ⟨hstatus, rfl, hsome⟩, rfl⟩, rfl⟩
    · simp only [hC, decide_false, Option.isSome_eq_false_iff, Option.isNone_iff_eq_none] at hsome
      simp only [if_neg hC, hsome]
      exact ⟨⟨rfl, hM.nonBlocking, ⟨hstatus, rfl, rfl⟩, rfl⟩, rfl⟩
  · have hwaited : Session.waited interest env σ.stage = σ.stage := by
      unfold Session.waited
      split
      · exact absurd ‹_› hfresh
      · rfl
    have hne : ¬ (c.registered cb target).mState = .init := by
      show ¬ c.mState = .init
      cases hst : σ.stage with
      | fresh => exact absurd hst hfresh
      | ended reason => rw [hst] at ho; cases ho
      | _ => rw [hst] at hs; rw [hs.2.1]; decide
    rw [hwait, NsCCNxCore.onCallbackPending_core, if_neg hne, hwaited]
    refine ⟨⟨hM.name, hM.nonBlocking, hs, rfl⟩, ?_⟩
    · show (if c.mState = .connect ∧ c.mDataStream.isSome = true then some env.dataWait
        else none).isSome = _
      cases hst : σ.stage with
      | fresh => exact absurd hst hfresh
      | ended reason => rw [hst] at ho; cases ho
      | live =>
        rw [hst] at hs
        rw [if_pos ⟨hs.2.1, hs.2.2⟩]
        rfl
      | broken =>
        rw [hst] at hs
        rw [if_neg fun h => by rw [hs.2.1] at h; cases h.1]
        rfl
      | torn =>
        rw [hst] at hs
        rw [if_neg fun h => by rw [hs.2.2] at h; cases h.2]
        rfl

theorem Models.asyncWait (hM : Models interest σ c) (callback : Option Callback)
    (target : Option Target) (env : Env) :
    Models interest (σ.next interest (.asyncWait callback target env))
        (c.asyncWait callback target env).core ∧
      (c.asyncWait callback target env).seen = σ.see interest (.asyncWait callback target env) := by
  cases callback with
  | none => exact ⟨⟨hM.name, hM.nonBlocking, hM.stage, rfl⟩, rfl⟩
  | some cb =>
    simp only [Session.next, Session.see]
    cases he : σ.stage.isEnded with
    | true =>
      have hc : c.isClosed = true := hM.isClosed.trans he
      rw [NsCCNxCore.asyncWait_closed _ _ hc]
      simp only [NsCCNxCore.dispatchCallback, NsCCNxCore.registered, if_true]
      cases env.event with
      | true => exact ⟨⟨hM.name, hM.nonBlocking, hM.stage, rfl⟩, rfl⟩
      | false => exact ⟨⟨hM.name, hM.nonBlocking, hM.stage, rfl⟩, rfl⟩
    | false =>
      have hc : c.isClosed = false := hM.isClosed.trans he
      obtain ⟨hnext, hasks⟩ := hM.pendingOpen he cb target env
      rw [NsCCNxCore.asyncWait_open _ _ hc]
      simp only [Bool.false_eq_true, ↓reduceIte]
      exact ⟨hnext, by simp only [NsCCNxCore.Out.seen, hasks]⟩

theorem Models.onInputStreamReady (hM : Models interest σ c) :
    Models interest { σ with pending := none } c.onInputStreamReady.core ∧
      c.onInputStreamReady.seen = { dispatch := σ.pending.map fun p => .called p.1 } := by
  rw [← hM.pending]
  unfold NsCCNxCore.onInputStreamReady NsCCNxCore.hasPendingCallback NsCCNxCore.dispatchCallback
  cases hcb : c.mCallback with
  | none => exact ⟨⟨hM.name, hM.nonBlocking, hM.stage, by simp [hcb]⟩, rfl⟩
  | some cb => exact ⟨⟨hM.name, hM.nonBlocking, hM.stage, rfl⟩, rfl⟩

/-- A core that has let go of its connection and is not closed. -/
theorem stageIs_letGo {status : NsResult} {state : CcnxState} {stream : Option Opened}
    {st : Stage} (hs : StageIs status state stream st) :
    StageIs status state none (Session.refused st) := by
  cases st with
  | ended reason => exact ⟨hs.1, hs.2.1, rfl⟩
  | _ => exact ⟨hs.1, hs.2.1, rfl⟩

theorem Models.closeWithStatus (hM : Models interest σ c) (reason : NsResult) (env : Env) :
    Models interest (σ.closed reason env) (c.closeWithStatus reason env).core ∧
      (c.closeWithStatus reason env).seen = σ.seeClosed reason env := by
  have hc : c.isClosed = σ.stage.isEnded := hM.isClosed
  have hlet := stageIs_letGo hM.stage
  unfold Session.closed Session.seeClosed
  cases he : σ.stage.isEnded with
  | true =>
    rw [he] at hc
    rw [if_pos rfl, if_pos rfl, NsCCNxCore.closeWithStatus_closed _ hc]
    unfold NsCCNxCore.isClosed at hc
    refine ⟨⟨hM.name, hM.nonBlocking, ?_, hM.pending⟩, ?_⟩
    · cases hst : σ.stage with
      | ended r => rw [hst] at hlet; exact hlet
      | _ => rw [hst] at he; cases he
    · simp only [NsCCNxCore.closeWithStatus, NsCCNxCore.isClosed, hc, ↓reduceIte,
        NsCCNxCore.Out.seen, Option.isSome_none]
  | false =>
    rw [he] at hc
    rw [if_neg Bool.false_ne_true, if_neg Bool.false_ne_true]
    have hopen := hc
    unfold NsCCNxCore.isClosed at hopen
    cases hr : nsFailed reason with
    | false =>
      rw [if_neg Bool.false_ne_true, if_neg Bool.false_ne_true,
        NsCCNxCore.closeWithStatus_rejected hr]
      refine ⟨⟨hM.name, hM.nonBlocking, hlet, hM.pending⟩, ?_⟩
      simp only [NsCCNxCore.closeWithStatus, NsCCNxCore.isClosed, nsSucceeded, hopen, hr,
        Bool.not_false, Bool.false_eq_true, ↓reduceIte, NsCCNxCore.Out.seen, Option.isSome_none]
    | true =>
      rw [if_pos rfl, if_pos rfl, NsCCNxCore.closeWithStatus_open hc hr, ← hM.pending]
      simp only [NsCCNxCore.closeWithStatus, NsCCNxCore.isClosed, nsSucceeded, hopen, hr,
        Bool.not_true, Bool.false_eq_true, ↓reduceIte, NsCCNxCore.Out.seen, Option.isSome_none,
        NsCCNxCore.dispatchCallback, NsCCNxCore.letGo]
      cases hcb : c.mCallback with
      | none =>
        refine ⟨⟨hM.name, hM.nonBlocking, ⟨rfl, hr, rfl⟩, ?_⟩, ?_⟩ <;> cases env.event <;>
          simp
      | some cb =>
        cases env.event with
        | true => exact ⟨⟨hM.name, hM.nonBlocking, ⟨rfl, hr, rfl⟩, rfl⟩, rfl⟩
        | false => exact ⟨⟨hM.name, hM.nonBlocking, ⟨rfl, hr, rfl⟩, by simp⟩, rfl⟩

theorem Models.reads (hM : Models interest σ c) (data : NsResult × Nat) :
    c.see (.available data) = σ.see interest (.available data) ∧
      c.see (.readSegments data) = σ.see interest (.readSegments data) := by
  have hs := hM.stage
  have hc : c.isClosed = σ.stage.isEnded := hM.isClosed
  simp only [NsCCNxCore.see, Session.see, NsCCNxCore.available, NsCCNxCore.readSegments]
  cases hst : σ.stage with
  | live =>
    rw [hst] at hs
    simp only [hs.2.2, if_true]
    exact ⟨trivial, trivial⟩
  | ended reason =>
    rw [hst] at hs hc
    obtain ⟨hstatus, -, hnone⟩ := hs
    simp only [hnone, hstatus, hc, Stage.isEnded, Option.isSome_none, Bool.not_true,
      Bool.false_and, Bool.false_eq_true, if_false]
    refine ⟨trivial, ?_⟩
    split <;> rfl
  | _ =>
    rw [hst] at hs hc
    obtain ⟨hstatus, -, hnone⟩ := hs
    have hne : nsOk ≠ nsBaseStreamClosed := by decide
    simp only [hnone, hstatus, hc, hne, Stage.isEnded, hM.nonBlocking, Option.isSome_none,
      Bool.not_false, Bool.and_self, Bool.false_eq_true, if_true, if_false]
    exact ⟨trivial, trivial⟩

/-- In a state that models an abstract one, a step shows the same and leads to such a state. -/
theorem Models.next {s s' : Sys} {a : Act} (hM : Models interest σ s.core)
    (h : step s a = some s') :
    Models interest (σ.next interest a) s'.core ∧ s.core.see a = σ.see interest a := by
  cases a with
  | asyncWait callback target env => cases h; exact hM.asyncWait callback target env
  | onInputStreamReady wait =>
    rw [(step_onInputStreamReady h).1]
    exact hM.onInputStreamReady
  | available data => cases h; exact ⟨hM, (hM.reads data).1⟩
  | readSegments data => cases h; exact ⟨hM, (hM.reads data).2⟩
  | transport w => cases h; exact ⟨⟨hM.name, hM.nonBlocking, hM.stage, hM.pending⟩, rfl⟩
  | closeWithStatus reason env => cases h; exact hM.closeWithStatus reason env
  | close env =>
    cases h
    show Models interest (σ.closed nsBaseStreamClosed env) (s.core.close env).core ∧
      (s.core.close env).seen = σ.seeClosed nsBaseStreamClosed env
    unfold NsCCNxCore.close
    cases hc : s.core.isClosed with
    | true =>
      have he : σ.stage.isEnded = true := hM.isClosed.symm.trans hc
      unfold Session.closed Session.seeClosed
      rw [he, if_pos rfl, if_pos rfl]
      exact ⟨hM, rfl⟩
    | false => exact hM.closeWithStatus nsBaseStreamClosed env

theorem models_start (interest : String) : Models interest {} (start interest).core :=
  ⟨rfl, rfl, ⟨rfl, rfl, rfl⟩, rfl⟩

/-- A run of the core is one of the abstract stream, with the same to be seen of it. -/
theorem Models.run {s s' : Sys} {acts : List Act} (hM : Models interest σ s.core)
    (h : Runs.run step s acts = some s') :
    Models interest (acts.foldl (Session.next interest) σ) s'.core ∧
      outputs step (fun s a => [s.core.see a]) s acts = σ.trace interest acts := by
  induction acts generalizing s σ with
  | nil => cases h; exact ⟨hM, rfl⟩
  | cons a acts ih =>
    obtain ⟨s₁, h₁, h₂⟩ := run_cons_some h
    obtain ⟨hM₁, hsee⟩ := hM.next h₁
    obtain ⟨hM', htrace⟩ := ih hM₁ h₂
    refine ⟨hM', ?_⟩
    rw [outputs_cons acts h₁, htrace, hsee]
    rfl

end

/-! ## Over runs -/

/-- In every run, whatever the environment answers, each call of the core shows what it would show
of the abstract stream. -/
theorem session_trace (interest : String) (acts : List Act) (s : Sys)
    (h : run step (start interest) acts = some s) :
    outputs step (fun s a => [s.core.see a]) (start interest) acts =
      Session.trace interest {} acts :=
  ((models_start interest).run h).2

/-- A connection that is lost to a refused close, and what is seen of it. -/
def refusedClose : List Act :=
  [.asyncWait (some 1) (some 0) {}, .readSegments (nsOk, 4), .closeWithStatus nsOk {},
    .readSegments (nsOk, 4), .closeWithStatus nsErrorAbort {}, .readSegments (nsOk, 4)]

theorem session_trace_refusedClose :
    outputs step (fun s a => [s.core.see a]) (start "/a") refusedClose =
      [{ asks := true }, { count := 4 }, { rv := nsErrorInvalidArg },
        { rv := nsBaseStreamWouldBlock }, { dispatch := some (.posted 1 (some 0)) },
        { rv := nsErrorAbort }] :=
  session_trace "/a" refusedClose _ rfl

/-! ## When there is data to be read -/

/-- The environment of an `AsyncWait` with a callback. -/
def Act.waits? : Act → Option Env
  | .asyncWait (some _) _ env => some env
  | _ => none

/-- A close with any reason. -/
def Act.closes : Act → Bool
  | .close _ | .closeWithStatus _ _ => true
  | _ => false

/-- A close that is not refused. -/
def Act.ends : Act → Bool
  | .close _ => true
  | .closeWithStatus reason _ => nsFailed reason
  | _ => false

/-- The first `AsyncWait` with a callback came on an open stream and made the connection, and no
`CloseWithStatus` has come since. -/
def StillConnected (interest : String) (acts : List Act) : Prop :=
  ∃ pre a post env, acts = pre ++ a :: post ∧ a.waits? = some env ∧ Connects env interest ∧
    (∀ b ∈ pre, b.waits? = none ∧ b.ends = false) ∧ ∀ b ∈ post, b.closes = false

section
variable {interest : String} {σ : Session} {a : Act} {acts : List Act}

theorem closed_stage (σ : Session) (reason : NsResult) (env : Env) :
    (σ.closed reason env).stage =
      if σ.stage.isEnded then σ.stage
      else if nsFailed reason then .ended reason else Session.refused σ.stage := by
  unfold Session.closed
  split
  · rfl
  · split <;> rfl

/-- What the calls do to the stage. -/
theorem next_stage (interest : String) (σ : Session) (a : Act) :
    (a.closes = true ∧ (σ.next interest a).stage ≠ .live ∧
        (a.ends = false → σ.stage = .fresh → (σ.next interest a).stage = .fresh) ∧
        (a.ends = true ∨ σ.stage ≠ .fresh → (σ.next interest a).stage ≠ .fresh)) ∨
      (∃ env, a.waits? = some env ∧ a.closes = false ∧ a.ends = false ∧
        (σ.next interest a).stage = Session.waited interest env σ.stage) ∨
      (a.waits? = none ∧ a.closes = false ∧ a.ends = false ∧
        (σ.next interest a).stage = σ.stage) := by
  have hclose : ∀ reason env, (σ.closed reason env).stage ≠ .live ∧
      (nsFailed reason = false → σ.stage = .fresh → (σ.closed reason env).stage = .fresh) ∧
      (nsFailed reason = true ∨ σ.stage ≠ .fresh → (σ.closed reason env).stage ≠ .fresh) := by
    intro reason env
    rw [closed_stage]
    cases σ.stage <;> cases nsFailed reason <;> simp [Stage.isEnded, Session.refused]
  cases a with
  | asyncWait callback target env =>
    cases callback with
    | none => exact .inr (.inr ⟨rfl, rfl, rfl, rfl⟩)
    | some cb =>
      refine .inr (.inl ⟨env, rfl, rfl, rfl, ?_⟩)
      unfold Session.next
      cases hst : σ.stage <;> simp [Stage.isEnded, Session.waited]
  | close env => exact .inl ⟨rfl, hclose nsBaseStreamClosed env⟩
  | closeWithStatus reason env => exact .inl ⟨rfl, hclose reason env⟩
  | _ => exact .inr (.inr ⟨rfl, rfl, rfl, rfl⟩)

/-- A stage that is past, or without, a connection stays so. -/
theorem fold_gone (hf : σ.stage ≠ .fresh) (hl : σ.stage ≠ .live) :
    (acts.foldl (Session.next interest) σ).stage ≠ .live := by
  induction acts generalizing σ with
  | nil => exact hl
  | cons a acts ih =>
    rw [List.foldl_cons]
    rcases next_stage interest σ a with ⟨-, hl', -, hf'⟩ | ⟨env, -, -, -, he⟩ | ⟨-, -, -, he⟩
    · exact ih (hf' (.inr hf)) hl'
    · have hw : Session.waited interest env σ.stage = σ.stage := by
        unfold Session.waited
        split
        · exact absurd ‹_› hf
        · rfl
      exact ih (by rwa [he, hw]) (by rwa [he, hw])
    · exact ih (by rwa [he]) (by rwa [he])

/-- A connection lasts until a close. -/
theorem fold_live (hl : σ.stage = .live) :
    (acts.foldl (Session.next interest) σ).stage = .live ↔ ∀ b ∈ acts, b.closes = false := by
  induction acts generalizing σ with
  | nil => simp [hl]
  | cons a acts ih =>
    rw [List.foldl_cons, List.forall_mem_cons]
    rcases next_stage interest σ a with ⟨hc, hl', -, hf'⟩ | ⟨env, -, hc, -, he⟩ | ⟨-, hc, -, he⟩
    · have hgone : (acts.foldl (Session.next interest) (σ.next interest a)).stage ≠ .live :=
        fold_gone (hf' (.inr (by rw [hl]; decide))) hl'
      simp [hc, hgone]
    · rw [ih (by rw [he, hl]; rfl)]
      simp [hc]
    · rw [ih (by rw [he, hl])]
      simp [hc]

theorem stillConnected_cons :
    StillConnected interest (a :: acts) ↔
      (∃ env, a.waits? = some env ∧ Connects env interest ∧ ∀ b ∈ acts, b.closes = false) ∨
        (a.waits? = none ∧ a.ends = false) ∧ StillConnected interest acts := by
  constructor
  · rintro ⟨pre, b, post, env, he, hw, hC, hpre, hpost⟩
    cases pre with
    | nil =>
      cases he
      exact .inl ⟨env, hw, hC, hpost⟩
    | cons b' pre =>
      cases he
      obtain ⟨ha, hpre⟩ := List.forall_mem_cons.1 hpre
      exact .inr ⟨ha, pre, b, post, env, rfl, hw, hC, hpre, hpost⟩
  · rintro (⟨env, hw, hC, hpost⟩ | ⟨ha, pre, b, post, env, rfl, hw, hC, hpre, hpost⟩)
    · exact ⟨[], a, acts, env, rfl, hw, hC, fun b hb => absurd hb List.not_mem_nil, hpost⟩
    · exact ⟨a :: pre, b, post, env, rfl, hw, hC, List.forall_mem_cons.2 ⟨ha, hpre⟩, hpost⟩

theorem fold_fresh (hf : σ.stage = .fresh) :
    (acts.foldl (Session.next interest) σ).stage = .live ↔ StillConnected interest acts := by
  induction acts generalizing σ with
  | nil =>
    refine iff_of_false (by simp [hf]) ?_
    rintro ⟨pre, b, post, env, he, -⟩
    cases pre <;> cases he
  | cons a acts ih =>
    rw [List.foldl_cons, stillConnected_cons]
    rcases next_stage interest σ a with
      ⟨hc, hl', hsame, hgone⟩ | ⟨env, hw, -, -, he⟩ | ⟨hw, -, hends, he⟩
    · have hw : a.waits? = none := by
        cases a <;> first | rfl | cases hc
      cases hends : a.ends with
      | true => simp [hw, fold_gone (hgone (.inl hends)) hl']
      | false => simp [hw, ih (hsame hends hf)]
    · rw [hf, Session.waited] at he
      by_cases hC : Connects env interest
      · rw [if_pos hC] at he
        simp [hw, hC, fold_live he]
      · rw [if_neg hC] at he
        simp [hw, hC, fold_gone (by rw [he]; decide) (by rw [he]; decide)]
    · simp [hw, hends, ih (he.trans hf)]

end

/-- In every run: `mDataStream` is there to answer reads if and only if the first `AsyncWait` came
on an open stream and made the connection, and no close has come since, refused or not. -/
theorem stream_iff (interest : String) (acts : List Act) (s : Sys)
    (h : run step (start interest) acts = some s) :
    s.core.mDataStream.isSome = true ↔ StillConnected interest acts := by
  obtain ⟨hM, -⟩ := (models_start interest).run h
  have hs := hM.stage
  have hlive : (acts.foldl (Session.next interest) {}).stage = .live ↔
      StillConnected interest acts := fold_fresh rfl
  rw [← hlive]
  cases hst : (acts.foldl (Session.next interest) {}).stage with
  | live => rw [hst] at hs; simp [hs.2.2]
  | _ => rw [hst] at hs; simp [hs.2.2]

theorem stream_iff_refusedClose :
    ∃ s, run step (start "/a") refusedClose = some s ∧
      (s.core.mDataStream.isSome = true ↔ StillConnected "/a" refusedClose) := by
  have h := stream_iff "/a" refusedClose _ rfl
  exact ⟨_, rfl, h⟩

end Core
