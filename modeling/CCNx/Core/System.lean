import CCNx.Core.Defs
import CCNx.Lib.Runs

/-!
# Runs of an nsCCNxCore

One step for each call of a method of the object, with the transport running on in between. The
history keeps what the environment still owes it: each `AsyncWait` naming this object that
`mDataStream` accepted and has not answered, with the number of callbacks registered by then.
-/

set_option autoImplicit false

namespace Core

open Xpcom Transport

structure Sys where
  core : NsCCNxCore
  /-- History: how often `AsyncWait` has registered a callback. -/
  registrations : Nat := 0
  /-- History: the accepted `AsyncWait` calls that have not been answered. -/
  waits : List (Opened × Nat) := []

inductive Act
  | asyncWait (callback : Option Callback) (target : Option Target) (env : Env)
  /-- An answer to one of the accepted calls, or one that nobody waits for. -/
  | onInputStreamReady (wait : Option (Opened × Nat))
  | available (data : NsResult × Nat)
  | readSegments (data : NsResult × Nat)
  | close (env : Env)
  | closeWithStatus (reason : NsResult) (env : Env)
  /-- The threads that work on the data transport go on. -/
  | transport (w : World)

/-- The stream of a core that `Init` has given its interest name. -/
def start (interest : String) : Sys := { core := { mInterest := interest } }

/-- A wait that `mDataStream` has accepted. -/
def accepted (c : NsCCNxCore) (wait : Option NsResult) (registrations : Nat) :
    List (Opened × Nat) :=
  match wait, c.mDataStream with
  | some rv, some stream => if nsFailed rv then [] else [(stream, registrations)]
  | _, _ => []

def step (s : Sys) : Act → Option Sys
  | .asyncWait callback target env =>
    let out := s.core.asyncWait callback target env
    let registrations := if callback.isSome then s.registrations + 1 else s.registrations
    some { core := out.core, registrations
           waits := s.waits ++ accepted out.core out.wait registrations }
  | .onInputStreamReady none => some { s with core := s.core.onInputStreamReady.core }
  | .onInputStreamReady (some wait) =>
    if wait ∈ s.waits then
      some { s with core := s.core.onInputStreamReady.core, waits := s.waits.erase wait }
    else none
  | .available _ | .readSegments _ => some s
  | .close env => some { s with core := (s.core.close env).core }
  | .closeWithStatus reason env => some { s with core := (s.core.closeWithStatus reason env).core }
  | .transport w =>
    some { s with core := { s.core with mDataTransport := s.core.mDataTransport.map fun _ => w } }

/-- The environment that answers in this step. -/
def Act.env? : Act → Option Env
  | .asyncWait _ _ env | .close env | .closeWithStatus _ env => some env
  | _ => none

/-! ## What the methods do -/

namespace NsCCNxCore

variable {c : NsCCNxCore} {env : Env}

theorem dispatchCallback_core (async event : Bool) :
    (c.dispatchCallback async event).2 = c ∨
      (c.dispatchCallback async event).2 =
        { c with mCallback := none, mCallbackTarget := none } := by
  unfold dispatchCallback
  split
  · exact .inl rfl
  · split
    · exact .inl rfl
    · exact .inr rfl

/-- With an event to be had, no callback is left pending. -/
theorem dispatchCallback_clears (async : Bool) {event : Bool} (he : async = true → event = true) :
    (c.dispatchCallback async event).2.mCallback = none := by
  unfold dispatchCallback
  split
  · assumption
  · rw [if_neg (by cases async <;> simp_all)]

theorem onInputStreamReady_core :
    c.onInputStreamReady.core.mCallback = none ∧
      (c.onInputStreamReady.core = c ∨
        c.onInputStreamReady.core = { c with mCallback := none, mCallbackTarget := none }) := by
  unfold onInputStreamReady hasPendingCallback
  split
  · exact ⟨dispatchCallback_clears false (by simp), dispatchCallback_core false true⟩
  · rename_i hnone
    exact ⟨by simpa using hnone, .inl rfl⟩

/-- The steps before the name and after it cannot fail, so `Init` decides on these two. -/
theorem createTransport_eq (env : InitEnv) (interest : String) :
    (createTransport env interest).2 =
      if env.connect < 0 ∨ env.nameFromUri interest < 0 then none
      else some (World.created.init env interest).2 := by
  unfold createTransport
  by_cases hc : env.connect < 0
  · rw [World.init_connectFailed _ _ _ hc, if_pos (.inl hc)]
    simp
  · by_cases hn : env.nameFromUri interest < 0
    · rw [World.init_nameFailed _ _ _ hc hn, if_pos (.inr hn)]
      simp
    · rw [World.init_ok _ _ _ hc hn, if_neg (not_or.2 ⟨hc, hn⟩)]
      simp

/-- `Connect` follows the failures of `Init` and of `NS_NewPipe2`, and no others. -/
theorem connect_eq :
    c.connect env =
      if env.init.connect < 0 ∨ env.init.nameFromUri c.mInterest < 0 then (.error, c)
      else
        let w := (World.created.init env.init c.mInterest).2
        let input := w.tr.openInputStream 0 env.openInput
        let c := { c with mDataTransport := some { w with tr := input.2.2 } }
        if nsFailed env.openInput.newPipe2.1 then (.error, c)
        else (.connect, { c with mDataStream := some (.pipe env.openInput.newPipe2.2) }) := by
  have hfree : (World.created.init env.init c.mInterest).2.tr.mInput.mReaderRefCnt = 0 := by
    rw [(World.init_keeps _ _ _).1]
    rfl
  unfold connect
  by_cases hi : env.init.connect < 0 ∨ env.init.nameFromUri c.mInterest < 0
  · have hnone := createTransport_eq env.init c.mInterest
    rw [if_pos hi] at hnone
    rw [if_pos hi]
    split
    · rfl
    · rename_i he
      rw [he] at hnone
      cases hnone
  · have hsome := createTransport_eq env.init c.mInterest
    rw [if_neg hi] at hsome
    rw [if_neg hi]
    dsimp only
    split
    · rename_i he
      rw [he] at hsome
      cases hsome
    · rename_i he
      rw [he] at hsome
      cases hsome
      have hin := NsCCNxTransport.openInputStream_pipe hfree env.openInput
      generalize
        (World.created.init env.init c.mInterest).2.tr.openInputStream 0 env.openInput = input
        at hin
      cases hp : nsFailed env.openInput.newPipe2.1 with
      | true =>
        rw [hp, if_pos rfl] at hin
        subst hin
        simp only [hp, ↓reduceIte]
      | false =>
        rw [hp, if_neg Bool.false_ne_true] at hin
        subst hin
        simp only [failed_ok, Bool.false_eq_true, ↓reduceIte]

/-- `Connect` comes once: afterwards the state is not `init`. -/
theorem connect_state (c : NsCCNxCore) (env : Env) :
    (c.connect env).1 = .connect ∨ (c.connect env).1 = .error := by
  rw [connect_eq]
  split
  · exact .inr rfl
  · dsimp only
    split
    · exact .inr rfl
    · exact .inl rfl

/-- `Connect` sets the transport and the stream, and nothing else. -/
theorem connect_keeps (c : NsCCNxCore) (env : Env) :
    ∃ transport stream, (c.connect env).2 =
      { c with mDataTransport := transport, mDataStream := stream } := by
  rw [connect_eq]
  split
  · exact ⟨_, _, rfl⟩
  · dsimp only
    split <;> exact ⟨_, _, rfl⟩

theorem onCallbackPending_core :
    (c.onCallbackPending env).2 =
      if c.mState = .init then { (c.connect env).2 with mState := (c.connect env).1 } else c := rfl

/-- `mDataStream->AsyncWait` is called, last, if there is a connection with a stream. -/
theorem onCallbackPending_wait (c : NsCCNxCore) (env : Env) :
    (c.onCallbackPending env).1 =
      if (c.onCallbackPending env).2.mState = .connect ∧
          (c.onCallbackPending env).2.mDataStream.isSome then some env.dataWait
      else none := rfl

/-- The core after `CloseWithStatus` has let go of transport and stream, which it does first. -/
def letGo (c : NsCCNxCore) : NsCCNxCore := { c with mDataTransport := none, mDataStream := none }

theorem closeWithStatus_closed (reason : NsResult) (hc : c.isClosed = true) :
    (c.closeWithStatus reason env).core = c.letGo := by
  simp only [isClosed] at hc
  simp only [closeWithStatus, isClosed, hc, ↓reduceIte, letGo]

theorem closeWithStatus_rejected {reason : NsResult} (hr : nsFailed reason = false) :
    (c.closeWithStatus reason env).core = c.letGo := by
  simp only [closeWithStatus, nsSucceeded, hr, Bool.not_false, ↓reduceIte, letGo]
  split <;> rfl

theorem closeWithStatus_open {reason : NsResult} (hc : c.isClosed = false)
    (hr : nsFailed reason = true) :
    (c.closeWithStatus reason env).core =
      ({ c.letGo with mStatus := reason }.dispatchCallback true env.event).2 := by
  simp only [isClosed] at hc
  simp only [closeWithStatus, isClosed, nsSucceeded, hc, hr, Bool.not_true, Bool.false_eq_true,
    ↓reduceIte, letGo]

/-- The core after `AsyncWait` has registered the callback, which it does first. -/
def registered (c : NsCCNxCore) (cb : Callback) (target : Option Target) : NsCCNxCore :=
  { c with mCallback := some cb, mCallbackTarget := target }

theorem asyncWait_closed (cb : Callback) (target : Option Target) (hc : c.isClosed = true) :
    c.asyncWait (some cb) target env =
      { rv := nsOk, core := ((c.registered cb target).dispatchCallback true env.event).2
        dispatch := ((c.registered cb target).dispatchCallback true env.event).1 } := by
  simp only [isClosed] at hc
  simp only [asyncWait, hasPendingCallback, isClosed, hc, Option.isSome_some, Bool.not_true,
    Bool.false_eq_true, ↓reduceIte, registered]

theorem asyncWait_open (cb : Callback) (target : Option Target) (hc : c.isClosed = false) :
    c.asyncWait (some cb) target env =
      { rv := nsOk, core := ((c.registered cb target).onCallbackPending env).2
        wait := ((c.registered cb target).onCallbackPending env).1 } := by
  simp only [isClosed] at hc
  simp only [asyncWait, hasPendingCallback, isClosed, hc, Option.isSome_some, Bool.not_true,
    Bool.false_eq_true, ↓reduceIte, registered]

/-- On a closed core a callback is dispatched at once, if there is an event to be had. -/
theorem asyncWait_dispatched (cb : Callback) (target : Option Target) (hc : c.isClosed = true)
    (he : env.event = true) :
    (c.asyncWait (some cb) target env).core =
      { c with mCallback := none, mCallbackTarget := none } := by
  rw [asyncWait_closed _ _ hc]
  simp only [dispatchCallback, registered, he, Bool.not_true, Bool.and_false, Bool.false_eq_true,
    ↓reduceIte]

/-! ## What leaves the connection alone -/

theorem dispatchCallback_connection (c : NsCCNxCore) (async event : Bool) :
    (c.dispatchCallback async event).2.mState = c.mState ∧
      (c.dispatchCallback async event).2.mDataTransport = c.mDataTransport ∧
      (c.dispatchCallback async event).2.mDataStream = c.mDataStream := by
  rcases dispatchCallback_core (c := c) async event with he | he <;> rw [he] <;>
    exact ⟨rfl, rfl, rfl⟩

theorem onInputStreamReady_connection (c : NsCCNxCore) :
    c.onInputStreamReady.core.mState = c.mState ∧
      c.onInputStreamReady.core.mDataTransport = c.mDataTransport ∧
      c.onInputStreamReady.core.mDataStream = c.mDataStream := by
  rcases (onInputStreamReady_core (c := c)).2 with he | he <;> rw [he] <;> exact ⟨rfl, rfl, rfl⟩

theorem closeWithStatus_connection (c : NsCCNxCore) (reason : NsResult) (env : Env) :
    (c.closeWithStatus reason env).core.mState = c.mState ∧
      (c.closeWithStatus reason env).core.mDataTransport = none ∧
      (c.closeWithStatus reason env).core.mDataStream = none := by
  cases hr : nsFailed reason with
  | false => rw [closeWithStatus_rejected hr]; exact ⟨rfl, rfl, rfl⟩
  | true =>
    cases hc : c.isClosed with
    | true => rw [closeWithStatus_closed _ hc]; exact ⟨rfl, rfl, rfl⟩
    | false =>
      rw [closeWithStatus_open hc hr]
      exact dispatchCallback_connection _ _ _

/-- `AsyncWait` connects for the first callback on an open core, and leaves the connection alone
otherwise. -/
theorem asyncWait_cases (c : NsCCNxCore) (callback : Option Callback) (target : Option Target)
    (env : Env) :
    (callback = none ∨ c.isClosed = true ∨ c.mState ≠ .init) ∧
        (c.asyncWait callback target env).core.mState = c.mState ∧
        (c.asyncWait callback target env).core.mDataTransport = c.mDataTransport ∧
        (c.asyncWait callback target env).core.mDataStream = c.mDataStream ∨
      ∃ cb, callback = some cb ∧ c.isClosed = false ∧ c.mState = .init ∧
        (c.asyncWait callback target env).core =
          { ((c.registered cb target).connect env).2 with
            mState := ((c.registered cb target).connect env).1 } := by
  cases callback with
  | none => exact .inl ⟨.inl rfl, rfl, rfl, rfl⟩
  | some cb =>
    cases hc : c.isClosed with
    | true =>
      rw [asyncWait_closed _ _ hc]
      exact .inl ⟨.inr (.inl rfl), dispatchCallback_connection (c.registered cb target) true _⟩
    | false =>
      rw [asyncWait_open _ _ hc, onCallbackPending_core]
      by_cases hinit : (c.registered cb target).mState = .init
      · rw [if_pos hinit]
        exact .inr ⟨cb, rfl, rfl, hinit, rfl⟩
      · rw [if_neg hinit]
        exact .inl ⟨.inr (.inr hinit), rfl, rfl, rfl⟩

end NsCCNxCore

/-! ## What the steps do -/

variable {s s' : Sys} {a : Act}

/-- Expected or not, a wake-up is handled by the one method, and takes nothing but a wait. -/
theorem step_onInputStreamReady {wait : Option (Opened × Nat)}
    (h : step s (.onInputStreamReady wait) = some s') :
    s'.core = s.core.onInputStreamReady.core ∧ s'.registrations = s.registrations ∧
      ∀ w ∈ s'.waits, w ∈ s.waits := by
  cases wait with
  | none => cases h; exact ⟨rfl, rfl, fun _ hw => hw⟩
  | some wait =>
    simp only [step] at h
    split at h <;> cases h
    exact ⟨rfl, rfl, fun _ hw => List.mem_of_mem_erase hw⟩

/-- A property of the core that each method keeps, and that the threads of the transport keep, is
kept by every step; `Close` needs no case of its own. -/
theorem step_keeps {I : NsCCNxCore → Prop} (hI : I s.core)
    (hwait : ∀ callback target env, I (s.core.asyncWait callback target env).core)
    (hready : I s.core.onInputStreamReady.core)
    (hclose : ∀ reason env, I (s.core.closeWithStatus reason env).core)
    (hthreads : ∀ w : World,
      I { s.core with mDataTransport := s.core.mDataTransport.map fun _ => w })
    (h : step s a = some s') : I s'.core := by
  cases a with
  | asyncWait callback target env => cases h; exact hwait callback target env
  | onInputStreamReady wait => rw [(step_onInputStreamReady h).1]; exact hready
  | available data => cases h; exact hI
  | readSegments data => cases h; exact hI
  | close env =>
    cases h
    show I (s.core.close env).core
    unfold NsCCNxCore.close
    split
    · exact hI
    · exact hclose nsBaseStreamClosed env
  | closeWithStatus reason env => cases h; exact hclose reason env
  | transport w => cases h; exact hthreads w

end Core
