import CCNx.Lib.Lock
import CCNx.Transport.ReadLoop
import CCNx.Transport.System

/-!
# nsCCNxInputStream under mLock, statement by statement

`Transport/System.lean` takes each section under `mLock` as one step. Here a section is what the
source writes: every test, read and assignment of a member is a step of its own, and so is every
iteration of the read loop, with other threads at work on the stream in between. What `Read` does
without the lock (`readStore`, `readReturn`) writes and reads `mCondition` without asking who holds
it. `nsCCNxTransport::Close` is here by its `CloseWithStatus` alone; nothing reads the
`mInputClosed` that it sets afterwards.
-/

set_option autoImplicit false

namespace Transport.Locked

open Xpcom

/-- What the threads share: the transport and libccn, and the callbacks that were invoked. -/
structure Shared where
  world : World
  invoked : List Waiter := []

namespace Shared

def mCondition (s : Shared) : NsResult := s.world.tr.mInput.mCondition

def withTr (s : Shared) (tr : NsCCNxTransport) : Shared :=
  { s with world := { s.world with tr } }

def withInput (s : Shared) (mInput : NsCCNxInputStream) : Shared :=
  s.withTr { s.world.tr with mInput }

end Shared

/-- The arguments of `AsyncWait`, and what `NS_NewInputStreamReadyEvent` returns. -/
structure WaitArgs where
  newEvent : NsResult := nsOk
  callback : Option Callback
  flags : Nat := 0
  target : Option Target := none

/-- What `AsyncWait` puts into `mCallback`, or the error of `NS_NewInputStreamReadyEvent`. -/
def WaitArgs.temp (w : WaitArgs) : Except NsResult (Option Waiter) :=
  match w.callback, w.target with
  | some cb, some tgt =>
    if nsFailed w.newEvent then .error w.newEvent else .ok (some (.event cb tgt))
  | some cb, none => .ok (some (.callback cb))
  | none, _ => .ok none

/-- The statements of `CCNX_Close`. -/
inductive CloseStatement
  | stream | fetch | ccnx | name | tmpl | inputClosed
  deriving DecidableEq, Repr

namespace CloseStatement

def exec (w : World) : CloseStatement → World
  | .stream =>
    { w with tr := { w.tr with mCCNxStream := none }, lib := w.lib.destroy w.tr.mCCNxStream }
  | .fetch =>
    { w with tr := { w.tr with mCCNxFetch := none }, lib := w.lib.destroy w.tr.mCCNxFetch }
  | .ccnx => { w with tr := { w.tr with mCCNx := none }, lib := w.lib.destroy w.tr.mCCNx }
  | .name => { w with tr := { w.tr with mCCNxName := none }, lib := w.lib.destroy w.tr.mCCNxName }
  | .tmpl => { w with tr := { w.tr with mCCNxTmpl := none }, lib := w.lib.destroy w.tr.mCCNxTmpl }
  | .inputClosed => { w with tr := { w.tr with mInputClosed := true }, closes := w.closes + 1 }

def all : List CloseStatement := [.stream, .fetch, .ccnx, .name, .tmpl, .inputClosed]

theorem exec_all (w : World) : all.foldl exec w = w.ccnxClose := rfl

end CloseStatement

/-- The assertion of `CCNX_ReleaseLocked` and `--mCCNxRef`. -/
def unref (w : World) (ccnfs : Obj) : World :=
  { w with
    tr := { w.tr with mCCNxRef := World.predU32 w.tr.mCCNxRef }
    wrongNdn := w.wrongNdn || w.tr.mCCNxStream != some ccnfs }

theorem ccnxReleaseLocked_eq (w : World) (ccnfs : Obj) :
    w.ccnxReleaseLocked ccnfs =
      if (unref w ccnfs).tr.mCCNxRef = 0 then (unref w ccnfs).ccnxClose else unref w ccnfs := rfl

/-- Where the thread that holds `mLock` is: the statement it executes next. -/
inductive Inside
  /-- `Read`: `NS_FAILED(mCondition)`. -/
  | test (buf : List UInt8) (count : Nat)
  /-- `Read`: `mCondition == NS_BASE_STREAM_CLOSED`. -/
  | compare
  /-- `Read`: `return mCondition`. -/
  | value
  /-- `CCNX_GetLocked`: `if (!mCCNxOnline)`. -/
  | online (buf : List UInt8) (count : Nat)
  /-- `CCNX_GetLocked`: `if (mCCNxStream)`. -/
  | stream (buf : List UInt8) (count : Nat)
  /-- `CCNX_GetLocked`: `mCCNxRef++`. -/
  | ref (buf : List UInt8) (count : Nat)
  /-- `CCNX_GetLocked`: `return mCCNxStream`, and the test of it in `Read`. -/
  | give (buf : List UInt8) (count : Nat)
  /-- `Read`: an iteration of the loop. -/
  | loop (ccnfs : Obj) (count : Nat) (st : ReadSt)
  /-- `CCNX_ReleaseLocked`: the assertion and `--mCCNxRef == 0`. -/
  | release (ccnfs : Obj) (res : Int) (st : ReadSt)
  /-- `CCNX_Close`, with these statements to come. -/
  | closing (todo : List CloseStatement) (pc : Pc)
  /-- `CloseWithStatus`: `NS_SUCCEEDED(mCondition)`. -/
  | closeTest (pc : Pc) (reason : NsResult)
  /-- `CloseWithStatus`: `mCondition = reason`. -/
  | closeWrite (pc : Pc) (reason : NsResult)
  /-- `AsyncWait`: the new event and `mCallback`. -/
  | install (pc : Pc) (args : WaitArgs)
  /-- `AsyncWait`: `NS_FAILED(mCondition)`. -/
  | waitTest (pc : Pc) (args : WaitArgs)
  /-- `AsyncWait`: `directCallback.swap(mCallback)`. -/
  | swap (pc : Pc)
  /-- `AsyncWait`: `mCallbackFlags = flags`. -/
  | waitFlags (pc : Pc) (flags : Nat)
  /-- The end of the section, with the thread to go on at `pc`. -/
  | unlock (pc : Pc)

/-- The calls that take the lock; `resume` is the second section of `Read`. -/
inductive Entry
  | read (buf : List UInt8) (count : Nat)
  | resume
  | closeWithStatus (reason : NsResult)
  | asyncWait (args : WaitArgs)

/-- What a thread does without the lock. -/
inductive Outer
  | readStore | readReturn | notify
  deriving DecidableEq, Repr

def enter (pc : Pc) : Entry → Option Inside
  | .read buf count => if pc.outside then some (.test buf count) else none
  | .resume =>
    match pc with
    | .reading ccnfs buf count => some (.loop ccnfs count { buf })
    | _ => none
  | .closeWithStatus reason => if pc.outside then some (.closeTest pc reason) else none
  | .asyncWait args => if pc.outside then some (.install pc args) else none

/-- A statement under the lock; an iteration of the loop comes with libccn's answer to it. -/
def inner (K : FetchCodes) (s : Shared) : Inside → Option Answer → Option (Shared × Inside)
  | .test buf count, none =>
    some (s, if nsFailed s.mCondition then .compare else .online buf count)
  | .compare, none =>
    some (s, if s.mCondition = nsBaseStreamClosed then .unlock (.returned nsOk 0) else .value)
  | .value, none => some (s, .unlock (.returned s.mCondition 0))
  | .online buf count, none =>
    some (s, if !s.world.tr.mCCNxOnline then .unlock (.returned nsBaseStreamClosed 0)
      else .stream buf count)
  | .stream buf count, none =>
    some (s, if s.world.tr.mCCNxStream.isSome then .ref buf count else .give buf count)
  | .ref buf count, none =>
    some (s.withTr { s.world.tr with mCCNxRef := (s.world.tr.mCCNxRef + 1) % 0x100000000 },
      .give buf count)
  | .give buf count, none =>
    some (s, match s.world.tr.mCCNxStream with
      | none => .unlock (.returned nsBaseStreamClosed 0)
      | some ccnfs => .unlock (.reading ccnfs buf count))
  | .loop ccnfs count st, some a =>
    if a.read.res ≤ count then
      some (s, match a.ends K with
        | some res => .release ccnfs res (st.iter K count a)
        | none => .loop ccnfs count (st.iter K count a))
    else none
  | .release ccnfs res st, none =>
    some ({ s with world := unref s.world ccnfs },
      if (unref s.world ccnfs).tr.mCCNxRef = 0 then .closing CloseStatement.all (.storing res st)
      else .unlock (.storing res st))
  | .closing (c :: todo) pc, none => some ({ s with world := c.exec s.world }, .closing todo pc)
  | .closeTest pc reason, none =>
    some (s, if nsSucceeded s.mCondition then .closeWrite pc reason else .unlock pc)
  | .closeWrite pc reason, none =>
    some (s.withInput { s.world.tr.mInput with mCondition := reason }, .unlock pc)
  | .install pc args, none =>
    match args.temp with
    | .error _ => some (s, .unlock pc)
    | .ok temp =>
      some (s.withInput { s.world.tr.mInput with mCallback := temp }, .waitTest pc args)
  | .waitTest pc args, none =>
    some (s, if nsFailed s.mCondition then .swap pc else .waitFlags pc args.flags)
  | .swap pc, none =>
    some (s.withInput { s.world.tr.mInput with mCallback := none },
      .unlock (match s.world.tr.mInput.mCallback with
        | some w => .notifying w
        | none => pc))
  | .waitFlags pc flags, none =>
    some (s.withInput { s.world.tr.mInput with mCallbackFlags := flags }, .unlock pc)
  | _, _ => none

/-- An iteration of the loop: the answer fits what was asked for, and nothing shared changes. -/
theorem inner_loop_cases {K : FetchCodes} {s s₁ : Shared} {i₁ : Inside} {ccnfs : Obj} {count : Nat}
    {st : ReadSt} {a : Answer} (h : inner K s (.loop ccnfs count st) (some a) = some (s₁, i₁)) :
    a.read.res ≤ count ∧ s₁ = s ∧
      ((∃ res, a.ends K = some res ∧ i₁ = .release ccnfs res (st.iter K count a)) ∨
        a.ends K = none ∧ i₁ = .loop ccnfs count (st.iter K count a)) := by
  by_cases hle : a.read.res ≤ count
  · cases (if_pos hle).symm.trans h
    refine ⟨hle, rfl, ?_⟩
    cases a.ends K with
    | some res => exact .inl ⟨res, rfl, rfl⟩
    | none => exact .inr ⟨rfl, rfl⟩
  · cases (if_neg hle).symm.trans h

/-- `AsyncWait` stores what its allocation has given it, or leaves with the error. -/
theorem inner_install_eq (K : FetchCodes) (s : Shared) (pc : Pc) (args : WaitArgs) :
    inner K s (.install pc args) none = match args.temp with
      | .error _ => some (s, .unlock pc)
      | .ok temp =>
        some (s.withInput { s.world.tr.mInput with mCallback := temp }, .waitTest pc args) := rfl

def leave : Inside → Option Pc
  | .unlock pc => some pc
  | .closing [] pc => some pc
  | _ => none

def outer (K : FetchCodes) (s : Shared) : Pc → Outer → Option (Shared × Pc)
  | .storing res st, .readStore =>
    some (s.withTr (readStore K s.world.tr res st.countRead), .returning st)
  | .returning st, .readReturn =>
    some (s, .returned (readReturn s.world.tr) st.countRead)
  | .notifying w, .notify => some ({ s with invoked := s.invoked ++ [w] }, .idle)
  | _, _ => none

/-- The methods of `nsCCNxInputStream`, around `mLock`. -/
def code (K : FetchCodes) :
    Lock.Code Shared Pc Inside Entry (Option Answer) Outer where
  enter := enter
  inner := inner K
  leave := leave
  outer := outer K

abbrev State := Lock.State Shared Pc Inside
abbrev Act := Lock.Act Entry (Option Answer) Outer

/-- A transport after its `Init`, whatever that returned, and `n` threads. -/
def start (env : InitEnv) (ccnxName : String) (n : Nat) : State :=
  { shared := { world := (({} : World).init env ccnxName).2 }
    threads := List.replicate n .idle }

/-- The same with a section as one step: the state of `Transport/System.lean`. -/
def sys (s : Shared) (threads : List Pc) : Sys :=
  { world := s.world, threads, invoked := s.invoked }

end Transport.Locked
