import CCNx.Transport.Defs

/-!
# nsCCNxCore: fields and methods

The content stream of a channel. `AsyncWait` connects on the first call: `Connect` creates a
transport, opens its input stream and keeps the pipe that this hands out as `mDataStream`. A method
is given the results of what it calls outside (`Env`) and returns, next to its result, what it did
outside: the callback it dispatched, and how `mDataStream` answered an `AsyncWait`. The call of a
callback is the last thing that the method making it does, so what the callback calls on this
object in turn comes after that method.
-/

set_option autoImplicit false

namespace Core

open Xpcom Service Transport

/-- `_CCNX_STATE`. -/
inductive CcnxState
  | init
  | connect
  | error
  | complete
  deriving DecidableEq, Repr

/-- What `DispatchCallback` does with a callback: calls it, or has an event posted to the target
that calls it. -/
inductive Dispatch
  | called (cb : Callback)
  | posted (cb : Callback) (target : Option Target)
  deriving DecidableEq, Repr

structure NsCCNxCore where
  mInterest : String := ""
  mDataTransport : Option World := none
  mDataStream : Option Opened := none
  mState : CcnxState := .init
  mStatus : NsResult := nsOk
  mNonBlocking : Bool := true
  mCallback : Option Callback := none
  mCallbackTarget : Option Target := none
  deriving DecidableEq, Repr

/-- What the environment answers: to `Connect`, to `mDataStream->AsyncWait`, and whether
`NS_NewInputStreamReadyEvent` hands out an event. -/
structure Env where
  init : InitEnv := {}
  openInput : OpenEnv := {}
  dataWait : NsResult := nsOk
  event : Bool := true

/-- `CreateTransport`; `new` does not return null, and the one reference taken here ends up in
`mDataTransport`. -/
def createTransport (env : InitEnv) (interest : String) : NsResult × Option World :=
  let (rv, w) := World.created.init env interest
  if nsFailed rv then (rv, none) else (nsOk, some w)

namespace NsCCNxCore

def isClosed (c : NsCCNxCore) : Bool := nsFailed c.mStatus

def hasPendingCallback (c : NsCCNxCore) : Bool := c.mCallback.isSome

/-- `Init`; `spec` is what `GetAsciiSpec` returns and stores. -/
def init (c : NsCCNxCore) (spec : NsResult × String) : NsResult × NsCCNxCore :=
  let c := { c with mInterest := trimLeading "ccnx:" spec.2 }
  if nsFailed spec.1 then (spec.1, c) else (nsOk, c)

/-- `DispatchCallback`. -/
def dispatchCallback (c : NsCCNxCore) (async event : Bool) : Option Dispatch × NsCCNxCore :=
  match c.mCallback with
  | none => (none, c)
  | some cb =>
    if async && !event then (none, c)
    else
      (some (if async then .posted cb c.mCallbackTarget else .called cb),
        { c with mCallback := none, mCallbackTarget := none })

/-- `Connect`. -/
def connect (c : NsCCNxCore) (env : Env) : CcnxState × NsCCNxCore :=
  match createTransport env.init c.mInterest with
  | (_, none) => (.error, c)
  | (_, some w) =>
    let (rv, input, tr) := w.tr.openInputStream 0 env.openInput
    let c := { c with mDataTransport := some { w with tr } }
    if nsFailed rv then (.error, c) else (.connect, { c with mDataStream := input })

/-- `OnCallbackPending`, with what `mDataStream->AsyncWait` returned if it was called. -/
def onCallbackPending (c : NsCCNxCore) (env : Env) : Option NsResult × NsCCNxCore :=
  let c := if c.mState = .init then { (c.connect env).2 with mState := (c.connect env).1 } else c
  (if c.mState = .connect ∧ c.mDataStream.isSome then some env.dataWait else none, c)

/-- What a method returns, the callback it dispatched, what `mDataStream->AsyncWait` returned to
it, and the transport that it closed and let go of. -/
structure Out where
  rv : NsResult
  core : NsCCNxCore
  dispatch : Option Dispatch := none
  wait : Option NsResult := none
  closed : Option World := none

/-- `CloseWithStatus`. -/
def closeWithStatus (c : NsCCNxCore) (reason : NsResult) (env : Env) : Out :=
  let closed := c.mDataTransport.map fun w => { w with tr := w.tr.close nsErrorAbort }
  let c := { c with mDataTransport := none, mDataStream := none }
  if c.isClosed then { rv := nsOk, core := c, closed }
  else if nsSucceeded reason then { rv := nsErrorInvalidArg, core := c, closed }
  else
    let (dispatch, c) := { c with mStatus := reason }.dispatchCallback true env.event
    { rv := nsOk, core := c, dispatch, closed }

/-- `Close`. -/
def close (c : NsCCNxCore) (env : Env) : Out :=
  if c.isClosed then { rv := nsOk, core := c } else c.closeWithStatus nsBaseStreamClosed env

/-- `AsyncWait`. -/
def asyncWait (c : NsCCNxCore) (callback : Option Callback) (target : Option Target) (env : Env) :
    Out :=
  let c := { c with mCallback := callback, mCallbackTarget := target }
  if !c.hasPendingCallback then { rv := nsOk, core := c }
  else if c.isClosed then
    let (dispatch, c) := c.dispatchCallback true env.event
    { rv := nsOk, core := c, dispatch }
  else
    let (wait, c) := c.onCallbackPending env
    { rv := nsOk, core := c, wait }

/-- `OnInputStreamReady`. -/
def onInputStreamReady (c : NsCCNxCore) : Out :=
  if c.hasPendingCallback then
    let (dispatch, c) := c.dispatchCallback false true
    { rv := nsOk, core := c, dispatch }
  else { rv := nsOk, core := c }

/-- `Available`; `data` is what `mDataStream->Available` answers. -/
def available (c : NsCCNxCore) (data : NsResult × Nat) : NsResult × Nat :=
  if c.mDataStream.isSome then data else (c.mStatus, 0)

/-- `ReadSegments`, and `Read`; `data` is what `mDataStream->ReadSegments` answers. -/
def readSegments (c : NsCCNxCore) (data : NsResult × Nat) : NsResult × Nat :=
  if c.mDataStream.isSome then data
  else if c.mStatus = nsBaseStreamClosed then (nsOk, 0)
  else if !c.isClosed && c.mNonBlocking then (nsBaseStreamWouldBlock, 0)
  else (c.mStatus, 0)

end NsCCNxCore

end Core
