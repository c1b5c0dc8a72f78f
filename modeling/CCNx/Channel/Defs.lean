import CCNx.Xpcom

/-!
# nsCCNxChannel: fields and methods

A channel opens its content stream, has an `nsInputStreamPump` read it, and forwards the pump's
events to its listener. A handler is given in the part before the listener is called and the part
after it, since the listener may call the channel in between; a call through a null member is
`none`. Pumps are numbered in the order in which they were started.
-/

set_option autoImplicit false

namespace Channel

open Xpcom

abbrev PumpId := Nat
abbrev Listener := Nat
abbrev Context := Nat
abbrev LoadGroup := Nat
abbrev Callbacks := Nat

/-- `UNKNOWN_CONTENT_TYPE`. -/
def unknownContentType : String := "application/x-unknown-content-type"

structure NsCCNxChannel where
  mPump : Option PumpId := none
  /-- No code assigns it. -/
  mTransport : Option Nat := none
  mStatus : NsResult := nsOk
  mLoadGroup : Option LoadGroup := none
  mCallbacks : Option Callbacks := none
  mProgressSink : Option Nat := none
  mQueriedProgressSink : Bool := true
  mContentType : String := unknownContentType
  mListener : Option Listener := none
  mListenerContext : Option Context := none
  deriving DecidableEq, Repr

/-- What `BeginPumpingData` gets from `OpenContentStream`, `nsInputStreamPump::Create` and
`AsyncRead`. -/
structure OpenEnv where
  openContentStream : NsResult := nsOk
  create : NsResult := nsOk
  asyncRead : NsResult := nsOk

/-- All three succeed, so that a pump is started. -/
def OpenEnv.started (env : OpenEnv) : Bool :=
  nsSucceeded env.openContentStream && nsSucceeded env.create && nsSucceeded env.asyncRead

inductive Event
  | start
  | data (offset count : Nat)
  | stop (status : NsResult)
  deriving DecidableEq, Repr

/-- A call of the listener. -/
structure Forward where
  listener : Listener
  context : Option Context
  event : Event
  deriving DecidableEq, Repr

namespace NsCCNxChannel

def isPending (c : NsCCNxChannel) : Bool := c.mPump.isSome

/-- `GetStatus`. -/
def getStatus (c : NsCCNxChannel) : NsResult × NsResult := (nsOk, c.mStatus)

def callbacksChanged (c : NsCCNxChannel) : NsCCNxChannel :=
  { c with mProgressSink := none, mQueriedProgressSink := false }

def setLoadGroup (c : NsCCNxChannel) (group : Option LoadGroup) : NsCCNxChannel :=
  { c with mLoadGroup := group }.callbacksChanged

def setNotificationCallbacks (c : NsCCNxChannel) (callbacks : Option Callbacks) : NsCCNxChannel :=
  { c with mCallbacks := callbacks }.callbacksChanged

/-- `BeginPumpingData`; `pump` is the pump that `Create` makes. `getter_AddRefs` has cleared
`mPump` when the creation fails. -/
def beginPumpingData (c : NsCCNxChannel) (env : OpenEnv) (pump : PumpId) :
    NsResult × NsCCNxChannel :=
  if nsFailed env.openContentStream then (env.openContentStream, c)
  else if nsFailed env.create then (env.create, { c with mPump := none })
  else (env.asyncRead, { c with mPump := some pump })

/-- `AsyncOpen`. -/
def asyncOpen (c : NsCCNxChannel) (listener : Option Listener) (ctxt : Option Context)
    (env : OpenEnv) (pump : PumpId) : NsResult × NsCCNxChannel :=
  let (rv, c) :=
    { c with mListener := listener, mListenerContext := ctxt }.beginPumpingData env pump
  if nsFailed rv then
    (rv, { c with mPump := none, mListener := none, mListenerContext := none, mCallbacks := none })
  else (nsOk, c)

theorem asyncOpen_started (c : NsCCNxChannel) (listener : Option Listener) (ctxt : Option Context)
    {env : OpenEnv} (pump : PumpId) (h : env.started = true) :
    c.asyncOpen listener ctxt env pump =
      (nsOk, { c with mPump := some pump, mListener := listener, mListenerContext := ctxt }) := by
  simp only [OpenEnv.started, nsSucceeded, Bool.and_eq_true, Bool.not_eq_true'] at h
  obtain ⟨⟨h1, h2⟩, h3⟩ := h
  simp only [asyncOpen, beginPumpingData, h1, h2, h3, Bool.false_eq_true, ↓reduceIte]

theorem asyncOpen_failed (c : NsCCNxChannel) (listener : Option Listener) (ctxt : Option Context)
    {env : OpenEnv} (pump : PumpId) (h : env.started = false) :
    nsFailed (c.asyncOpen listener ctxt env pump).1 = true ∧
      (c.asyncOpen listener ctxt env pump).2 = { c with
        mPump := none, mListener := none, mListenerContext := none, mCallbacks := none } := by
  cases h1 : nsFailed env.openContentStream with
  | true => simp [asyncOpen, beginPumpingData, h1]
  | false =>
    cases h2 : nsFailed env.create with
    | true => simp [asyncOpen, beginPumpingData, h1, h2]
    | false =>
      have h3 : nsFailed env.asyncRead = true := by
        simpa [OpenEnv.started, nsSucceeded, h1, h2] using h
      simp [asyncOpen, beginPumpingData, h1, h2, h3]

/-- `Cancel`; `transport` is what `mTransport->Cancel` returns. -/
def cancel (c : NsCCNxChannel) (status transport : NsResult) : NsResult × NsCCNxChannel :=
  (if c.mTransport.isSome then transport else nsErrorFailure, { c with mStatus := status })

/-- `OnStartRequest` up to the call of the listener; `sniffed` is the content type that
`CallUnknownTypeSniffer` sets, if it does. -/
def onStartRequest (c : NsCCNxChannel) (sniffed : Option String) :
    Option (Forward × NsCCNxChannel) :=
  let peek := nsSucceeded c.mStatus && c.mContentType == unknownContentType
  if peek && !c.mPump.isSome then none
  else
    let c := if peek then { c with mContentType := sniffed.getD c.mContentType } else c
    c.mListener.map fun l => (⟨l, c.mListenerContext, .start⟩, c)

/-- With a listener and a pump, `OnStartRequest` changes at most the content type. -/
theorem onStartRequest_eq {c : NsCCNxChannel} {l : Listener} (sniffed : Option String)
    (hl : c.mListener = some l) (hp : c.mPump ≠ none) :
    ∃ type, c.onStartRequest sniffed =
      some (⟨l, c.mListenerContext, .start⟩, { c with mContentType := type }) := by
  have hp' : c.mPump.isSome = true := Option.isSome_iff_ne_none.2 hp
  unfold onStartRequest
  simp only [hp', Bool.not_true, Bool.and_false, Bool.false_eq_true, ↓reduceIte]
  split
  · exact ⟨_, by rw [hl]; rfl⟩
  · exact ⟨c.mContentType, by rw [hl, Option.map_some, ← hl]⟩

theorem onStartRequest_event {c c' : NsCCNxChannel} {sniffed : Option String} {call : Forward}
    (h : c.onStartRequest sniffed = some (call, c')) : call.event = .start := by
  unfold onStartRequest at h
  dsimp only at h
  split at h
  · cases h
  · obtain ⟨l, -, he⟩ := Option.map_eq_some_iff.1 h
    cases he
    rfl

theorem onStartRequest_mStatus {c c' : NsCCNxChannel} {sniffed : Option String} {call : Forward}
    (h : c.onStartRequest sniffed = some (call, c')) : c'.mStatus = c.mStatus := by
  unfold onStartRequest at h
  dsimp only at h
  split at h
  · cases h
  · obtain ⟨l, -, he⟩ := Option.map_eq_some_iff.1 h
    cases he
    split <;> rfl

/-- `OnDataAvailable` up to the call of the listener. -/
def onDataAvailable (c : NsCCNxChannel) (offset count : Nat) : Option Forward :=
  c.mListener.map fun l => ⟨l, c.mListenerContext, .data offset count⟩

theorem onDataAvailable_eq {c : NsCCNxChannel} {l : Listener} (offset count : Nat)
    (hl : c.mListener = some l) :
    c.onDataAvailable offset count = some ⟨l, c.mListenerContext, .data offset count⟩ := by
  rw [onDataAvailable, hl]
  rfl

/-- `OnStopRequest` up to the call of the listener. -/
def onStopRequest (c : NsCCNxChannel) (status : NsResult) : Option (Forward × NsCCNxChannel) :=
  let c := { c with mStatus := if nsSucceeded c.mStatus then status else c.mStatus, mPump := none }
  c.mListener.map fun l => (⟨l, c.mListenerContext, .stop c.mStatus⟩, c)

theorem onStopRequest_eq {c : NsCCNxChannel} {l : Listener} (status : NsResult)
    (hl : c.mListener = some l) :
    c.onStopRequest status =
      let st := if nsSucceeded c.mStatus then status else c.mStatus
      some (⟨l, c.mListenerContext, .stop st⟩, { c with mStatus := st, mPump := none }) := by
  unfold onStopRequest
  dsimp only
  rw [hl, Option.map_some, ← hl]

/-- The rest of `OnStopRequest`; `RemoveRequest` is called on `mLoadGroup`, if there is one. -/
def onStopRequestEnd (c : NsCCNxChannel) : NsCCNxChannel :=
  { c with mListener := none, mListenerContext := none, mCallbacks := none }.callbacksChanged

end NsCCNxChannel

end Channel
