import CCNx.Error
import CCNx.Service.Defs

/-!
# nsCCNxTransport and its embedded nsCCNxInputStream

The members of both classes and the methods other than `Read` (`Transport/Read.lean`). libccn is
outside: the objects it hands out are numbered (`Obj`), `Libccn` records which of them have been
given back, and each of its results is a parameter of the method that asks for it. `World` puts the
transport and libccn side by side, with two pieces of history: how often `CCNX_Close` ran, and
whether the assertion of `CCNX_ReleaseLocked` ever failed.
-/

set_option autoImplicit false

namespace Transport

open Xpcom Service

/-! ## libccn's objects -/

/-- An object created by libccn, numbered in the order of creation. -/
abbrev Obj := Nat

structure Libccn where
  created : Nat := 0
  destroyed : List Obj := []
  deriving DecidableEq, Repr

namespace Libccn

/-- `ccn_create`, `ccn_charbuf_create`, `ccn_fetch_new`, and `ccn_fetch_open` when it succeeds:
the new object is number `created`. -/
def create (l : Libccn) : Libccn := { l with created := l.created + 1 }

/-- `ccn_destroy`, `ccn_charbuf_destroy`, `ccn_fetch_destroy` and `ccn_fetch_close`, which do
nothing on null. -/
def destroy (l : Libccn) : Option Obj → Libccn
  | none => l
  | some o => { l with destroyed := l.destroyed ++ [o] }

/-- Created and not given back. -/
def Live (l : Libccn) (o : Obj) : Prop := o < l.created ∧ o ∉ l.destroyed

/-- Everything libccn handed out has been given back. -/
def AllDestroyed (l : Libccn) : Prop := ∀ o, o < l.created → o ∈ l.destroyed

instance (l : Libccn) (o : Obj) : Decidable (l.Live o) :=
  inferInstanceAs (Decidable (o < l.created ∧ o ∉ l.destroyed))

instance (l : Libccn) : Decidable l.AllDestroyed :=
  inferInstanceAs (Decidable (∀ o, o < l.created → o ∈ l.destroyed))

end Libccn

/-! ## nsCCNxInputStream -/

abbrev Callback := Nat
abbrev Target := Nat

/-- What `mCallback` holds: the callback itself, or the event of `NS_NewInputStreamReadyEvent`
that calls it on a target. -/
inductive Waiter
  | callback (cb : Callback)
  | event (cb : Callback) (target : Target)
  deriving DecidableEq, Repr

structure NsCCNxInputStream where
  mReaderRefCnt : Nat := 0
  mByteCount : Nat := 0
  mCondition : NsResult := nsOk
  mCallback : Option Waiter := none
  mCallbackFlags : Nat := 0
  deriving DecidableEq, Repr

namespace NsCCNxInputStream

def isReferenced (s : NsCCNxInputStream) : Bool := 0 < s.mReaderRefCnt

/-- `CloseWithStatus`; it returns `NS_OK` in every case. -/
def closeWithStatus (s : NsCCNxInputStream) (reason : NsResult) : NsCCNxInputStream :=
  if nsSucceeded s.mCondition then { s with mCondition := reason } else s

/-- `CloseWithStatus` writes the condition, and only over a success. -/
theorem closeWithStatus_eq (s : NsCCNxInputStream) (reason : NsResult) :
    s.closeWithStatus reason =
      { s with mCondition := if nsFailed s.mCondition then s.mCondition else reason } := by
  unfold closeWithStatus nsSucceeded
  cases nsFailed s.mCondition <;> rfl

/-- What `AsyncWait` returns, the callback it invokes once it has dropped the lock, and the
stream. -/
structure AsyncWaitOut where
  rv : NsResult
  direct : Option Waiter
  stream : NsCCNxInputStream

/-- `AsyncWait`; `newEvent` is what `NS_NewInputStreamReadyEvent` returns. -/
def asyncWait (s : NsCCNxInputStream) (newEvent : NsResult) (callback : Option Callback)
    (flags : Nat) (target : Option Target) : AsyncWaitOut :=
  let install (w : Option Waiter) : AsyncWaitOut :=
    if nsFailed s.mCondition then
      { rv := if w.isSome then nsOk else nsErrorNotImplemented, direct := w,
        stream := { s with mCallback := none } }
    else
      { rv := nsErrorNotImplemented, direct := none,
        stream := { s with mCallback := w, mCallbackFlags := flags } }
  match callback, target with
  | some cb, some tgt =>
    if nsFailed newEvent then { rv := newEvent, direct := none, stream := s }
    else install (some (.event cb tgt))
  | some cb, none => install (some (.callback cb))
  | none, _ => install none

end NsCCNxInputStream

/-! ## nsCCNxTransport -/

/-- The input end of a pipe made by `NS_NewPipe2`. -/
abbrev PipeId := Nat

structure NsCCNxTransport where
  mCCNx : Option Obj := none
  mCCNxFetch : Option Obj := none
  mCCNxName : Option Obj := none
  mCCNxTmpl : Option Obj := none
  mCCNxStream : Option Obj := none
  mCCNxRef : Nat := 0
  mCCNxOnline : Bool := false
  mInputClosed : Bool := true
  mInput : NsCCNxInputStream := {}
  mService : Option NsCCNxTransportService := none
  mRefCnt : Nat := 0
  /-- History: the pipes that `NS_AsyncCopy` agreed to fill from `mInput`. -/
  copies : List PipeId := []
  deriving DecidableEq, Repr

structure World where
  tr : NsCCNxTransport := {}
  lib : Libccn := {}
  /-- How often `CCNX_Close` has run. -/
  closes : Nat := 0
  /-- The assertion "wrong ndn" of `CCNX_ReleaseLocked` has failed. -/
  wrongNdn : Bool := false
  deriving DecidableEq, Repr

/-- What the environment answers to `nsCCNxTransport::Init`: `NS_IsMainThread` and `NS_NewThread`
to the service's `Init`, then `ccn_connect`, `ccn_name_from_uri` and whether `ccn_fetch_open`
returns a stream. -/
structure InitEnv where
  onMain : Bool := true
  newThread : NsResult × Tid := (nsOk, 0)
  connect : Int := 0
  nameFromUri : String → Int := fun _ => 0
  fetchOpen : String → Bool := fun _ => true

/-- What the environment answers to `OpenInputStream`: `NS_NewPipe2`, and `NS_AsyncCopy` with the
number of references on `mInput` that a copier takes when it starts. -/
structure OpenEnv where
  newPipe2 : NsResult × PipeId := (nsOk, 0)
  asyncCopy : NsResult := nsOk
  copierRefs : Nat := 1

/-- The stream that `OpenInputStream` hands out. -/
inductive Opened
  | pipe (p : PipeId)
  | mInput
  deriving DecidableEq, Repr

namespace NsCCNxTransport

/-- References taken on `mInput`: `nsCCNxInputStream::AddRef` counts each on both objects. -/
def addRefInput (tr : NsCCNxTransport) (n : Nat) : NsCCNxTransport :=
  { tr with
    mInput := { tr.mInput with mReaderRefCnt := tr.mInput.mReaderRefCnt + n }
    mRefCnt := tr.mRefCnt + n }

def openBlocking : Nat := 1
def openUnbuffered : Nat := 2

/-- `OpenInputStream`. The result of `NS_AsyncCopy` is assigned and not tested. -/
def openInputStream (tr : NsCCNxTransport) (flags : Nat) (env : OpenEnv) :
    NsResult × Option Opened × NsCCNxTransport :=
  if tr.mInput.isReferenced then (nsErrorUnexpected, none, tr)
  else if flags &&& openUnbuffered = 0 ∨ flags &&& openBlocking ≠ 0 then
    if nsFailed env.newPipe2.1 then (env.newPipe2.1, none, tr)
    else
      let tr :=
        if nsFailed env.asyncCopy then tr
        else { tr.addRefInput env.copierRefs with copies := tr.copies ++ [env.newPipe2.2] }
      (nsOk, some (.pipe env.newPipe2.2), { tr with mInputClosed := false })
  else (nsOk, some .mInput, { tr.addRefInput 1 with mInputClosed := false })

/-- `OpenInputStream` changes the two counts, the copies and `mInputClosed` alone. -/
theorem openInputStream_keeps (tr : NsCCNxTransport) (flags : Nat) (env : OpenEnv) :
    ∃ n copies closed, (tr.openInputStream flags env).2.2 =
      { tr.addRefInput n with copies := copies, mInputClosed := closed } := by
  unfold openInputStream
  split
  · exact ⟨0, tr.copies, tr.mInputClosed, rfl⟩
  · split
    · split
      · exact ⟨0, tr.copies, tr.mInputClosed, rfl⟩
      · dsimp only
        split
        · exact ⟨0, tr.copies, false, rfl⟩
        · exact ⟨env.copierRefs, tr.copies ++ [env.newPipe2.2], false, rfl⟩
    · exact ⟨1, tr.copies, false, rfl⟩

/-- Without flags and with nobody holding the stream, it is the pipe that decides. -/
theorem openInputStream_pipe {tr : NsCCNxTransport} (h : tr.mInput.mReaderRefCnt = 0)
    (env : OpenEnv) :
    tr.openInputStream 0 env =
      if nsFailed env.newPipe2.1 then (env.newPipe2.1, none, tr)
      else
        (nsOk, some (.pipe env.newPipe2.2),
          { (if nsFailed env.asyncCopy then tr
              else { tr.addRefInput env.copierRefs with copies := tr.copies ++ [env.newPipe2.2] })
            with mInputClosed := false }) := by
  simp [openInputStream, NsCCNxInputStream.isReferenced, h]

/-- `Close`. -/
def close (tr : NsCCNxTransport) (reason : NsResult) : NsCCNxTransport :=
  { tr with
    mInput := tr.mInput.closeWithStatus (if nsSucceeded reason then nsBaseStreamClosed else reason)
    mInputClosed := true }

/-- `CCNX_GetLocked`; `mCCNxRef` is an unsigned 32-bit counter. -/
def ccnxGetLocked (tr : NsCCNxTransport) : Option Obj × NsCCNxTransport :=
  if !tr.mCCNxOnline then (none, tr)
  else if tr.mCCNxStream.isSome then
    (tr.mCCNxStream, { tr with mCCNxRef := (tr.mCCNxRef + 1) % 0x100000000 })
  else (none, tr)

/-- `~nsCCNxTransport`: the result of `mService->Shutdown()`, and the transport's end state. -/
def destruct (tr : NsCCNxTransport) (onMain : Bool) : Option NsResult × NsCCNxTransport :=
  match tr.mService with
  | none => (none, tr)
  | some svc => (some (svc.shutdown onMain).1, { tr with mService := some (svc.shutdown onMain).2 })

end NsCCNxTransport

namespace World

/-- `CCNX_Close`. `ccn_fetch_close` and `ccn_fetch_destroy` return null, `ccn_destroy` and
`ccn_charbuf_destroy` null their argument. -/
def ccnxClose (w : World) : World :=
  { w with
    tr := { w.tr with
      mCCNxStream := none, mCCNxFetch := none, mCCNx := none, mCCNxName := none, mCCNxTmpl := none
      mInputClosed := true }
    lib := ((((w.lib.destroy w.tr.mCCNxStream).destroy w.tr.mCCNxFetch).destroy w.tr.mCCNx).destroy
      w.tr.mCCNxName).destroy w.tr.mCCNxTmpl
    closes := w.closes + 1 }

/-- `--` on an unsigned 32-bit counter. -/
def predU32 : Nat → Nat
  | 0 => 0xffffffff
  | n + 1 => n

theorem predU32_succ (n : Nat) : predU32 ((n + 1) % 0x100000000) = n % 0x100000000 := by
  cases h : (n + 1) % 0x100000000 with
  | zero => simp only [predU32]; omega
  | succ m => simp only [predU32]; omega

/-- `CCNX_ReleaseLocked`. -/
def ccnxReleaseLocked (w : World) (ccnfs : Obj) : World :=
  let w := { w with
    tr := { w.tr with mCCNxRef := predU32 w.tr.mCCNxRef }
    wrongNdn := w.wrongNdn || w.tr.mCCNxStream != some ccnfs }
  if w.tr.mCCNxRef = 0 then w.ccnxClose else w

/-- `ccn_create` and `ccn_connect`, undone when the connection fails. -/
def initConnect (w : World) (env : InitEnv) : NsResult × World :=
  let w := { w with tr := { w.tr with mCCNx := some w.lib.created }, lib := w.lib.create }
  if env.connect < 0 then
    (nsErrorCcnxUnavail,
      { w with tr := { w.tr with mCCNx := none }, lib := w.lib.destroy w.tr.mCCNx })
  else (nsOk, w)

/-- The name buffer, and everything undone when the name is not a ccnx URI. -/
def initName (w : World) (env : InitEnv) (ccnxName : String) : NsResult × World :=
  let w := { w with tr := { w.tr with mCCNxName := some w.lib.created }, lib := w.lib.create }
  if env.nameFromUri ccnxName < 0 then
    (nsErrorCcnxInvalidName,
      { w with
        tr := { w.tr with mCCNx := none, mCCNxName := none }
        lib := (w.lib.destroy w.tr.mCCNx).destroy w.tr.mCCNxName })
  else (nsOk, w)

/-- `ccn_fetch_new`, `CCNX_MakeTemplate` and `ccn_fetch_open`, whose null is not tested. -/
def initFetch (w : World) (env : InitEnv) (ccnxName : String) : World :=
  let w := { w with tr := { w.tr with mCCNxFetch := some w.lib.created }, lib := w.lib.create }
  let w := { w with tr := { w.tr with mCCNxTmpl := some w.lib.created }, lib := w.lib.create }
  let w :=
    if env.fetchOpen ccnxName then
      { w with tr := { w.tr with mCCNxStream := some w.lib.created }, lib := w.lib.create }
    else { w with tr := { w.tr with mCCNxStream := none } }
  { w with tr := { w.tr with mCCNxOnline := true } }

/-- `mService = new nsCCNxTransportService()`, whose `Init` is called and its result dropped. -/
def initService (w : World) (env : InitEnv) : World :=
  { w with tr := { w.tr with
    mService := some (({} : NsCCNxTransportService).init env.onMain env.newThread).2 } }

/-- `nsCCNxTransport::Init`. -/
def init (w : World) (env : InitEnv) (ccnxName : String) : NsResult × World :=
  let (rv, w) := (w.initService env).initConnect env
  if nsFailed rv then (rv, w)
  else
    let (rv, w) := w.initName env ccnxName
    if nsFailed rv then (rv, w)
    else (nsOk, w.initFetch env ccnxName)

/-- `new nsCCNxTransport`, with the reference that its creator takes. -/
def created : World := { tr := { mRefCnt := 1 } }

/-! ### The outcomes of Init -/

section
variable (w : World) (env : InitEnv) (ccnxName : String)

theorem init_connectFailed (hc : env.connect < 0) :
    w.init env ccnxName = (nsErrorCcnxUnavail, ((w.initService env).initConnect env).2) := by
  simp only [init, initConnect, if_pos hc, failed_unavail, ↓reduceIte]

theorem init_nameFailed (hc : ¬ env.connect < 0) (hn : env.nameFromUri ccnxName < 0) :
    w.init env ccnxName = (nsErrorCcnxInvalidName,
      (((w.initService env).initConnect env).2.initName env ccnxName).2) := by
  simp only [init, initConnect, initName, if_neg hc, if_pos hn, failed_ok, failed_invalidName,
    Bool.false_eq_true, ↓reduceIte]

theorem init_ok (hc : ¬ env.connect < 0) (hn : ¬ env.nameFromUri ccnxName < 0) :
    w.init env ccnxName = (nsOk,
      (((w.initService env).initConnect env).2.initName env ccnxName).2.initFetch env
        ccnxName) := by
  simp only [init, initConnect, initName, if_neg hc, if_neg hn, failed_ok, Bool.false_eq_true,
    ↓reduceIte]

/-- What `Init` does not touch, and the service that it leaves whatever it returns. -/
theorem init_keeps :
    (w.init env ccnxName).2.tr.mInput = w.tr.mInput ∧
      (w.init env ccnxName).2.tr.mRefCnt = w.tr.mRefCnt ∧
      (w.init env ccnxName).2.tr.mService =
        some (({} : NsCCNxTransportService).init env.onMain env.newThread).2 := by
  by_cases hc : env.connect < 0
  · rw [init_connectFailed w env ccnxName hc, initConnect, if_pos hc]
    exact ⟨rfl, rfl, rfl⟩
  · by_cases hn : env.nameFromUri ccnxName < 0
    · rw [init_nameFailed w env ccnxName hc hn, initConnect, if_neg hc, initName, if_pos hn]
      exact ⟨rfl, rfl, rfl⟩
    · rw [init_ok w env ccnxName hc hn, initConnect, if_neg hc, initName, if_neg hn, initFetch]
      cases env.fetchOpen ccnxName <;> exact ⟨rfl, rfl, rfl⟩

end

end World

end Transport
