import CCNx.Xpcom

/-!
# nsCCNxTransportService: fields and methods

The service owns the thread that the copies run on. `Shutdown` is given both whole (`shutdown`)
and as the three writes it is made of, since the service thread runs between them; `Run` is given
by its positions (`RunPc`) and what each of its steps does (`Service/System.lean`).
-/

set_option autoImplicit false

namespace Service

open Xpcom

/-- The thread that one `NS_NewThread` created. -/
abbrev Tid := Nat

structure NsCCNxTransportService where
  mThread : Option Tid := none
  mInitialized : Bool := false
  mShuttingDown : Bool := false
  deriving DecidableEq, Repr

namespace NsCCNxTransportService

/-- `Init`, called on the main thread or not; `newThread` is what `NS_NewThread` returns and the
thread it creates. `getter_AddRefs` has cleared `mThread` when the creation fails. -/
def init (onMain : Bool) (newThread : NsResult × Tid) (s : NsCCNxTransportService) :
    NsResult × NsCCNxTransportService :=
  if !onMain then (nsErrorUnexpected, s)
  else if s.mInitialized then (nsOk, s)
  else if s.mShuttingDown then (nsErrorUnexpected, s)
  else if nsFailed newThread.1 then (newThread.1, { s with mThread := none })
  else (nsOk, { s with mThread := some newThread.2, mInitialized := true })

/-! ## Shutdown -/

/-- The locked write of `mShuttingDown`. -/
def raiseShuttingDown (s : NsCCNxTransportService) : NsCCNxTransportService :=
  { s with mShuttingDown := true }

/-- `mThread = nsnull`; the join with the thread before it is commented out. -/
def clearThread (s : NsCCNxTransportService) : NsCCNxTransportService := { s with mThread := none }

/-- The final resets of `mInitialized` and `mShuttingDown`. -/
def resetFlags (s : NsCCNxTransportService) : NsCCNxTransportService :=
  { s with mInitialized := false, mShuttingDown := false }

/-- `Shutdown` with nothing running between its writes. -/
def shutdown (onMain : Bool) (s : NsCCNxTransportService) : NsResult × NsCCNxTransportService :=
  if !onMain then (nsErrorUnexpected, s)
  else if !s.mInitialized then (nsOk, s)
  else if s.mShuttingDown then (nsErrorUnexpected, s)
  else (nsOk, s.raiseShuttingDown.clearThread.resetFlags)

/-! ## Dispatch -/

/-- `GetThreadSafely`, the locked read of `mThread`. -/
def getThreadSafely (s : NsCCNxTransportService) : Option Tid := s.mThread

/-- What `Dispatch` returns for the result of `thread->Dispatch`. -/
def dispatchResult (rv : NsResult) : NsResult :=
  if rv = nsErrorUnexpected then nsErrorNotInitialized else rv

/-- `Init` does not touch `mShuttingDown`. -/
theorem init_mShuttingDown (onMain : Bool) (newThread : NsResult × Tid)
    (s : NsCCNxTransportService) :
    (s.init onMain newThread).2.mShuttingDown = s.mShuttingDown := by
  unfold init
  split
  · rfl
  · split
    · rfl
    · split
      · rfl
      · split <;> rfl

/-- An `Init` that succeeds on a new service leaves it with a thread. -/
theorem init_mThread {onMain : Bool} {newThread : NsResult × Tid}
    (h : nsFailed (({} : NsCCNxTransportService).init onMain newThread).1 = false) :
    (({} : NsCCNxTransportService).init onMain newThread).2.mThread = some newThread.2 := by
  cases onMain with
  | false => simp [init] at h
  | true =>
    cases hrv : nsFailed newThread.1 with
    | true => simp [init, hrv] at h
    | false => simp [init, hrv]

end NsCCNxTransportService

end Service
