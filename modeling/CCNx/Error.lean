import CCNx.Xpcom

/-!
# nsCCNxError: the status that a fetch result stands for

`ccn_fetch_read` answers with one `int`: a byte count, `CCN_FETCH_READ_END` (0), or one of the
negative codes of `ccn/fetch.h`. The values of the two codes that the repository names are a
parameter (`FetchCodes`): that header is not part of it.
-/

set_option autoImplicit false

namespace Xpcom

/-- `CCN_FETCH_READ_NONE` and `CCN_FETCH_READ_TIMEOUT`: two negative codes, distinct because
`ErrorAccordingToCCNX` has a `case` for each. -/
structure FetchCodes where
  readNone : Int
  readTimeout : Int
  none_neg : readNone < 0
  timeout_neg : readTimeout < 0
  ne : readNone ≠ readTimeout

/-- A choice of the two codes, for runs on fixed inputs. -/
def fetchCodes : FetchCodes := ⟨-1, -2, by decide, by decide, by decide⟩

/-- `ErrorAccordingToCCNX`. -/
def errorAccordingToCCNX (K : FetchCodes) (errorCode : Int) : NsResult :=
  if 0 ≤ errorCode then nsOk
  else if errorCode = K.readNone then nsErrorConnectionRefused
  else if errorCode = K.readTimeout then nsErrorNetTimeout
  else nsErrorCcnxUnknownFailure

variable (K : FetchCodes)

theorem errorAccordingToCCNX_nonneg {res : Int} (h : 0 ≤ res) :
    errorAccordingToCCNX K res = nsOk := by
  simp [errorAccordingToCCNX, h]

/-- Exactly the negative results stand for a failure. -/
theorem failed_errorAccordingToCCNX (res : Int) :
    nsFailed (errorAccordingToCCNX K res) = true ↔ res < 0 := by
  unfold errorAccordingToCCNX
  split
  · simp; omega
  · have hneg : res < 0 := by omega
    split
    · simp [hneg]
    · split <;> simp [hneg]

end Xpcom
