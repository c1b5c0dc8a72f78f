/-!
# The result codes of XPCOM

`nsresult` is an unsigned 32-bit number; its top bit says failure. The constants are those the
ccnx code uses, with the values of `nsError.h` and `nsNetError.h`, and those of the module
`NS_ERROR_MODULE_CCNX` that `nsCCNxError.h` adds.
-/

set_option autoImplicit false

namespace Xpcom

abbrev NsResult := UInt32

/-- `NS_FAILED`. -/
def nsFailed (rv : NsResult) : Bool := rv &&& 0x80000000 != 0

/-- `NS_SUCCEEDED`. -/
def nsSucceeded (rv : NsResult) : Bool := !nsFailed rv

/-- `NS_ERROR_GENERATE_FAILURE`; `0x45` is `NS_ERROR_MODULE_BASE_OFFSET`. -/
def nsErrorGenerateFailure (module code : UInt32) : NsResult :=
  (0x80000000 : UInt32) ||| (module + 0x45) <<< 16 ||| code

def nsOk : NsResult := 0
def nsErrorFailure : NsResult := 0x80004005
def nsErrorAbort : NsResult := 0x80004004
def nsErrorNotImplemented : NsResult := 0x80004001
def nsErrorUnexpected : NsResult := 0x8000FFFF
def nsErrorInvalidArg : NsResult := 0x80070057
def nsErrorNotInitialized : NsResult := 0xC1F30001

/-- `NS_ERROR_MODULE_BASE` is 39, `NS_ERROR_MODULE_NETWORK` is 6. -/
def nsBaseStreamClosed : NsResult := nsErrorGenerateFailure 39 2
def nsBaseStreamWouldBlock : NsResult := nsErrorGenerateFailure 39 7
def nsErrorConnectionRefused : NsResult := nsErrorGenerateFailure 6 13
def nsErrorNetTimeout : NsResult := nsErrorGenerateFailure 6 14

/-! ## The module of nsCCNxError.h -/

def nsErrorModuleCcnx : UInt32 := 217

def nsErrorCcnxUnavail : NsResult := nsErrorGenerateFailure nsErrorModuleCcnx 1
def nsErrorCcnxInvalidName : NsResult := nsErrorGenerateFailure nsErrorModuleCcnx 2
def nsErrorCcnxUnknownFailure : NsResult := nsErrorGenerateFailure nsErrorModuleCcnx 4

/-- `nsCString::Trim`, leading only: without the longest prefix of characters of the set. -/
def trimLeading (set s : String) : String := .ofList (s.toList.dropWhile (· ∈ set.toList))

/-- `Trim` of the characters of a string with that string in front goes past it. -/
theorem trimLeading_append (set s : String) : trimLeading set (set ++ s) = trimLeading set s := by
  unfold trimLeading
  rw [String.toList_append, List.dropWhile_append_of_pos fun c hc => by simpa using hc]

/-- `Trim` leaves a string alone exactly if its first character is not of the set. -/
theorem trimLeading_eq_self_iff (set s : String) :
    trimLeading set s = s ↔ ∀ c ∈ s.toList.head?, c ∉ set.toList := by
  rw [trimLeading, ← String.toList_inj, String.toList_ofList]
  cases s.toList with
  | nil => simp
  | cons c cs =>
    by_cases hc : c ∈ set.toList
    · -- what is left is shorter
      have hlen : (cs.dropWhile (· ∈ set.toList)).length ≤ cs.length :=
        (List.dropWhile_suffix _).length_le
      rw [List.dropWhile_cons_of_pos (by simpa using hc)]
      refine iff_of_false (fun he => ?_) (fun hall => hall c rfl hc)
      rw [he, List.length_cons] at hlen
      omega
    · rw [List.dropWhile_cons_of_neg (by simpa using hc)]
      refine iff_of_true rfl fun d hd => ?_
      cases hd
      exact hc

/-! ## Which of them are failures -/

/-- Whatever `NS_ERROR_GENERATE_FAILURE` builds has the failure bit. -/
theorem failed_generate (module code : UInt32) :
    nsFailed (nsErrorGenerateFailure module code) = true := by
  simp only [nsFailed, nsErrorGenerateFailure, bne_iff_ne, ne_eq]
  intro h
  have h31 := congrArg (fun x : UInt32 => x.toBitVec.getLsbD 31) h
  simp at h31

@[simp] theorem failed_ok : nsFailed nsOk = false := by decide
@[simp] theorem failed_unexpected : nsFailed nsErrorUnexpected = true := by decide
@[simp] theorem failed_closed : nsFailed nsBaseStreamClosed = true := failed_generate _ _
@[simp] theorem failed_refused : nsFailed nsErrorConnectionRefused = true := failed_generate _ _
@[simp] theorem failed_netTimeout : nsFailed nsErrorNetTimeout = true := failed_generate _ _
@[simp] theorem failed_unavail : nsFailed nsErrorCcnxUnavail = true := failed_generate _ _
@[simp] theorem failed_invalidName : nsFailed nsErrorCcnxInvalidName = true := failed_generate _ _
@[simp] theorem failed_unknownFailure : nsFailed nsErrorCcnxUnknownFailure = true :=
  failed_generate _ _

end Xpcom
