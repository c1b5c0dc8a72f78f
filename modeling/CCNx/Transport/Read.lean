import CCNx.Lib.Overlay
import CCNx.Transport.Defs

/-!
# nsCCNxInputStream::Read

The method in its three parts: the first locked section (`readCheck`), the second with the read
loop (`readSection`), and what follows without the lock (`readStore`, `readReturn`); `read` is the
whole of it with nothing running in between. libccn's part in a call is a script, one `Answer` for
each iteration of the loop: what `ccn_fetch_read` gives there, and what `ccn_run` returns if the
iteration calls it. A script that is used up while the loop still goes on gives no result.
-/

set_option autoImplicit false

namespace Transport

open Xpcom

/-- One result of `ccn_fetch_read(ccnfs, buf, count)`, with the content bytes it has stored at
`buf[0 .. res)` if it is positive. -/
structure FetchRead where
  res : Int
  bytes : List UInt8
  stored : bytes.length = res.toNat

/-- The answers of one iteration of the read loop. -/
structure Answer where
  read : FetchRead
  run : Int := 0

/-- A positive result that delivers the given bytes. -/
def Answer.data (bytes : List UInt8) : Answer := { read := ⟨bytes.length, bytes, by simp⟩ }

/-- A result that delivers nothing: the end of the content, or a negative code. -/
def Answer.code (res : Int) (run : Int) (h : res ≤ 0 := by decide) : Answer :=
  { read := ⟨res, [], by simp; omega⟩, run }

/-- The end of the content. -/
def Answer.ended : Answer := .code 0 0

/-- `CCN_FETCH_READ_NONE`. -/
def Answer.nothing (K : FetchCodes) (run : Int) : Answer :=
  .code K.readNone run (Int.le_of_lt K.none_neg)

/-- `CCN_FETCH_READ_TIMEOUT`. -/
def Answer.timedOut (K : FetchCodes) (run : Int) : Answer :=
  .code K.readTimeout run (Int.le_of_lt K.timeout_neg)

/-- The calls of the read loop into libccn: `ccn_fetch_read` with the length it is given. -/
inductive Call
  | fetchRead (len : Nat) (r : FetchRead)
  | run (res : Int)
  | resetTimeout

/-- The content bytes that the successful `ccn_fetch_read` calls delivered, in order. -/
def delivered (calls : List Call) : List UInt8 :=
  calls.flatMap fun
    | .fetchRead _ r => r.bytes
    | _ => []

/-- The local state of the loop: the caller's buffer, `*countRead` (a `PRUint32`), and the calls
made so far. -/
structure ReadSt where
  buf : List UInt8
  countRead : Nat := 0
  calls : List Call := []

namespace ReadSt

/-- `ccn_fetch_read` writes at the front of the buffer it is given. -/
def fetched (st : ReadSt) (len : Nat) (r : FetchRead) : ReadSt :=
  { st with buf := Overlay.put st.buf r.bytes, calls := st.calls ++ [.fetchRead len r] }

def ran (st : ReadSt) (res : Int) : ReadSt := { st with calls := st.calls ++ [.run res] }

def timeoutReset (st : ReadSt) : ReadSt := { st with calls := st.calls ++ [.resetTimeout] }

/-- `*countRead += res`. -/
def advance (st : ReadSt) (res : Int) : ReadSt :=
  { st with countRead := (st.countRead + res.toNat) % 0x100000000 }

end ReadSt

/-- The read loop: its state and `res` when it ends, and the answers it did not use. The pointer
and the length given to `ccn_fetch_read` are `buf` and `count` every time. -/
def readLoop (K : FetchCodes) (count : Nat) :
    List Answer → ReadSt → Option (ReadSt × Int × List Answer)
  | [], _ => none
  | a :: rest, st =>
    let st := st.fetched count a.read
    if a.read.res = 0 then some (st, 0, rest)
    else if 0 < a.read.res then readLoop K count rest (st.advance a.read.res)
    else if a.read.res = K.readNone then
      -- a failed `ccn_run` sets `res` to the code it has, and there is no `break`
      readLoop K count rest (st.ran a.run)
    else if a.read.res = K.readTimeout then
      if a.run < 0 then some (st.timeoutReset.ran a.run, K.readNone, rest)
      else readLoop K count rest (st.timeoutReset.ran a.run)
    else some (st, a.read.res, rest)

/-- The first locked section: a result to return at once, or the fetch stream. -/
def readCheck (tr : NsCCNxTransport) : Except NsResult Obj × NsCCNxTransport :=
  if nsFailed tr.mInput.mCondition then
    (.error (if tr.mInput.mCondition = nsBaseStreamClosed then nsOk else tr.mInput.mCondition), tr)
  else
    match tr.ccnxGetLocked with
    | (none, tr) => (.error nsBaseStreamClosed, tr)
    | (some ccnfs, tr) => (.ok ccnfs, tr)

/-- On an open stream with a live fetch stream, `readCheck` goes on to the reading section. -/
theorem readCheck_open {tr : NsCCNxTransport} {f : Obj}
    (hcond : nsFailed tr.mInput.mCondition = false) (honline : tr.mCCNxOnline = true)
    (hstream : tr.mCCNxStream = some f) :
    readCheck tr = (.ok f, { tr with mCCNxRef := (tr.mCCNxRef + 1) % 0x100000000 }) := by
  simp [readCheck, NsCCNxTransport.ccnxGetLocked, hcond, honline, hstream]

/-- The second locked section. -/
def readSection (K : FetchCodes) (w : World) (ccnfs : Obj) (buf : List UInt8) (count : Nat)
    (answers : List Answer) : Option (ReadSt × Int × List Answer × World) :=
  (readLoop K count answers { buf }).map fun (st, res, rest) =>
    (st, res, rest, w.ccnxReleaseLocked ccnfs)

/-- The two assignments without the lock. -/
def readStore (K : FetchCodes) (tr : NsCCNxTransport) (res : Int) (countRead : Nat) :
    NsCCNxTransport :=
  { tr with mInput := { tr.mInput with
    mCondition := errorAccordingToCCNX K res, mByteCount := countRead } }

/-- `rv = mCondition`. -/
def readReturn (tr : NsCCNxTransport) : NsResult := tr.mInput.mCondition

/-- What a call of `Read` leaves behind: its result, the caller's buffer and `*countRead`, its
calls into libccn, and the answers it did not use. -/
structure ReadOut where
  rv : NsResult
  st : ReadSt
  rest : List Answer
  world : World

/-- `Read` with no other thread at work on the stream. -/
def read (K : FetchCodes) (w : World) (buf : List UInt8) (count : Nat) (answers : List Answer) :
    Option ReadOut :=
  match readCheck w.tr with
  | (.error rv, tr) => some { rv, st := { buf }, rest := answers, world := { w with tr } }
  | (.ok ccnfs, tr) =>
    (readSection K { w with tr } ccnfs buf count answers).map fun (st, res, rest, w) =>
      let tr := readStore K w.tr res st.countRead
      { rv := readReturn tr, st, rest, world := { w with tr } }

end Transport
