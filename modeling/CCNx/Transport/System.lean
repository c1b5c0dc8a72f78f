import CCNx.Lib.Runs
import CCNx.Transport.Read

/-!
# Threads on one transport, interleaved

Any number of threads call the methods of one transport and of its input stream after its one
`Init`. Each section under `mLock` is one step, and so is each piece of a method between two of
them: a `Read` is `readCheck`, `readSection`, `readStore` and `readReturn`. The reading section is
a step once its loop has ended, with a script that the loop used up exactly and in which libccn
keeps its promise that a positive result is within `count`. A `Release` that drops the last
reference on the stream is a `closeWithStatus` with `NS_BASE_STREAM_CLOSED`; the destructor runs
when no method does.
-/

set_option autoImplicit false

namespace Transport

open Xpcom Runs

/-- Where a thread is: outside every method (`idle`, or `returned` with what its last `Read` gave),
between two steps of `Read`, or in `AsyncWait` with a callback to invoke. -/
inductive Pc
  | idle
  | reading (ccnfs : Obj) (buf : List UInt8) (count : Nat)
  | storing (res : Int) (st : ReadSt)
  | returning (st : ReadSt)
  | returned (rv : NsResult) (countRead : Nat)
  | notifying (w : Waiter)

namespace Pc

def outside : Pc → Bool
  | idle | returned _ _ => true
  | _ => false

/-- A `Read` that has a stream from `CCNX_GetLocked` and has not released it. -/
def isReading : Pc → Bool
  | reading _ _ _ => true
  | _ => false

/-- Not between two steps of `Read` with a locked section or the store of `mCondition` to come. -/
def passive : Pc → Bool
  | reading _ _ _ | storing _ _ => false
  | _ => true

end Pc

structure Sys where
  world : World
  threads : List Pc
  /-- History: the callbacks that `AsyncWait` has invoked. -/
  invoked : List Waiter := []
  destructed : Bool := false

namespace Sys

def mCondition (s : Sys) : NsResult := s.world.tr.mInput.mCondition

/-- The number of `Read` calls that hold a stream. -/
def readers (s : Sys) : Nat := s.threads.countP Pc.isReading

end Sys

/-- A transport after its `Init`, whatever that returned, and `n` threads. -/
def start (env : InitEnv) (ccnxName : String) (n : Nat) : Sys :=
  { world := (({} : World).init env ccnxName).2, threads := List.replicate n .idle }

inductive Act
  | readCheck (t : Nat) (buf : List UInt8) (count : Nat)
  | readSection (t : Nat) (answers : List Answer)
  | readStore (t : Nat)
  | readReturn (t : Nat)
  | closeWithStatus (t : Nat) (reason : NsResult)
  /-- `nsCCNxTransport::Close`. -/
  | close (t : Nat) (reason : NsResult)
  | asyncWait (t : Nat) (newEvent : NsResult) (callback : Option Callback) (flags : Nat)
      (target : Option Target)
  | notify (t : Nat)
  | openInputStream (t : Nat) (flags : Nat) (env : OpenEnv)
  /-- `~nsCCNxTransport`, on the main thread or not. -/
  | destruct (onMain : Bool)

/-- The reason with which this action calls `nsCCNxInputStream::CloseWithStatus`. -/
def Act.reason? : Act → Option NsResult
  | .closeWithStatus _ reason => some reason
  | .close _ reason => some (if nsSucceeded reason then nsBaseStreamClosed else reason)
  | _ => none

/-- The thread `t`, if it is outside every method. -/
def Sys.caller (s : Sys) (t : Nat) : Option Pc := (s.threads[t]?).filter Pc.outside

def step (K : FetchCodes) (s : Sys) (a : Act) : Option Sys :=
  if s.destructed then none
  else
    match a with
    | .readCheck t buf count =>
      match s.caller t, readCheck s.world.tr with
      | none, _ => none
      | some _, (.error rv, tr) =>
        some { s with world := { s.world with tr }, threads := s.threads.set t (.returned rv 0) }
      | some _, (.ok ccnfs, tr) =>
        some { s with
          world := { s.world with tr }, threads := s.threads.set t (.reading ccnfs buf count) }
    | .readSection t answers =>
      match s.threads[t]? with
      | some (.reading ccnfs buf count) =>
        if ∀ a ∈ answers, a.read.res ≤ count then
          match readSection K s.world ccnfs buf count answers with
          | some (st, res, [], world) =>
            some { s with world, threads := s.threads.set t (.storing res st) }
          | _ => none
        else none
      | _ => none
    | .readStore t =>
      match s.threads[t]? with
      | some (.storing res st) =>
        some { s with
          world := { s.world with tr := readStore K s.world.tr res st.countRead }
          threads := s.threads.set t (.returning st) }
      | _ => none
    | .readReturn t =>
      match s.threads[t]? with
      | some (.returning st) =>
        some { s with threads := s.threads.set t (.returned (readReturn s.world.tr) st.countRead) }
      | _ => none
    | .closeWithStatus t reason =>
      (s.caller t).map fun _ =>
        { s with world := { s.world with tr := { s.world.tr with
            mInput := s.world.tr.mInput.closeWithStatus reason } } }
    | .close t reason =>
      (s.caller t).map fun _ => { s with world := { s.world with tr := s.world.tr.close reason } }
    | .asyncWait t newEvent callback flags target =>
      (s.caller t).map fun pc =>
        let out := s.world.tr.mInput.asyncWait newEvent callback flags target
        { s with
          world := { s.world with tr := { s.world.tr with mInput := out.stream } }
          threads := s.threads.set t (match out.direct with
            | some w => .notifying w
            | none => pc) }
    | .notify t =>
      match s.threads[t]? with
      | some (.notifying w) =>
        some { s with threads := s.threads.set t .idle, invoked := s.invoked ++ [w] }
      | _ => none
    | .openInputStream t flags env =>
      (s.caller t).map fun _ =>
        { s with world := { s.world with tr := (s.world.tr.openInputStream flags env).2.2 } }
    | .destruct onMain =>
      if s.threads.all Pc.outside then
        some { s with
          world := { s.world with tr := (s.world.tr.destruct onMain).2 }, destructed := true }
      else none

/-! ## What the first section of Read does -/

theorem readCheck_error {tr tr' : NsCCNxTransport} {rv : NsResult}
    (h : readCheck tr = (.error rv, tr')) :
    tr' = tr ∧ (nsFailed tr.mInput.mCondition = true ∨ tr.mCCNxOnline = false ∨
      tr.mCCNxStream = none) := by
  unfold readCheck NsCCNxTransport.ccnxGetLocked at h
  split at h
  · rename_i hc
    cases h
    exact ⟨rfl, .inl hc⟩
  · split at h
    · rename_i hg
      split at hg
      · rename_i ho
        cases hg; cases h
        exact ⟨rfl, .inr (.inl (by simpa using ho))⟩
      · split at hg
        · rename_i hs
          cases hst : tr.mCCNxStream with
          | none => rw [hst] at hs; cases hs
          | some f => rw [hst] at hg; cases hg
        · rename_i hs
          cases hg; cases h
          exact ⟨rfl, .inr (.inr (by simpa using hs))⟩
    · cases h

theorem readCheck_ok {tr tr' : NsCCNxTransport} {f : Obj} (h : readCheck tr = (.ok f, tr')) :
    nsFailed tr.mInput.mCondition = false ∧ tr.mCCNxOnline = true ∧ tr.mCCNxStream = some f ∧
      tr' = { tr with mCCNxRef := (tr.mCCNxRef + 1) % 0x100000000 } := by
  unfold readCheck NsCCNxTransport.ccnxGetLocked at h
  split at h
  · cases h
  · rename_i hc
    split at h
    · cases h
    · rename_i hg
      cases h
      split at hg
      · cases hg
      · rename_i ho
        split at hg
        · obtain ⟨hs, rfl⟩ := Prod.mk.inj hg
          exact ⟨by simpa using hc, by simpa using ho, hs, rfl⟩
        · cases hg

/-! ## What a step does -/

section
variable {K : FetchCodes} {s s' : Sys}

theorem caller_eq_some {t : Nat} {pc : Pc} :
    s.caller t = some pc ↔ s.threads[t]? = some pc ∧ pc.outside = true := by
  simp [Sys.caller, Option.filter_eq_some_iff]

theorem not_destructed {a : Act} (h : step K s a = some s') : s.destructed = false := by
  unfold step at h
  split at h
  · cases h
  · rename_i hd
    simpa using hd

theorem step_readCheck {t count : Nat} {buf : List UInt8}
    (h : step K s (.readCheck t buf count) = some s') :
    ∃ pc, s.caller t = some pc ∧
      ((∃ rv, (readCheck s.world.tr).1 = .error rv ∧
          s' = { s with threads := s.threads.set t (.returned rv 0) }) ∨
        ∃ f, s.world.tr.mCCNxStream = some f ∧ s.world.tr.mCCNxOnline = true ∧
          nsFailed s.mCondition = false ∧
          s' = { s with
            world := { s.world with tr := { s.world.tr with
              mCCNxRef := (s.world.tr.mCCNxRef + 1) % 0x100000000 } }
            threads := s.threads.set t (.reading f buf count) }) := by
  unfold step at h
  split at h
  · cases h
  · simp only at h
    split at h
    · cases h
    · rename_i pc rv tr hpc hr
      cases h
      obtain ⟨rfl, -⟩ := readCheck_error hr
      exact ⟨pc, hpc, .inl ⟨rv, by rw [hr], rfl⟩⟩
    · rename_i pc f tr hpc hr
      cases h
      obtain ⟨hc, ho, hs, rfl⟩ := readCheck_ok hr
      exact ⟨pc, hpc, .inr ⟨f, hs, ho, hc, rfl⟩⟩

theorem step_readSection {t : Nat} {answers : List Answer}
    (h : step K s (.readSection t answers) = some s') :
    ∃ f buf count st res, s.threads[t]? = some (.reading f buf count) ∧
      readLoop K count answers { buf } = some (st, res, []) ∧
      s' = { s with
        world := s.world.ccnxReleaseLocked f, threads := s.threads.set t (.storing res st) } := by
  unfold step at h
  split at h
  · cases h
  · simp only at h
    split at h
    · rename_i f buf count ht
      split at h
      · split at h
        · rename_i st res world hr
          cases h
          simp only [readSection, Option.map_eq_some_iff, Prod.mk.injEq] at hr
          obtain ⟨⟨st', res', rest⟩, hloop, rfl, rfl, rfl, rfl⟩ := hr
          exact ⟨f, buf, count, _, _, ht, hloop, rfl⟩
        · cases h
      · cases h
    · cases h

theorem step_readStore {t : Nat} (h : step K s (.readStore t) = some s') :
    ∃ res st, s.threads[t]? = some (.storing res st) ∧
      s' = { s with
        world := { s.world with tr := readStore K s.world.tr res st.countRead }
        threads := s.threads.set t (.returning st) } := by
  unfold step at h
  split at h
  · cases h
  · simp only at h
    split at h
    · rename_i res st ht
      cases h
      exact ⟨res, st, ht, rfl⟩
    · cases h

theorem step_readReturn {t : Nat} (h : step K s (.readReturn t) = some s') :
    ∃ st, s.threads[t]? = some (.returning st) ∧
      s' = { s with
        threads := s.threads.set t (.returned (readReturn s.world.tr) st.countRead) } := by
  unfold step at h
  split at h
  · cases h
  · simp only at h
    split at h
    · rename_i st ht
      cases h
      exact ⟨st, ht, rfl⟩
    · cases h

theorem step_asyncWait {t flags : Nat} {newEvent : NsResult} {callback : Option Callback}
    {target : Option Target}
    (h : step K s (.asyncWait t newEvent callback flags target) = some s') :
    ∃ pc, s.caller t = some pc ∧
      let out := s.world.tr.mInput.asyncWait newEvent callback flags target
      s' = { s with
        world := { s.world with tr := { s.world.tr with mInput := out.stream } }
        threads := s.threads.set t (match out.direct with
          | some w => .notifying w
          | none => pc) } := by
  unfold step at h
  split at h
  · cases h
  · obtain ⟨pc, hpc, rfl⟩ := Option.map_eq_some_iff.1 h
    exact ⟨pc, hpc, rfl⟩

theorem step_notify {t : Nat} (h : step K s (.notify t) = some s') :
    ∃ w, s.threads[t]? = some (.notifying w) ∧
      s' = { s with threads := s.threads.set t .idle, invoked := s.invoked ++ [w] } := by
  unfold step at h
  split at h
  · cases h
  · simp only at h
    split at h
    · rename_i w ht
      cases h
      exact ⟨w, ht, rfl⟩
    · cases h

theorem step_openInputStream {t flags : Nat} {env : OpenEnv}
    (h : step K s (.openInputStream t flags env) = some s') :
    s' = { s with
      world := { s.world with tr := (s.world.tr.openInputStream flags env).2.2 } } := by
  unfold step at h
  split at h
  · cases h
  · obtain ⟨pc, -, rfl⟩ := Option.map_eq_some_iff.1 h
    rfl

theorem step_destruct {onMain : Bool} (h : step K s (.destruct onMain) = some s') :
    s.threads.all Pc.outside = true ∧
      s' = { s with
        world := { s.world with tr := (s.world.tr.destruct onMain).2 }, destructed := true } := by
  unfold step at h
  split at h
  · cases h
  · simp only at h
    split at h
    · rename_i hall
      cases h
      exact ⟨hall, rfl⟩
    · cases h

theorem asyncWait_mCondition (st : NsCCNxInputStream) (newEvent : NsResult)
    (callback : Option Callback) (flags : Nat) (target : Option Target) :
    (st.asyncWait newEvent callback flags target).stream.mCondition = st.mCondition := by
  unfold NsCCNxInputStream.asyncWait
  simp only
  split
  · split
    · rfl
    · split <;> rfl
  · split <;> rfl
  · split <;> rfl

theorem openInputStream_mCondition (tr : NsCCNxTransport) (flags : Nat) (env : OpenEnv) :
    (tr.openInputStream flags env).2.2.mInput.mCondition = tr.mInput.mCondition := by
  obtain ⟨n, copies, closed, he⟩ := NsCCNxTransport.openInputStream_keeps tr flags env
  rw [he]
  rfl

theorem ccnxReleaseLocked_mInput (w : World) (f : Obj) :
    (w.ccnxReleaseLocked f).tr.mInput = w.tr.mInput := by
  simp only [World.ccnxReleaseLocked, World.ccnxClose, apply_ite World.tr,
    apply_ite NsCCNxTransport.mInput, ite_self]

/-- A step that calls `CloseWithStatus` changes the input stream and at most `mInputClosed`. -/
theorem step_close {a : Act} {reason : NsResult} (ha : a.reason? = some reason)
    (h : step K s a = some s') :
    ∃ closed, s' = { s with world := { s.world with tr := { s.world.tr with
      mInput := s.world.tr.mInput.closeWithStatus reason, mInputClosed := closed } } } := by
  unfold step at h
  split at h
  · cases h
  · cases a with
    | closeWithStatus t r =>
      cases ha
      obtain ⟨pc, -, rfl⟩ := Option.map_eq_some_iff.1 h
      exact ⟨s.world.tr.mInputClosed, rfl⟩
    | close t r =>
      cases ha
      obtain ⟨pc, -, rfl⟩ := Option.map_eq_some_iff.1 h
      exact ⟨true, rfl⟩
    | _ => cases ha

/-- Of the steps, only the store of `Read` and the closes change `mCondition`. -/
theorem step_mCondition {a : Act} (ha : ∀ t, a ≠ .readStore t) (h : step K s a = some s') :
    s'.mCondition = match a.reason? with
      | some reason => if nsFailed s.mCondition then s.mCondition else reason
      | none => s.mCondition := by
  cases hr : a.reason? with
  | some reason =>
    obtain ⟨closed, rfl⟩ := step_close hr h
    exact congrArg NsCCNxInputStream.mCondition (NsCCNxInputStream.closeWithStatus_eq _ _)
  | none =>
    cases a with
    | readCheck t buf count =>
      obtain ⟨pc, -, ⟨rv, -, rfl⟩ | ⟨f, -, -, -, rfl⟩⟩ := step_readCheck h <;> rfl
    | readSection t answers =>
      obtain ⟨f, buf, count, st, res, -, -, rfl⟩ := step_readSection h
      exact congrArg NsCCNxInputStream.mCondition (ccnxReleaseLocked_mInput s.world f)
    | readStore t => exact absurd rfl (ha t)
    | closeWithStatus t reason => cases hr
    | close t reason => cases hr
    | readReturn t =>
      obtain ⟨st, -, rfl⟩ := step_readReturn h
      rfl
    | asyncWait t newEvent callback flags target =>
      obtain ⟨pc, -, rfl⟩ := step_asyncWait h
      exact asyncWait_mCondition _ _ _ _ _
    | notify t =>
      obtain ⟨w, -, rfl⟩ := step_notify h
      rfl
    | openInputStream t flags env =>
      rw [step_openInputStream h]
      exact openInputStream_mCondition _ _ _
    | destruct onMain =>
      obtain ⟨-, rfl⟩ := step_destruct h
      simp only [Sys.mCondition, NsCCNxTransport.destruct]
      split <;> rfl

/-- The position a step moves a thread to: one between no two sections of `Read`, or `reading` if
the condition was good, or `storing` from `reading`. -/
theorem step_position {a : Act} (h : step K s a = some s') {pc : Pc} (hpc : pc ∈ s'.threads) :
    pc ∈ s.threads ∨ pc.passive = true ∨
      (nsFailed s.mCondition = false ∧ ∃ t buf count, a = .readCheck t buf count) ∨
      ∃ t answers, a = .readSection t answers ∧ ∃ q ∈ s.threads, q.isReading = true := by
  have hset : ∀ {t : Nat} {x : Pc}, pc ∈ s.threads.set t x → pc ∈ s.threads ∨ pc = x :=
    fun h => List.mem_or_eq_of_mem_set h
  cases a with
  | readCheck t buf count =>
    obtain ⟨q, -, ⟨rv, -, rfl⟩ | ⟨f, -, -, hc, rfl⟩⟩ := step_readCheck h
    · rcases hset hpc with hpc | rfl
      · exact .inl hpc
      · exact .inr (.inl rfl)
    · exact .inr (.inr (.inl ⟨hc, t, buf, count, rfl⟩))
  | readSection t answers =>
    obtain ⟨f, buf, count, st, res, ht, -, -⟩ := step_readSection h
    exact .inr (.inr (.inr ⟨t, answers, rfl, _, List.mem_of_getElem? ht, rfl⟩))
  | readStore t =>
    obtain ⟨res, st, -, rfl⟩ := step_readStore h
    rcases hset hpc with hpc | rfl
    · exact .inl hpc
    · exact .inr (.inl rfl)
  | closeWithStatus t reason =>
    obtain ⟨closed, rfl⟩ := step_close rfl h
    exact .inl hpc
  | close t reason =>
    obtain ⟨closed, rfl⟩ := step_close rfl h
    exact .inl hpc
  | readReturn t =>
    obtain ⟨st, -, rfl⟩ := step_readReturn h
    rcases hset hpc with hpc | rfl
    · exact .inl hpc
    · exact .inr (.inl rfl)
  | asyncWait t newEvent callback flags target =>
    obtain ⟨q, hq, rfl⟩ := step_asyncWait h
    rcases hset hpc with hpc | rfl
    · exact .inl hpc
    · split
      · exact .inr (.inl rfl)
      · exact .inl (List.mem_of_getElem? (caller_eq_some.1 hq).1)
  | notify t =>
    obtain ⟨w, -, rfl⟩ := step_notify h
    rcases hset hpc with hpc | rfl
    · exact .inl hpc
    · exact .inr (.inl rfl)
  | openInputStream t flags env =>
    rw [step_openInputStream h] at hpc
    exact .inl hpc
  | destruct onMain =>
    obtain ⟨-, rfl⟩ := step_destruct h
    exact .inl hpc

end

end Transport
