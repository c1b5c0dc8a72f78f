import CCNx.Lib.Runs
import CCNx.Service.Defs

/-!
# The service's threads, interleaved

The parties are the main thread (`Init` and `Shutdown`, the latter at each of its three writes),
any number of dispatching threads (`Dispatch`, split between the locked read of `mThread` and the
enqueue), and the threads that `Init` created, each executing `Run`. A thread's queue is FIFO,
`HasPendingEvents` tests it for emptiness and `NS_ProcessNextEvent` runs its oldest event.

`Runner.told` is history: a `Shutdown` that found the service initialized has returned `NS_OK`
since the thread was created.
-/

set_option autoImplicit false

namespace Service

open Xpcom Runs

abbrev Event := Nat

/-- Where a thread is in `Run`: at the first `HasPendingEvents` of an iteration (`top`), at the one
under `if (!pendingEvents)` (`retest`), at `NS_ProcessNextEvent`, at the `HasPendingEvents` after
it (`recheck`), at the locked read of `mShuttingDown` (`check`), or out of it. -/
inductive RunPc
  | top | retest | process | recheck | check | done
  deriving DecidableEq, Repr

/-- A thread created by `Init`. -/
structure Runner where
  pc : RunPc := .top
  queue : List Event := []
  ran : List Event := []
  told : Bool := false
  deriving DecidableEq, Repr

/-- Where the main thread is: outside `Shutdown`, or past its first or its second write. -/
inductive MainPc
  | idle | raised | cleared
  deriving DecidableEq, Repr

structure Sys where
  svc : NsCCNxTransportService := {}
  main : MainPc := .idle
  threads : List Runner := []
  /-- For each dispatching thread, the thread it fetched and has still to enqueue on. -/
  dispatchers : List (Option Tid) := []
  /-- The events whose `Dispatch` returned a success, with the thread they went to. -/
  accepted : List (Tid × Event) := []
  deriving DecidableEq, Repr

/-- The service as constructed, with `m` threads that may dispatch. -/
def start (m : Nat) : Sys := { dispatchers := List.replicate m none }

inductive Act
  /-- `Init` on the main thread; `rv` is what `NS_NewThread` returns. -/
  | init (rv : NsResult)
  /-- `Shutdown` up to and including the locked write of `mShuttingDown`. -/
  | shutdown
  | clearThread
  /-- The final resets of `Shutdown`, and its return. -/
  | resetFlags
  /-- `Dispatch` on the `d`-th dispatching thread: the locked read of `mThread`. -/
  | fetch (d : Nat)
  /-- The enqueue; `rv` is what `thread->Dispatch` returns. -/
  | enqueue (d : Nat) (event : Event) (rv : NsResult)
  /-- The next step of thread `t` in `Run`. -/
  | run (t : Tid)
  deriving DecidableEq, Repr

/-- One step of `Run`; none when `Run` has returned or `NS_ProcessNextEvent` has to wait. -/
def Runner.step (shuttingDown : Bool) (r : Runner) : Option Runner :=
  match r.pc with
  | .top => some { r with pc := if r.queue.isEmpty then .retest else .process }
  | .retest => some { r with pc := if r.queue.isEmpty then .check else .process }
  | .process =>
    match r.queue with
    | [] => none
    | e :: queue => some { r with pc := .recheck, queue, ran := r.ran ++ [e] }
  | .recheck => some { r with pc := if r.queue.isEmpty then .check else .process }
  | .check => some { r with pc := if shuttingDown then .done else .top }
  | .done => none

/-- `Init`: a thread appears when `NS_NewThread` was reached and succeeded. -/
def Sys.init (s : Sys) (rv : NsResult) : Sys :=
  let svc := (s.svc.init true (rv, s.threads.length)).2
  { s with svc, threads := if svc.mInitialized && !s.svc.mInitialized then s.threads ++ [{}]
                           else s.threads }

def Runner.push (e : Event) (r : Runner) : Runner := { r with queue := r.queue ++ [e] }

def Runner.tell (r : Runner) : Runner := { r with told := true }

def step (s : Sys) : Act → Option Sys
  | .init rv => if s.main = .idle then some (s.init rv) else none
  | .shutdown =>
    if s.main ≠ .idle then none
    -- the two early returns leave everything as it is
    else if !s.svc.mInitialized || s.svc.mShuttingDown then some s
    else some { s with svc := s.svc.raiseShuttingDown, main := .raised }
  | .clearThread =>
    if s.main = .raised then some { s with svc := s.svc.clearThread, main := .cleared } else none
  | .resetFlags =>
    if s.main = .cleared then
      some { s with svc := s.svc.resetFlags, main := .idle, threads := s.threads.map Runner.tell }
    else none
  | .fetch d =>
    match s.dispatchers[d]? with
    | some none => some { s with dispatchers := s.dispatchers.set d s.svc.getThreadSafely }
    | _ => none
  | .enqueue d event rv =>
    match s.dispatchers[d]? with
    | some (some t) =>
      some { s with
        dispatchers := s.dispatchers.set d none
        threads := if nsFailed rv then s.threads else s.threads.modify t (Runner.push event)
        accepted := if nsFailed (NsCCNxTransportService.dispatchResult rv) then s.accepted
                    else s.accepted ++ [(t, event)] }
    | _ => none
  | .run t =>
    match s.threads[t]? with
    | none => none
    | some r => (r.step s.svc.mShuttingDown).map fun r' => { s with threads := s.threads.set t r' }

/-! ## What a step does to a thread -/

/-- A thread's own step does not change whether it was told, and no step follows the last. -/
theorem runner_step_told {b : Bool} {r r' : Runner} (h : r.step b = some r') :
    r'.told = r.told ∧ r.pc ≠ .done := by
  rcases r with ⟨pc, queue, ran, told⟩
  cases pc <;> cases queue <;> simp only [Runner.step, Option.some.injEq, reduceCtorEq] at h
  all_goals subst h
  all_goals exact ⟨rfl, nofun⟩

/-- A thread's own step moves the oldest event from the queue to those it ran, and leaves `Run`
only at the check. -/
theorem runner_step_events {b : Bool} {r r' : Runner} (h : r.step b = some r') :
    r'.ran ++ r'.queue = r.ran ++ r.queue ∧
      (r'.pc = .done → r.pc = .check ∧ b = true ∧ r'.queue = r.queue) ∧
      (r.pc = .check → b = true → r'.pc = .done) := by
  rcases r with ⟨pc, queue, ran, told⟩
  cases pc <;> cases queue <;> simp only [Runner.step, Option.some.injEq, reduceCtorEq] at h
  all_goals subst h
  all_goals cases b <;> simp

theorem step_run {s s' : Sys} {t : Tid} (h : step s (.run t) = some s') :
    ∃ r r', s.threads[t]? = some r ∧ r.step s.svc.mShuttingDown = some r' ∧
      s' = { s with threads := s.threads.set t r' } := by
  simp only [step] at h
  split at h
  · cases h
  · rename_i r hr
    obtain ⟨r', hr', rfl⟩ := Option.map_eq_some_iff.1 h
    exact ⟨r, r', hr, hr', rfl⟩

theorem step_run_of {s : Sys} {t : Tid} {r r' : Runner} (hr : s.threads[t]? = some r)
    (hs : r.step s.svc.mShuttingDown = some r') :
    step s (.run t) = some { s with threads := s.threads.set t r' } := by
  simp [step, hr, hs]

/-- `Init` creates a thread and installs it, or leaves the threads alone. -/
theorem Sys.init_cases (s : Sys) (rv : NsResult) :
    ((s.init rv).threads = s.threads ∧
        ((s.init rv).svc.mThread = s.svc.mThread ∨ (s.init rv).svc.mThread = none)) ∨
      ((s.init rv).threads = s.threads ++ [({} : Runner)] ∧
        (s.init rv).svc.mThread = some s.threads.length) := by
  unfold Sys.init NsCCNxTransportService.init
  cases hi : s.svc.mInitialized with
  | true => simp
  | false =>
    cases hd : s.svc.mShuttingDown with
    | true => simp [hi]
    | false => cases hrv : nsFailed rv <;> simp

/-- An enqueue that succeeds is a `Dispatch` that does. -/
theorem dispatchResult_failed (rv : NsResult) :
    nsFailed (NsCCNxTransportService.dispatchResult rv) = nsFailed rv := by
  unfold NsCCNxTransportService.dispatchResult
  split
  · rename_i he
    rw [he]
    rfl
  · rfl

theorem step_enqueue {s s' : Sys} {d : Nat} {e : Event} {rv : NsResult}
    (h : step s (.enqueue d e rv) = some s') : ∃ t, s.dispatchers[d]? = some (some t) ∧
      s' = if nsFailed rv then { s with dispatchers := s.dispatchers.set d none }
        else
          { s with
            dispatchers := s.dispatchers.set d none
            threads := s.threads.modify t (Runner.push e)
            accepted := s.accepted ++ [(t, e)] } := by
  simp only [step, dispatchResult_failed] at h
  split at h
  · rename_i t ht
    cases h
    exact ⟨t, ht, by split <;> rfl⟩
  · cases h

/-- Every action leaves the threads that exist in place; it changes the position of a thread, or
takes events from its queue, only as that thread's own step. -/
theorem step_thread {s s' : Sys} {a : Act} {t : Tid} {r : Runner} (h : step s a = some s')
    (hr : s.threads[t]? = some r) :
    (a = .run t ∧ ∃ r', r.step s.svc.mShuttingDown = some r' ∧ s'.threads[t]? = some r') ∨
    (a ≠ .run t ∧ ∃ r', s'.threads[t]? = some r' ∧ r'.pc = r.pc ∧ r.queue <+: r'.queue ∧
      (r'.told = r.told ∨ (a = .resetFlags ∧ r'.told = true))) := by
  have hkeep : ∀ {b : Act}, b ≠ .run t → s'.threads[t]? = some r →
      b ≠ .run t ∧ ∃ r', s'.threads[t]? = some r' ∧ r'.pc = r.pc ∧ r.queue <+: r'.queue ∧
        (r'.told = r.told ∨ (b = .resetFlags ∧ r'.told = true)) :=
    fun hne h' => ⟨hne, r, h', rfl, List.prefix_refl _, .inl rfl⟩
  cases a with
  | init rv =>
    simp only [step] at h
    split at h <;> cases h
    refine .inr (hkeep nofun ?_)
    simp only [Sys.init]
    split
    · rw [List.getElem?_append_left (List.getElem?_eq_some_iff.1 hr).1, hr]
    · exact hr
  | shutdown =>
    simp only [step] at h
    split at h
    · cases h
    · split at h <;> cases h <;> exact .inr (hkeep nofun hr)
  | clearThread =>
    simp only [step] at h
    split at h <;> cases h
    exact .inr (hkeep nofun hr)
  | resetFlags =>
    simp only [step] at h
    split at h <;> cases h
    exact .inr ⟨nofun, r.tell, by simp [hr], rfl, List.prefix_refl _, .inr ⟨rfl, rfl⟩⟩
  | fetch d =>
    simp only [step] at h
    split at h <;> cases h
    exact .inr (hkeep nofun hr)
  | enqueue d e rv =>
    simp only [step] at h
    split at h
    · rename_i u hd
      cases h
      by_cases hf : nsFailed rv = true
      · exact .inr (hkeep nofun (by simpa [hf] using hr))
      · by_cases hut : u = t
        · subst hut
          exact .inr ⟨nofun, r.push e, by simp [hf, hr], rfl, List.prefix_append _ _, .inl rfl⟩
        · exact .inr (hkeep nofun (by simpa [hf, hut] using hr))
    · cases h
  | run u =>
    obtain ⟨q, q', hq, hstep, rfl⟩ := step_run h
    have hu := (List.getElem?_eq_some_iff.1 hq).1
    by_cases hut : u = t
    · subst hut
      rw [hr] at hq
      cases hq
      exact .inl ⟨rfl, q', hstep, by simp [hu]⟩
    · refine .inr (hkeep (fun he => hut (Act.run.inj he)) ?_)
      simp [List.getElem?_set_ne hut, hr]

/-- A thread that a step adds is a fresh one. -/
theorem step_new {s s' : Sys} {a : Act} {t : Tid} {r : Runner} (h : step s a = some s')
    (hn : s.threads[t]? = none) (hr : s'.threads[t]? = some r) : r = {} := by
  have hlen := List.getElem?_eq_none_iff.1 hn
  have hsame : s'.threads.length = s.threads.length → False := fun he => by
    have := (List.getElem?_eq_some_iff.1 hr).1
    omega
  cases a with
  | init rv =>
    simp only [step] at h
    split at h <;> cases h
    simp only [Sys.init] at hr hsame
    split at hr
    · rw [List.getElem?_append_right hlen] at hr
      exact (List.mem_singleton.1 (List.mem_of_getElem? hr))
    · rw [hn] at hr; cases hr
  | shutdown =>
    simp only [step] at h
    split at h
    · cases h
    · split at h <;> cases h <;> exact (hsame rfl).elim
  | clearThread => simp only [step] at h; split at h <;> cases h; exact (hsame rfl).elim
  | resetFlags => simp only [step] at h; split at h <;> cases h; exact (hsame (by simp)).elim
  | fetch d => simp only [step] at h; split at h <;> cases h; exact (hsame rfl).elim
  | enqueue d e rv =>
    simp only [step] at h
    split at h <;> cases h
    exact (hsame (by simp only; split <;> simp)).elim
  | run u =>
    obtain ⟨q, q', -, -, rfl⟩ := step_run h
    exact (hsame (by simp)).elim

end Service
