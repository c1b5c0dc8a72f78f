import CCNx.Lib.Pool
import CCNx.Service.System

/-!
# Are the accepted events run?

`Run` leaves its loop on the flag it reads under the lock, after it has found its queue empty, and
an event may come in between the two; and a `Dispatch` that fetched the thread earlier may put one
on the queue of a thread that has left (`event_abandoned`). `drained_iff`: over any run, a thread
that is out of `Run` has run everything it accepted exactly if no event comes in either place.
-/

set_option autoImplicit false

namespace Service

open Xpcom Runs

/-- The events accepted for thread `t`, in the order of the enqueues. -/
def Sys.acceptedFor (s : Sys) (t : Tid) : List Event :=
  (s.accepted.filter fun x => x.1 == t).map (·.2)

/-- Every thread that has exited `Run` has run all events accepted for it, in their order. -/
def Drained (s : Sys) : Prop :=
  ∀ t, ∀ r ∈ s.threads[t]?, r.pc = .done → r.ran = s.acceptedFor t ∧ r.queue = []

/-- What has to be so before the step: a thread that is about to leave `Run` has nothing in its
queue, and an event for a thread that has left is refused. -/
def Drains (s : Sys) : Act → Prop
  | .run t => ∀ r ∈ s.threads[t]?, r.pc = .check → s.svc.mShuttingDown = true → r.queue = []
  | .enqueue d _ rv =>
    ∀ o ∈ s.dispatchers[d]?, ∀ t ∈ o, ∀ r ∈ s.threads[t]?, r.pc = .done → nsFailed rv = true
  | _ => True

instance (s : Sys) : DecidablePred (Drains s) := fun a =>
  match a with
  | .run t => inferInstanceAs (Decidable (∀ r ∈ s.threads[t]?, _ → _ → r.queue = []))
  | .enqueue d _ rv =>
    inferInstanceAs
      (Decidable (∀ o ∈ s.dispatchers[d]?, ∀ t ∈ o, ∀ r ∈ s.threads[t]?, _ → nsFailed rv = true))
  | .init _ | .shutdown | .clearThread | .resetFlags | .fetch _ => inferInstanceAs (Decidable True)

variable {s s' : Sys} {a : Act} {t : Tid}

/-! ## Where the events are -/

/-- Threads are installed and fetched after they were created, and what was accepted for a thread
has been run or is in its queue. -/
structure EventsInv (s : Sys) : Prop where
  current : ∀ t, s.svc.mThread = some t → t < s.threads.length
  fetched : ∀ (d : Nat) (t : Tid), s.dispatchers[d]? = some (some t) → t < s.threads.length
  events : ∀ (t : Tid) (r : Runner), s.threads[t]? = some r → s.acceptedFor t = r.ran ++ r.queue
  fresh : ∀ t, s.threads.length ≤ t → s.acceptedFor t = []

theorem acceptedFor_concat {accepted : List (Tid × Event)} {u : Tid} {e : Event}
    (hs : s'.accepted = accepted ++ [(u, e)]) (t : Tid) :
    s'.acceptedFor t =
      (accepted.filter fun x => x.1 == t).map (·.2) ++ if u = t then [e] else [] := by
  unfold Sys.acceptedFor
  rw [hs, List.filter_append, List.map_append]
  by_cases hu : u = t <;> simp [hu]

theorem EventsInv.init (hI : EventsInv s) {rv : NsResult} (h : step s (.init rv) = some s') :
    EventsInv s' := by
  simp only [step] at h
  split at h <;> cases h
  rcases s.init_cases rv with ⟨hth, hcur⟩ | ⟨hth, hcur⟩
  · refine ⟨fun t ht => ?_, fun d t ht => ?_, fun t r hr => ?_, fun t ht => ?_⟩
    · rw [hth]
      rcases hcur with hcur | hcur <;> rw [hcur] at ht
      · exact hI.current t ht
      · cases ht
    · rw [hth]; exact hI.fetched d t ht
    · rw [hth] at hr; exact hI.events t r hr
    · rw [hth] at ht; exact hI.fresh t ht
  · refine ⟨fun t ht => ?_, fun d t ht => ?_, fun t r hr => ?_, fun t ht => ?_⟩
    · rw [hcur] at ht
      cases ht
      simp [hth]
    · rw [hth, List.length_append, List.length_singleton]
      exact Nat.lt_succ_of_lt (hI.fetched d t ht)
    · rw [hth] at hr
      rcases Pool.getElem?_concat_cases hr with hr | ⟨rfl, rfl⟩
      · exact hI.events t r hr
      · exact hI.fresh _ (Nat.le_refl _)
    · rw [hth, List.length_append, List.length_singleton] at ht
      exact hI.fresh t (Nat.le_of_succ_le ht)

/-- An event accepted for a thread is at the end of its queue. -/
theorem EventsInv.enqueue (hI : EventsInv s) {d : Nat} {e : Event} {rv : NsResult}
    (h : step s (.enqueue d e rv) = some s') : EventsInv s' := by
  obtain ⟨u, hu, hs'⟩ := step_enqueue h
  have hlt := hI.fetched d u hu
  have hfetched : ∀ (d' : Nat) (t : Tid), (s.dispatchers.set d none)[d']? = some (some t) →
      t < s.threads.length := by
    intro d' t ht
    rcases Pool.getElem?_set_cases ht with ⟨-, he⟩ | ⟨-, ht⟩
    · cases he
    · exact hI.fetched d' t ht
  split at hs'
  · subst hs'
    exact ⟨hI.current, hfetched, hI.events, hI.fresh⟩
  · have haccepted : s'.accepted = s.accepted ++ [(u, e)] := by rw [hs']
    have hacc := acceptedFor_concat haccepted
    refine ⟨fun t ht => ?_, fun d' t ht => ?_, fun t r hr => ?_, fun t ht => ?_⟩
    · subst hs'
      simpa using hI.current t ht
    · subst hs'
      simpa using hfetched d' t ht
    · rw [hacc t]
      subst hs'
      simp only [List.getElem?_modify] at hr
      obtain ⟨q, hq, rfl⟩ := Option.map_eq_some_iff.1 hr
      have hev := hI.events t q hq
      unfold Sys.acceptedFor at hev
      rw [hev]
      by_cases hut : u = t
      · simp [hut, Runner.push]
      · simp [hut]
    · rw [hacc t]
      subst hs'
      simp only [List.length_modify] at ht
      have hfr := hI.fresh t ht
      unfold Sys.acceptedFor at hfr
      have hne : u ≠ t := by
        rintro rfl
        exact absurd hlt (Nat.not_lt.2 ht)
      rw [hfr, if_neg hne]
      rfl

theorem EventsInv.next (hI : EventsInv s) (h : step s a = some s') : EventsInv s' := by
  cases a with
  | init rv => exact hI.init h
  | shutdown =>
    simp only [step] at h
    split at h
    · cases h
    · split at h <;> cases h <;> exact ⟨hI.current, hI.fetched, hI.events, hI.fresh⟩
  | clearThread =>
    simp only [step] at h
    split at h <;> cases h
    refine ⟨fun t ht => ?_, hI.fetched, hI.events, hI.fresh⟩
    cases ht
  | resetFlags =>
    simp only [step] at h
    split at h <;> cases h
    refine ⟨fun t ht => ?_, fun d t ht => ?_, fun t r hr => ?_, fun t ht => ?_⟩
    · simpa using hI.current t ht
    · simpa using hI.fetched d t ht
    · rw [List.getElem?_map] at hr
      obtain ⟨q, hq, rfl⟩ := Option.map_eq_some_iff.1 hr
      exact hI.events t q hq
    · exact hI.fresh t (by simpa using ht)
  | fetch d =>
    simp only [step] at h
    split at h <;> cases h
    refine ⟨hI.current, fun d' t ht => ?_, hI.events, hI.fresh⟩
    rcases Pool.getElem?_set_cases ht with ⟨-, he⟩ | ⟨-, ht⟩
    · exact hI.current t he.symm
    · exact hI.fetched d' t ht
  | enqueue d e rv => exact hI.enqueue h
  | run u =>
    obtain ⟨q, q', hq, hstep, rfl⟩ := step_run h
    refine ⟨fun t ht => ?_, fun d t ht => ?_, fun t r hr => ?_, fun t ht => ?_⟩
    · simpa using hI.current t ht
    · simpa using hI.fetched d t ht
    · rcases Pool.getElem?_set_cases hr with ⟨rfl, rfl⟩ | ⟨-, hr⟩
      · rw [(runner_step_events hstep).1]
        exact hI.events t q hq
      · exact hI.events t r hr
    · exact hI.fresh t (by simpa using ht)

theorem EventsInv.start (m : Nat) : EventsInv (start m) := by
  refine ⟨nofun, fun d t h => ?_, fun t r h => ?_, fun t _ => rfl⟩
  · cases List.eq_of_mem_replicate (List.mem_of_getElem? h)
  · simp [Service.start] at h

/-! ## The threads that have left -/

/-- No thread that has exited `Run` has events in its queue. -/
def QueuesEmpty (s : Sys) : Prop :=
  ∀ (t : Tid) (r : Runner), s.threads[t]? = some r → r.pc = .done → r.queue = []

theorem EventsInv.drained_iff_empty (hI : EventsInv s) : Drained s ↔ QueuesEmpty s := by
  constructor
  · exact fun hD t r hr hp => (hD t r hr hp).2
  · intro hQ t r hr hp
    have hq := hQ t r hr hp
    refine ⟨?_, hq⟩
    rw [hI.events t r hr, hq, List.append_nil]

theorem queuesEmpty_enqueue (hQ : QueuesEmpty s) {d : Nat} {e : Event} {rv : NsResult}
    (h : step s (.enqueue d e rv) = some s') : QueuesEmpty s' ↔ Drains s (.enqueue d e rv) := by
  obtain ⟨u, hu, hs'⟩ := step_enqueue h
  split at hs'
  · rename_i hrv
    subst hs'
    exact iff_of_true hQ fun _ _ _ _ _ _ _ => hrv
  · rename_i hrv
    subst hs'
    constructor
    · intro hQ' o ho t ht r hr hp
      -- the event is on the queue of a thread that has left
      rw [hu] at ho
      cases ho
      cases ht
      have hq := hQ' u (r.push e) (by simp [Option.mem_def.1 hr]) hp
      exact absurd hq (by simp [Runner.push])
    · intro hD t r' hr' hp
      simp only [List.getElem?_modify] at hr'
      obtain ⟨r, hr, rfl⟩ := Option.map_eq_some_iff.1 hr'
      by_cases hut : u = t
      · subst hut
        rw [if_pos rfl] at hp
        exact absurd (hD _ hu u rfl r hr hp) hrv
      · rw [if_neg hut] at hp ⊢
        exact hQ t r hr hp

theorem queuesEmpty_run (hQ : QueuesEmpty s) {u : Tid} (h : step s (.run u) = some s') :
    QueuesEmpty s' ↔ Drains s (.run u) := by
  obtain ⟨r, r', hr, hstep, rfl⟩ := step_run h
  obtain ⟨-, hdone, hleave⟩ := runner_step_events hstep
  constructor
  · intro hQ' q hq hc hdown
    rw [Option.mem_def.1 hq] at hr
    cases hr
    have hp := hleave hc hdown
    rw [← (hdone hp).2.2]
    exact hQ' u r' (Pool.getElem?_set_same hq) hp
  · intro hD t q hq hp
    rcases Pool.getElem?_set_cases hq with ⟨rfl, rfl⟩ | ⟨-, hq⟩
    · obtain ⟨hc, hdown, hqueue⟩ := hdone hp
      rw [hqueue]
      exact hD r hr hc hdown
    · exact hQ t q hq hp

/-- From a state in which the threads that have left are drained, a step keeps them so if and only
if it drains. -/
theorem queuesEmpty_step (hQ : QueuesEmpty s) (h : step s a = some s') :
    QueuesEmpty s' ↔ Drains s a := by
  cases a with
  | init rv =>
    refine iff_of_true (fun t r hr hp => ?_) trivial
    simp only [step] at h
    split at h <;> cases h
    rcases s.init_cases rv with ⟨hth, -⟩ | ⟨hth, -⟩ <;> rw [hth] at hr
    · exact hQ t r hr hp
    · rcases Pool.getElem?_concat_cases hr with hr | ⟨-, rfl⟩
      · exact hQ t r hr hp
      · cases hp
  | shutdown =>
    refine iff_of_true ?_ trivial
    simp only [step] at h
    split at h
    · cases h
    · split at h <;> cases h <;> exact hQ
  | clearThread => simp only [step] at h; split at h <;> cases h; exact iff_of_true hQ trivial
  | resetFlags =>
    refine iff_of_true (fun t r hr hp => ?_) trivial
    simp only [step] at h
    split at h <;> cases h
    rw [List.getElem?_map] at hr
    obtain ⟨q, hq, rfl⟩ := Option.map_eq_some_iff.1 hr
    exact hQ t q hq hp
  | fetch d => simp only [step] at h; split at h <;> cases h; exact iff_of_true hQ trivial
  | enqueue d e rv => exact queuesEmpty_enqueue hQ h
  | run u => exact queuesEmpty_run hQ h

/-! ## Over runs -/

/-- In every run, the threads that have exited `Run` have run all that was accepted for them, in
every state, if and only if every step drains. -/
theorem drained_iff (m : Nat) (as : List Act) (s : Sys) (h : run step (start m) as = some s) :
    EachState step Drained (start m) as ↔ EachStep step Drains (start m) as := by
  refine eachState_iff_eachStep (I := EventsInv) (A := fun _ => True)
    (fun s a s' hI _ hs => hI.next hs) (fun s a s' hI hD _ hs => ?_) (EventsInv.start m)
    (fun t r hr => by simp [start] at hr) (fun _ _ => trivial) h
  rw [(hI.next hs).drained_iff_empty]
  exact queuesEmpty_step (hI.drained_iff_empty.1 hD) hs

/-- Two events, one of them accepted while the other is run, before `Shutdown`. -/
def drainedRun : List Act :=
  [.init nsOk, .fetch 0, .enqueue 0 7 nsOk, .run 0, .fetch 0, .run 0, .enqueue 0 8 nsOk, .run 0,
    .run 0, .run 0, .shutdown, .run 0, .clearThread, .resetFlags]

theorem drainedRun_drained : EachState step Drained (start 1) drainedRun :=
  (drained_iff 1 drainedRun _ rfl).2 (by decide)

/-- The event is accepted after the thread has found its queue empty and before it reads the
flag. -/
theorem event_abandoned :
    ¬ ∀ m as s, run step (start m) as = some s → Drained s := by
  intro hP
  have h := hP 1 [.init nsOk, .fetch 0, .shutdown, .run 0, .run 0, .enqueue 0 7 nsOk, .run 0] _ rfl
    0 _ rfl rfl
  exact absurd h.2 (by decide)

end Service
