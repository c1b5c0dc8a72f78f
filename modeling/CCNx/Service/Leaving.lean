import CCNx.Service.Events
import CCNx.Service.Signal

/-!
# When a thread leaves Run

`Run` has no wait of its own: it polls its queue and the flag. `leaves_in_time`: while a `Shutdown`
has the flag up, each thread leaves after a bounded number of its own steps, so the join that is
commented out would come to an end. `runs_on`: once the flag is down again, a thread that has missed
it is never out of steps and never leaves, unless there is another `Shutdown`.
-/

set_option autoImplicit false

namespace Service

open Xpcom Runs

/-- How many steps a thread has to go, while the flag is up and nothing comes to its queue. -/
def Runner.toLeave (r : Runner) : Nat := if r.pc = .done then 0 else r.distance + 1

theorem toLeave_le (r : Runner) : r.toLeave ≤ 2 * r.queue.length + 3 := by
  unfold Runner.toLeave Runner.distance
  split
  · exact Nat.zero_le _
  · cases r.pc <;> simp only <;> omega

/-- With the flag up, a step brings a thread nearer to its leaving. -/
theorem runner_step_toLeave {r r' : Runner} (h : r.step true = some r') :
    r'.toLeave < r.toLeave := by
  have hd : r.pc ≠ .done := (runner_step_told h).2
  unfold Runner.toLeave
  rw [if_neg hd]
  by_cases hc : r.pc = .check
  · rw [if_pos ((runner_step_events h).2.2 hc rfl)]
    exact Nat.zero_lt_succ _
  · have hq : r.pc = .process → r.queue ≠ [] := by
      intro hp hnil
      simp [Runner.step, hp, hnil] at h
    obtain ⟨q, hstep, hlt, hqd⟩ := runner_step_closer (b := true) hd hc hq
    rw [h] at hstep
    cases hstep
    rw [if_neg hqd]
    exact Nat.add_lt_add_right hlt 1

section
variable {s s' : Sys} {a : Act} {t : Tid} {r : Runner}

/-- Only its own steps move a thread and the events it has run. -/
theorem step_other (ha : a ≠ .run t) (h : step s a = some s') (hr : s.threads[t]? = some r) :
    ∃ r', s'.threads[t]? = some r' ∧ r'.pc = r.pc ∧ r'.ran = r.ran := by
  cases a with
  | init rv =>
    simp only [step] at h
    split at h <;> cases h
    refine ⟨r, ?_, rfl, rfl⟩
    rcases s.init_cases rv with ⟨hth, -⟩ | ⟨hth, -⟩ <;> rw [hth]
    · exact hr
    · rw [List.getElem?_append_left (List.getElem?_eq_some_iff.1 hr).1, hr]
  | shutdown =>
    simp only [step] at h
    split at h
    · cases h
    · split at h <;> cases h <;> exact ⟨r, hr, rfl, rfl⟩
  | clearThread => simp only [step] at h; split at h <;> cases h; exact ⟨r, hr, rfl, rfl⟩
  | resetFlags =>
    simp only [step] at h
    split at h <;> cases h
    exact ⟨r.tell, by simp [hr], rfl, rfl⟩
  | fetch d => simp only [step] at h; split at h <;> cases h; exact ⟨r, hr, rfl, rfl⟩
  | enqueue d e rv =>
    obtain ⟨u, -, hs'⟩ := step_enqueue h
    split at hs' <;> subst hs'
    · exact ⟨r, hr, rfl, rfl⟩
    · by_cases hut : u = t
      · exact ⟨r.push e, by simp [hr, hut], rfl, rfl⟩
      · exact ⟨r, by simp [hr, hut], rfl, rfl⟩
  | run u =>
    obtain ⟨q, q', -, -, rfl⟩ := step_run h
    have hut : u ≠ t := fun he => ha (he ▸ rfl)
    exact ⟨r, by rw [List.getElem?_set_ne hut, hr], rfl, rfl⟩

/-- What a step of another party adds to a thread's way are the events that it accepts. -/
theorem EventsInv.other (hE : EventsInv s) (ha : a ≠ .run t) (h : step s a = some s')
    (hr : s.threads[t]? = some r) :
    ∃ r', s'.threads[t]? = some r' ∧ r'.pc = r.pc ∧
      r'.toLeave + 2 * (s.acceptedFor t).length ≤
        r.toLeave + 2 * (s'.acceptedFor t).length := by
  obtain ⟨r', hr', hpc, hran⟩ := step_other ha h hr
  obtain ⟨q, hq, -, hpre, -⟩ := ((step_thread h hr).resolve_left fun h => ha h.1).2
  rw [hr'] at hq
  cases hq
  refine ⟨r', hr', hpc, ?_⟩
  have hev := congrArg List.length (hE.events t r hr)
  have hev' := congrArg List.length ((hE.next h).events t r' hr')
  rw [List.length_append] at hev hev'
  rw [hran] at hev'
  have hle := hpre.length_le
  unfold Runner.toLeave Runner.distance
  rw [hpc]
  split
  · omega
  · omega

/-- A thread inside `Run` has a step to take, whatever the flag is. -/
theorem SignalInv.can_step (hI : SignalInv s) (hr : s.threads[t]? = some r) (hd : r.pc ≠ .done) :
    ∃ s', step s (.run t) = some s' := by
  by_cases hc : r.pc = .check
  · have hstep : r.step s.svc.mShuttingDown =
        some { r with pc := if s.svc.mShuttingDown then .done else .top } := by
      simp [Runner.step, hc]
    exact ⟨_, step_run_of hr hstep⟩
  · obtain ⟨q, hq, -⟩ := runner_step_closer hd hc (hI.busy t r hr)
    exact ⟨_, step_run_of hr hq⟩

/-- Of the main thread's steps, only the final resets take the flag down. -/
theorem step_stays_up (hup : s.main ≠ .idle) (ha : a ≠ .resetFlags) (h : step s a = some s') :
    s'.main ≠ .idle := by
  cases a with
  | init rv => simp only [step] at h; split at h <;> cases h; exact hup
  | shutdown => simp only [step, if_pos hup] at h; cases h
  | clearThread =>
    simp only [step] at h
    split at h <;> cases h
    intro he
    cases he
  | resetFlags => exact absurd rfl ha
  | fetch d => simp only [step] at h; split at h <;> cases h; exact hup
  | enqueue d e rv => simp only [step] at h; split at h <;> cases h; exact hup
  | run u => obtain ⟨q, q', -, -, rfl⟩ := step_run h; exact hup

/-- And only a `Shutdown` takes it up. -/
theorem step_stays_down (hdown : s.main = .idle) (ha : a ≠ .shutdown) (h : step s a = some s') :
    s'.main = .idle := by
  cases a with
  | init rv => simp only [step, if_pos hdown] at h; cases h; exact hdown
  | shutdown => exact absurd rfl ha
  | clearThread => simp only [step, hdown] at h; cases h
  | resetFlags => simp only [step] at h; split at h <;> cases h; rfl
  | fetch d => simp only [step] at h; split at h <;> cases h; exact hdown
  | enqueue d e rv => simp only [step] at h; split at h <;> cases h; exact hdown
  | run u => obtain ⟨q, q', -, -, rfl⟩ := step_run h; exact hdown

/-! ## While the flag is up -/

/-- The steps a thread takes are paid for by the way it has to go, and by what comes to its
queue. -/
theorem run_toLeave (hI : SignalInv s) (hE : EventsInv s) (hup : s.main ≠ .idle) {bs : List Act}
    (hb : Act.resetFlags ∉ bs) (h : run step s bs = some s') (hr : s.threads[t]? = some r) :
    SignalInv s' ∧ ∃ r', s'.threads[t]? = some r' ∧
      bs.count (.run t) + r'.toLeave + 2 * (s.acceptedFor t).length ≤
        r.toLeave + 2 * (s'.acceptedFor t).length := by
  induction bs generalizing s r with
  | nil =>
    cases h
    exact ⟨hI, r, hr, by simp⟩
  | cons a bs ih =>
    obtain ⟨s₁, h₁, h₂⟩ := run_cons_some h
    have ha : a ≠ .resetFlags := fun he => hb (he ▸ List.mem_cons_self)
    have ih := fun (q : Runner) => ih (r := q) (hI.next h₁) (hE.next h₁) (step_stays_up hup ha h₁)
      (fun hm => hb (List.mem_cons_of_mem _ hm)) h₂
    by_cases hrun : a = .run t
    · subst hrun
      obtain ⟨q, q', hq, hstep, rfl⟩ := step_run h₁
      rw [hr] at hq
      cases hq
      have hflag : s.svc.mShuttingDown = true := by rw [hI.flag]; simpa using hup
      rw [hflag] at hstep
      have hlt := runner_step_toLeave hstep
      obtain ⟨hI', r', hr', hle⟩ := ih q' (Pool.getElem?_set_same hr)
      refine ⟨hI', r', hr', ?_⟩
      have hacc : (Sys.acceptedFor { s with threads := s.threads.set t q' } t).length =
          (s.acceptedFor t).length := rfl
      rw [List.count_cons_self]
      omega
    · obtain ⟨q, hq, -, hstep⟩ := hE.other hrun h₁ hr
      obtain ⟨hI', r', hr', hle⟩ := ih q hq
      refine ⟨hI', r', hr', ?_⟩
      rw [List.count_cons_of_ne (by simpa using hrun)]
      omega

/-- In every run, from a state in which a `Shutdown` has raised the flag until its final resets: a
thread takes at most three steps and two for every event that is on its queue or comes to it, and
as long as it is inside `Run` it has a next one to take. -/
theorem leaves_in_time (m : Nat) (as : List Act) (s : Sys) (h : run step (start m) as = some s)
    (hup : s.main ≠ .idle) (t : Tid) (r : Runner) (hr : s.threads[t]? = some r) (bs : List Act)
    (hb : Act.resetFlags ∉ bs) (s' : Sys) (h' : run step s bs = some s') :
    bs.count (.run t) + 2 * (s.acceptedFor t).length ≤
        2 * r.queue.length + 2 * (s'.acceptedFor t).length + 3 ∧
      ∃ r', s'.threads[t]? = some r' ∧ (r'.pc = .done ∨ ∃ s'', step s' (.run t) = some s'') := by
  have hI : SignalInv s := run_inv (fun _ _ _ => SignalInv.next) (SignalInv.start m) h
  have hE : EventsInv s := run_inv (fun _ _ _ => EventsInv.next) (EventsInv.start m) h
  obtain ⟨hI', r', hr', hle⟩ := run_toLeave hI hE hup hb h' hr
  have hbound := toLeave_le r
  refine ⟨by omega, r', hr', ?_⟩
  by_cases hd : r'.pc = .done
  · exact .inl hd
  · exact .inr (hI'.can_step hr' hd)

end

/-- A thread with an event on its queue, when `Shutdown` has raised the flag, and what it does until
it has left: one more event comes to it. -/
theorem leaves_in_time_queued :
    ∃ s s', run step (start 1) [.init nsOk, .fetch 0, .enqueue 0 7 nsOk, .fetch 0, .shutdown] =
        some s ∧
      run step s [.run 0, .enqueue 0 8 nsOk, .run 0, .run 0, .run 0, .run 0, .run 0] = some s' ∧
      ∃ r', s'.threads[0]? = some r' ∧ (r'.pc = .done ∨ ∃ s'', step s' (.run 0) = some s'') :=
  ⟨_, _, rfl, rfl, (leaves_in_time 1
    [.init nsOk, .fetch 0, .enqueue 0 7 nsOk, .fetch 0, .shutdown] _ rfl (by decide) 0 _ rfl
    [.run 0, .enqueue 0 8 nsOk, .run 0, .run 0, .run 0, .run 0, .run 0] (by decide) _ rfl).2⟩

/-! ## When the flag is down -/

/-- In every run, from a state in which no `Shutdown` is under way until there is one: a thread that
is inside `Run` stays there, and always has a next step to take. -/
theorem runs_on (m : Nat) (as : List Act) (s : Sys) (h : run step (start m) as = some s)
    (hdown : s.main = .idle) (t : Tid) (r : Runner) (hr : s.threads[t]? = some r)
    (hd : r.pc ≠ .done) (bs : List Act) (hb : Act.shutdown ∉ bs) (s' : Sys)
    (h' : run step s bs = some s') :
    (∃ r', s'.threads[t]? = some r' ∧ r'.pc ≠ .done) ∧ ∃ s'', step s' (.run t) = some s'' := by
  have hI : SignalInv s := run_inv (fun _ _ _ => SignalInv.next) (SignalInv.start m) h
  clear h
  induction bs generalizing s r with
  | nil =>
    cases h'
    exact ⟨⟨r, hr, hd⟩, hI.can_step hr hd⟩
  | cons a bs ih =>
    obtain ⟨s₁, h₁, h₂⟩ := run_cons_some h'
    have ha : a ≠ .shutdown := fun he => hb (he ▸ List.mem_cons_self)
    have hb' : Act.shutdown ∉ bs := fun hm => hb (List.mem_cons_of_mem _ hm)
    by_cases hrun : a = .run t
    · subst hrun
      obtain ⟨q, q', hq, hstep, rfl⟩ := step_run h₁
      rw [hr] at hq
      cases hq
      -- the flag is down, so the locked read sends the thread round again
      have hq' : q'.pc ≠ .done := fun hq' => by
        have hflag := ((runner_step_events hstep).2.1 hq').2.1
        rw [hI.flag, hdown] at hflag
        cases hflag
      exact ih { s with threads := s.threads.set t q' } hdown q' (Pool.getElem?_set_same hr) hq'
        hb' h₂ (hI.next h₁)
    · obtain ⟨q, hq, hpc, -⟩ := step_other hrun h₁ hr
      exact ih s₁ (step_stays_down hdown ha h₁) q hq (hpc ▸ hd) hb' h₂ (hI.next h₁)

/-- A `Shutdown` that the thread misses, and the next load's `Init`. -/
theorem runs_on_missed :
    ∃ s s', run step (start 1) [.init nsOk, .shutdown, .clearThread, .resetFlags] = some s ∧
      run step s [.run 0, .run 0, .run 0, .init nsOk, .run 0, .run 1] = some s' ∧
      (∃ r', s'.threads[0]? = some r' ∧ r'.pc ≠ .done) ∧ ∃ s'', step s' (.run 0) = some s'' :=
  ⟨_, _, rfl, rfl, runs_on 1 [.init nsOk, .shutdown, .clearThread, .resetFlags] _ rfl rfl 0 _ rfl
    nofun [.run 0, .run 0, .run 0, .init nsOk, .run 0, .run 1] (by decide) _ rfl⟩

/-! ## In between -/

/-- In every run, whatever has become of the signals: of the events whose `Dispatch` to a thread has
returned a success, the thread has run the first ones, each once and in the order of the enqueues,
and the others are what is on its queue; and each of them went to a thread that `Init` created. -/
theorem accepted_fifo (m : Nat) (as : List Act) (s : Sys) (h : run step (start m) as = some s) :
    (∀ (t : Tid) r, s.threads[t]? = some r → s.acceptedFor t = r.ran ++ r.queue) ∧
      ∀ (t : Tid), s.threads[t]? = none → s.acceptedFor t = [] := by
  have hE : EventsInv s := run_inv (fun _ _ _ => EventsInv.next) (EventsInv.start m) h
  exact ⟨hE.events, fun t ht => hE.fresh t (List.getElem?_eq_none_iff.1 ht)⟩

theorem accepted_fifo_drainedRun :
    ∃ s, run step (start 1) drainedRun = some s ∧
      ∀ (t : Tid) r, s.threads[t]? = some r → s.acceptedFor t = r.ran ++ r.queue :=
  ⟨_, rfl, (accepted_fifo 1 drainedRun _ rfl).1⟩

end Service
