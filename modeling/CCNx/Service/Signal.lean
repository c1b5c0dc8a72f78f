import CCNx.Service.System

/-!
# Is the shutdown signal seen?

`Shutdown` raises `mShuttingDown`, and lowers it again before it returns; the join that would have
to come between the two is commented out. So a thread that makes no locked read in that window is
still in `Run` afterwards, and nothing tells it to leave (`signal_lost`). `signalKept_iff`: over any
run the signal reaches every thread exactly if each `Shutdown`, at its final resets, finds all the
threads that `Init` created out of `Run`, which is what the join would ensure.
-/

set_option autoImplicit false

namespace Service

open Xpcom Runs

/-- This action is not a locked read of `mShuttingDown` by `t`. -/
def NotReading (t : Tid) (s : Sys) (a : Act) : Prop :=
  a = .run t → (s.threads[t]?).map (·.pc) ≠ some .check

/-- If a `Shutdown` that found the service initialized has returned since `t` was created and `t`
is still inside `Run`, then the next locked read of `mShuttingDown` that `t` makes, whatever
happens before it, yields true, and `t` leaves `Run` there. -/
def SignalKept (s : Sys) : Prop :=
  ∀ (t : Tid) (r : Runner), s.threads[t]? = some r → r.told = true → r.pc ≠ .done →
    ∀ bs s' r', run step s bs = some s' → EachStep step (NotReading t) s bs →
      s'.threads[t]? = some r' → r'.pc = .check →
      s'.svc.mShuttingDown = true ∧
        ∃ s'', step s' (.run t) = some s'' ∧ (s''.threads[t]?).map (·.pc) = some .done

/-- The final resets of a `Shutdown` come when no thread created by `Init` is inside `Run`. -/
def JoinedAtReset (s : Sys) (a : Act) : Prop := a = .resetFlags → ∀ r ∈ s.threads, r.pc = .done

instance : ∀ s a, Decidable (JoinedAtReset s a) :=
  fun s a => inferInstanceAs (Decidable (a = .resetFlags → ∀ r ∈ s.threads, r.pc = .done))

instance (t : Tid) : ∀ s a, Decidable (NotReading t s a) :=
  fun s a => inferInstanceAs (Decidable (a = .run t → (s.threads[t]?).map (·.pc) ≠ some .check))

/-! ## The invariants -/

/-- The flag is up between the first and the last write of a `Shutdown`, and a thread about to
process an event has one. -/
structure SignalInv (s : Sys) : Prop where
  flag : s.svc.mShuttingDown = (s.main != .idle)
  busy : ∀ (t : Tid) (r : Runner), s.threads[t]? = some r → r.pc = .process → r.queue ≠ []

/-- Every thread that a returned `Shutdown` should have stopped is out of `Run`. -/
def AllLeft (s : Sys) : Prop :=
  ∀ (t : Tid) (r : Runner), s.threads[t]? = some r → r.told = true → r.pc = .done

theorem runner_step_busy {b : Bool} {r r' : Runner} (h : r.step b = some r')
    (hp : r'.pc = .process) : r'.queue ≠ [] := by
  rcases r with ⟨pc, queue, ran, told⟩
  cases pc <;> cases queue <;> simp only [Runner.step, Option.some.injEq, reduceCtorEq] at h
  all_goals subst h
  all_goals simp_all
  all_goals split at hp <;> cases hp

theorem step_flag {s s' : Sys} {a : Act} (hI : s.svc.mShuttingDown = (s.main != .idle))
    (h : step s a = some s') : s'.svc.mShuttingDown = (s'.main != .idle) := by
  cases a with
  | init rv =>
    simp only [step] at h
    split at h <;> cases h
    simp only [Sys.init]
    rw [NsCCNxTransportService.init_mShuttingDown, hI]
  | shutdown =>
    simp only [step] at h
    split at h
    · cases h
    · split at h <;> cases h
      · exact hI
      · rfl
  | clearThread =>
    simp only [step] at h
    split at h <;> cases h
    rename_i hm
    show s.svc.mShuttingDown = _
    rw [hI, hm]
    rfl
  | resetFlags =>
    simp only [step] at h
    split at h <;> cases h
    rfl
  | fetch d => simp only [step] at h; split at h <;> cases h; exact hI
  | enqueue d e rv => simp only [step] at h; split at h <;> cases h; exact hI
  | run t => obtain ⟨r, r', -, -, rfl⟩ := step_run h; exact hI

theorem SignalInv.start (m : Nat) : SignalInv (start m) :=
  ⟨rfl, fun t r h => by simp [Service.start] at h⟩

theorem SignalInv.next {s s' : Sys} {a : Act} (hI : SignalInv s) (h : step s a = some s') :
    SignalInv s' := by
  refine ⟨step_flag hI.flag h, fun t r' hr' hp => ?_⟩
  cases hr : s.threads[t]? with
  | none => rw [step_new h hr hr'] at hp; cases hp
  | some r =>
    rcases step_thread h hr with ⟨-, q, hq, hs'⟩ | ⟨-, q, hs', hpc, hpre, -⟩ <;>
      (rw [hs'] at hr'; cases hr')
    · exact runner_step_busy hq hp
    · intro hnil
      have := hI.busy t r hr (hpc ▸ hp)
      rw [hnil] at hpre
      exact this (List.prefix_nil.1 hpre)

/-- If every `Shutdown` joins, the threads it should have stopped are gone. -/
theorem AllLeft.next {s s' : Sys} {a : Act} (hI : AllLeft s) (hC : JoinedAtReset s a)
    (h : step s a = some s') : AllLeft s' := by
  intro t r' hr' ht
  cases hr : s.threads[t]? with
  | none => rw [step_new h hr hr'] at ht; cases ht
  | some r =>
    rcases step_thread h hr with ⟨-, q, hq, hs'⟩ | ⟨-, q, hs', hpc, -, htold⟩ <;>
      (rw [hs'] at hr'; cases hr')
    · -- the thread's own step: a told thread is done and makes none
      obtain ⟨htold, hd⟩ := runner_step_told hq
      exact absurd (hI t r hr (htold ▸ ht)) hd
    · rcases htold with he | ⟨rfl, -⟩
      · rw [hpc]; exact hI t r hr (he ▸ ht)
      · rw [hpc]; exact hC rfl r (List.mem_of_getElem? hr)

/-! ## A thread left inside Run gets to its check -/

/-- How far a thread is from its locked read, counting the events it has to run first. -/
def Runner.distance (r : Runner) : Nat :=
  2 * r.queue.length + match r.pc with
    | .top => 2
    | .retest | .recheck => 1
    | .process | .check | .done => 0

theorem runner_step_closer {b : Bool} {r : Runner} (hd : r.pc ≠ .done) (hc : r.pc ≠ .check)
    (hq : r.pc = .process → r.queue ≠ []) :
    ∃ r', r.step b = some r' ∧ r'.distance < r.distance ∧ r'.pc ≠ .done := by
  unfold Runner.step Runner.distance
  rcases r with ⟨pc, queue, ran, told⟩
  cases pc
  case check => exact absurd rfl hc
  case done => exact absurd rfl hd
  case process =>
    cases queue with
    | nil => exact absurd rfl (hq rfl)
    | cons e queue => exact ⟨_, rfl, by simp only [List.length_cons]; omega, nofun⟩
  all_goals
    cases queue with
    | nil => exact ⟨_, rfl, by simp, by simp⟩
    | cons e queue => exact ⟨_, rfl, by simp, by simp⟩

/-- Left to itself, a thread inside `Run` drains its queue and comes to its locked read. -/
theorem reach_check {s : Sys} {t : Tid} {r : Runner} (hI : SignalInv s)
    (hr : s.threads[t]? = some r) (hd : r.pc ≠ .done) :
    ∃ bs s' r', run step s bs = some s' ∧ EachStep step (NotReading t) s bs ∧
      s'.threads[t]? = some r' ∧ r'.pc = .check ∧ s'.svc = s.svc := by
  induction hn : r.distance using Nat.strongRecOn generalizing s r with
  | _ n ih =>
    by_cases hc : r.pc = .check
    · exact ⟨[], s, r, rfl, trivial, hr, hc, rfl⟩
    · obtain ⟨q, hq, hlt, hqd⟩ := runner_step_closer hd hc (hI.busy t r hr)
      have hstep := step_run_of hr hq
      have ht := (List.getElem?_eq_some_iff.1 hr).1
      obtain ⟨bs, s', r', hrun, heach, hr', hc', hsvc⟩ :=
        ih q.distance (by omega) (hI.next hstep) (by simp [ht]) hqd rfl
      refine ⟨.run t :: bs, s', r', ?_, ⟨?_, fun s1 h1 => ?_⟩, hr', hc', hsvc⟩
      · rw [run_cons, hstep]; exact hrun
      · intro _; simp [hr, hc]
      · rw [hstep] at h1; cases h1; exact heach

/-! ## The signal over runs -/

/-- In every run, the signal of every `Shutdown` reaches the threads it is meant for if and only
if each `Shutdown`, at its final resets, finds them all out of `Run`. -/
theorem signalKept_iff (m : Nat) (as : List Act) (s : Sys) (h : run step (start m) as = some s) :
    EachState step SignalKept (start m) as ↔ EachStep step JoinedAtReset (start m) as := by
  constructor
  · intro hP
    rw [eachStep_iff]
    rintro pre a post s₁ rfl h₁ rfl r hmem
    apply Classical.byContradiction
    intro hd
    obtain ⟨t, hr⟩ := List.mem_iff_getElem?.1 hmem
    obtain ⟨s₁', h₁', hrest⟩ := run_append_some h
    rw [h₁] at h₁'
    cases h₁'
    obtain ⟨s₂, h₂, -⟩ := run_cons_some hrest
    have hI₁ : SignalInv s₁ := run_inv (fun _ _ _ => SignalInv.next) (SignalInv.start m) h₁
    have hI₂ : SignalInv s₂ := hI₁.next h₂
    -- after the resets `t` is told, inside `Run`, and the flag is down
    have hP₂ : SignalKept s₂ := (hP.at h₁).2 s₂ h₂ |>.head
    have hs₂ : s₂.threads[t]? = some r.tell ∧ s₂.main = .idle := by
      simp only [step] at h₂
      split at h₂ <;> cases h₂
      exact ⟨by simp [hr], rfl⟩
    obtain ⟨bs, s₃, r₃, h₃, heach, hr₃, hc₃, hsvc⟩ := reach_check hI₂ hs₂.1 hd
    have htrue := (hP₂ t r.tell hs₂.1 rfl hd bs s₃ r₃ h₃ heach hr₃ hc₃).1
    rw [hsvc, hI₂.flag, hs₂.2] at htrue
    cases htrue
  · intro hC
    have hleft : EachState step AllLeft (start m) as :=
      eachState_of_inv (fun _ _ _ hI hc hs => AllLeft.next hI hc hs)
        (fun t r hr => by simp [start] at hr) hC
    exact hleft.mono fun s' hs' t r hr ht hd => absurd (hs' t r hr ht) hd

/-- A run in which the thread makes its locked read while `Shutdown` has the flag up. -/
def joinedRun : List Act :=
  [.init nsOk, .run 0, .shutdown, .run 0, .run 0, .clearThread, .resetFlags]

theorem joinedRun_signalKept : EachState step SignalKept (start 1) joinedRun :=
  (signalKept_iff 1 joinedRun _ rfl).2 (by decide)

/-- A thread that `Init` created and that makes no step before `Shutdown` has returned comes to
its locked read with the flag down again. -/
theorem signal_lost :
    ¬ ∀ m as s, run step (start m) as = some s → SignalKept s := by
  intro hP
  have h := hP 0 [.init nsOk, .shutdown, .clearThread, .resetFlags] _ rfl 0 _ rfl rfl nofun
    [.run 0, .run 0] _ _ rfl (by decide) rfl rfl
  exact Bool.false_ne_true h.1

end Service
