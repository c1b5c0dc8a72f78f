import CCNx.Transport.Callbacks

/-!
# Whom does AsyncWait call?

`AsyncWait` puts its callback into `mCallback` before it looks at the condition, and takes it out
again to call it if the condition has failed. So the callback that it calls is the one it was given,
never one that waited before. `invoked_exactly`: over any run, a callback has been or is about to be
invoked once for each `AsyncWait` that was given it on a failed stream, and for no other.
-/

set_option autoImplicit false

namespace Transport

open Xpcom Runs

/-- What `AsyncWait` has to call: the callback, or an event that calls it on the target. -/
def waiterOf (newEvent : NsResult) : Option Callback → Option Target → Option Waiter
  | some cb, some tgt => if nsFailed newEvent then none else some (.event cb tgt)
  | some cb, none => some (.callback cb)
  | none, _ => none

/-- An `AsyncWait`, on a thread that may call it, is given `w` on a failed stream. -/
def WaitsFailed (w : Waiter) (s : Sys) : Act → Prop
  | .asyncWait t newEvent callback _ target =>
    (s.caller t).isSome = true ∧ nsFailed s.mCondition = true ∧
      waiterOf newEvent callback target = some w
  | _ => False

instance (w : Waiter) (s : Sys) (a : Act) : Decidable (WaitsFailed w s a) :=
  match a with
  | .asyncWait _ _ _ _ _ => inferInstanceAs (Decidable (_ ∧ _ ∧ _))
  | .readCheck _ _ _ | .readSection _ _ | .readStore _ | .readReturn _ | .closeWithStatus _ _
  | .close _ _ | .notify _ | .openInputStream _ _ _ | .destruct _ =>
    inferInstanceAs (Decidable False)

/-- About to invoke `w`. -/
def Pc.notifies (w : Waiter) : Pc → Bool
  | .notifying v => v = w
  | _ => false

/-- How often `w` has been invoked, or is about to be. -/
def Sys.invocations (s : Sys) (w : Waiter) : Nat :=
  s.invoked.count w + s.threads.countP (Pc.notifies w)

section
variable {K : FetchCodes} {s s' : Sys} {a : Act} {w : Waiter}

/-- The callback that is called is the one just given. -/
theorem asyncWait_direct (st : NsCCNxInputStream) (newEvent : NsResult)
    (callback : Option Callback) (flags : Nat) (target : Option Target) :
    (st.asyncWait newEvent callback flags target).direct =
      if nsFailed st.mCondition then waiterOf newEvent callback target else none := by
  unfold NsCCNxInputStream.asyncWait waiterOf
  cases nsFailed st.mCondition <;> cases callback <;> cases target <;>
    cases nsFailed newEvent <;> rfl

theorem outside_notifies {pc : Pc} (h : pc.outside = true) : pc.notifies w = false := by
  cases pc <;> first | rfl | cases h

/-- A thread that was not about to invoke `w` and is not now. -/
theorem invocations_set {t : Nat} {pc pc' : Pc} (ht : s.threads[t]? = some pc)
    (hpc : pc.notifies w = false) (hpc' : pc'.notifies w = false)
    (hth : s'.threads = s.threads.set t pc') (hinv : s'.invoked = s.invoked) :
    s'.invocations w = s.invocations w := by
  rw [Sys.invocations, Sys.invocations, hinv, hth, Pool.countP_set_keep ht hpc hpc']

/-- The other steps call nobody new. -/
theorem step_invocations_same (hne : ∀ t rv cb flags tgt, a ≠ .asyncWait t rv cb flags tgt)
    (h : step K s a = some s') : s'.invocations w = s.invocations w := by
  cases a with
  | readCheck t buf count =>
    obtain ⟨pc, hpc, ⟨rv, -, rfl⟩ | ⟨f, -, -, -, rfl⟩⟩ := step_readCheck h
    all_goals
      obtain ⟨ht, ho⟩ := caller_eq_some.1 hpc
      exact invocations_set ht (outside_notifies ho) rfl rfl rfl
  | readSection t answers =>
    obtain ⟨f, buf, count, st, res, ht, -, rfl⟩ := step_readSection h
    exact invocations_set ht rfl rfl rfl rfl
  | readStore t =>
    obtain ⟨res, st, ht, rfl⟩ := step_readStore h
    exact invocations_set ht rfl rfl rfl rfl
  | readReturn t =>
    obtain ⟨st, ht, rfl⟩ := step_readReturn h
    exact invocations_set ht rfl rfl rfl rfl
  | closeWithStatus t reason =>
    obtain ⟨closed, rfl⟩ := step_close rfl h
    rfl
  | close t reason =>
    obtain ⟨closed, rfl⟩ := step_close rfl h
    rfl
  | asyncWait t newEvent callback flags target => exact absurd rfl (hne _ _ _ _ _)
  | notify t =>
    -- the thread invokes what it was about to invoke
    obtain ⟨v, ht, rfl⟩ := step_notify h
    unfold Sys.invocations
    rw [List.count_append, List.count_singleton]
    by_cases hv : v = w
    · have := Pool.countP_set_leave (p := Pc.notifies w) (y := .idle) ht (by simp [Pc.notifies, hv])
        rfl
      simp only [hv, BEq.rfl, if_true]
      omega
    · rw [Pool.countP_set_keep ht (by simp [Pc.notifies, hv]) rfl]
      simp [hv]
  | openInputStream t flags env =>
    rw [step_openInputStream h]
    rfl
  | destruct onMain =>
    obtain ⟨-, rfl⟩ := step_destruct h
    rfl

theorem step_invocations (h : step K s a = some s') :
    s'.invocations w = s.invocations w + if WaitsFailed w s a then 1 else 0 := by
  by_cases ha : ∃ t rv cb flags tgt, a = .asyncWait t rv cb flags tgt
  · obtain ⟨t, newEvent, callback, flags, target, rfl⟩ := ha
    obtain ⟨pc, hpc, rfl⟩ := step_asyncWait h
    obtain ⟨ht, ho⟩ := caller_eq_some.1 hpc
    have hpc' := outside_notifies (w := w) ho
    dsimp only
    rw [asyncWait_direct]
    by_cases hC : WaitsFailed w s (.asyncWait t newEvent callback flags target)
    · rw [if_pos hC]
      obtain ⟨-, hcond, hw⟩ := hC
      unfold Sys.mCondition at hcond
      simp only [hcond, if_true, hw]
      exact congrArg (s.invoked.count w + ·)
        (Pool.countP_set_enter ht hpc' (by simp [Pc.notifies]))
    · rw [if_neg hC, Nat.add_zero]
      refine invocations_set ht hpc' ?_ rfl rfl
      split
      · rename_i v hv
        split at hv
        · rename_i hcond
          refine decide_eq_false fun hvw => hC ⟨by rw [hpc]; rfl, hcond, ?_⟩
          rw [hv, hvw]
        · cases hv
      · exact hpc'
  · have hne : ∀ t rv cb flags tgt, a ≠ .asyncWait t rv cb flags tgt :=
      fun t rv cb flags tgt he => ha ⟨t, rv, cb, flags, tgt, he⟩
    have hno : ¬ WaitsFailed w s a := fun hC => by
      cases a with
      | asyncWait t rv cb flags tgt => exact hne t rv cb flags tgt rfl
      | _ => exact hC
    rw [if_neg hno, step_invocations_same hne h, Nat.add_zero]

/-- So far, the callback has been called as often as it was to be. -/
def Counted (K : FetchCodes) (env : InitEnv) (ccnxName : String) (n : Nat) (w : Waiter)
    (acts : List Act) (s : Sys) : Prop :=
  run (step K) (start env ccnxName n) acts = some s ∧
    s.invocations w = countSteps (step K) (WaitsFailed w) (start env ccnxName n) acts

theorem Counted.next {env : InitEnv} {ccnxName : String} {n : Nat} {acts : List Act}
    (hI : Counted K env ccnxName n w acts s) (h : step K s a = some s') :
    Counted K env ccnxName n w (acts ++ [a]) s' := by
  refine ⟨run_trans hI.1 (run_single h), ?_⟩
  rw [countSteps_concat a hI.1, step_invocations h, hI.2]

end

/-- In every run, for every callback (or event that calls one): it has been invoked, or is about to
be, once for each `AsyncWait` that was given it on a failed stream. Those that were left waiting
on a good stream are never invoked. -/
theorem invoked_exactly (K : FetchCodes) (env : InitEnv) (ccnxName : String) (n : Nat) (w : Waiter)
    (acts : List Act) (s : Sys) (h : run (step K) (start env ccnxName n) acts = some s) :
    s.invocations w = countSteps (step K) (WaitsFailed w) (start env ccnxName n) acts := by
  have h0 : (start env ccnxName n).invocations w = 0 := by
    simp [Sys.invocations, start, List.countP_replicate, Pc.notifies]
  have hI : Counted K env ccnxName n w ([] ++ acts) s :=
    run_inv_acts (C := fun _ _ => True) (fun pre s a s' hI _ hs => hI.next hs) ⟨rfl, h0⟩
      (eachStep_of_forall (fun _ _ => trivial) _ acts) h
  exact hI.2

/-- One callback waits when the stream is closed; another is given to the failed stream, twice. -/
def waitsTwice : List Act :=
  [.asyncWait 0 nsOk (some 1) 0 none, .closeWithStatus 1 nsErrorAbort,
    .asyncWait 0 nsOk (some 2) 0 none, .notify 0, .asyncWait 0 nsOk (some 2) 0 none]

theorem invoked_exactly_waitsTwice :
    ∃ s, run (step fetchCodes) (start {} "ccnx:/a" 2) waitsTwice = some s ∧
      s.invocations (.callback 1) =
        countSteps (step fetchCodes) (WaitsFailed (.callback 1)) (start {} "ccnx:/a" 2)
          waitsTwice :=
  ⟨_, rfl, invoked_exactly fetchCodes {} "ccnx:/a" 2 (.callback 1) waitsTwice _ rfl⟩

end Transport
