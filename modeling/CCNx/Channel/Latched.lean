import CCNx.Channel.System

/-!
# Does the first failure stay?

`OnStopRequest` keeps a failure that `mStatus` holds already and says that `Cancel` does the same;
`Cancel` stores its status over it (`second_cancel`). `latched_iff`: with one pump, `GetStatus` and
the listener's `OnStopRequest` report the first failure exactly if every `Cancel` that finds a
failure carries the same one.
-/

set_option autoImplicit false

namespace Channel

open Xpcom Runs

variable {s s' : Sys} {a : Act}

def Act.cancelStatus : Act → Option NsResult
  | .cancel status _ => some status
  | _ => none

/-- Every `Cancel` is made with a failure, which its assertion asks for. -/
def CancelsFail (acts : List Act) : Prop :=
  ∀ a ∈ acts, ∀ status ∈ a.cancelStatus, nsFailed status = true

instance {acts : List Act} : Decidable (CancelsFail acts) :=
  decidable_of_iff (acts.all fun a => a.cancelStatus.all nsFailed)
    (by simp only [List.all_eq_true, Option.all_eq_true, CancelsFail, Option.mem_def])

/-- The status of the first `Cancel`. -/
def firstCancel (acts : List Act) : Option NsResult := acts.findSome? Act.cancelStatus

/-- The failure status is latched along the run. -/
structure Latched (acts : List Act) : Prop where
  /-- What `GetStatus` returns once `mStatus` is a failure it returns in every later state. -/
  keeps : ∀ pre mid post s₁ s₂, acts = pre ++ mid ++ post → run step {} pre = some s₁ →
    run step s₁ mid = some s₂ → nsFailed s₁.channel.mStatus = true →
    s₂.channel.getStatus = s₁.channel.getStatus
  /-- `OnStopRequest` hands on the status of the first `Cancel` before it, else that of the pump. -/
  handed : ∀ pre i status post s₁ s₂, acts = pre ++ .onStopRequest i status :: post →
    run step {} pre = some s₁ → step s₁ (.onStopRequest i status) = some s₂ →
    ∀ call ∈ s₂.log.drop s₁.log.length, call.2.event = .stop ((firstCancel pre).getD status)

/-- A `Cancel` that finds `mStatus` a failure carries that failure. -/
def KeepsFirst (s : Sys) : Act → Prop
  | .cancel status _ => nsFailed s.channel.mStatus = true → status = s.channel.mStatus
  | _ => True

instance : DecidablePred (KeepsFirst s) := fun a =>
  match a with
  | .cancel _ _ => inferInstanceAs (Decidable (_ → _))
  | .asyncOpen _ _ _ | .suspend | .resume | .setLoadGroup _ | .setNotificationCallbacks _
  | .onStartRequest _ _ | .onDataAvailable _ _ _ | .onStopRequest _ _ | .listenerReturns =>
    inferInstanceAs (Decidable True)

/-! ## A failure stays -/

theorem step_cancel {status t : NsResult} (h : step s (.cancel status t) = some s') :
    s'.channel.mStatus = status ∧ s'.history = s.history := by
  have hcr := not_crashed h
  simp only [step, hcr, Bool.false_eq_true, ↓reduceIte, Option.some.injEq] at h
  subst h
  exact ⟨rfl, rfl⟩

/-- `OnStopRequest` writes `mStatus` only over a success. -/
theorem stop_keeps {i : PumpId} {status : NsResult} (hf : nsFailed s.channel.mStatus = true)
    (h : step s (.onStopRequest i status) = some s') :
    s'.channel.mStatus = s.channel.mStatus := by
  obtain ⟨-, ⟨-, rfl⟩ | ⟨l, -, rfl⟩⟩ := step_onStopRequest h
  · rfl
  · simp [nsSucceeded, hf]

theorem failure_kept (hf : nsFailed s.channel.mStatus = true) (hC : KeepsFirst s a)
    (h : step s a = some s') : s'.channel.mStatus = s.channel.mStatus := by
  cases a with
  | cancel status t => exact (step_cancel h).1.trans (hC hf)
  | onStopRequest i status => exact stop_keeps hf h
  | _ => exact step_mStatus rfl h

theorem failure_latched {acts : List Act} (hf : nsFailed s.channel.mStatus = true)
    (hC : EachStep step KeepsFirst s acts) (h : run step s acts = some s') :
    s'.channel.mStatus = s.channel.mStatus := by
  have hall := eachState_of_inv
    (I := fun t => t.channel.mStatus = s.channel.mStatus)
    (fun t a t' hI hC ht => (failure_kept (by rw [hI]; exact hf) hC ht).trans hI) rfl hC
  exact hall.last h

/-! ## What the first Cancel leaves -/

theorem firstCancel_concat (pre : List Act) (a : Act) :
    firstCancel (pre ++ [a]) = (firstCancel pre).or a.cancelStatus := by
  simp only [firstCancel, List.findSome?_append, List.findSome?_singleton]

theorem firstCancel_mem {acts : List Act} {status : NsResult} (h : firstCancel acts = some status) :
    ∃ a ∈ acts, status ∈ a.cancelStatus := by
  obtain ⟨a, ha, hst⟩ := List.exists_of_findSome?_eq_some h
  exact ⟨a, ha, hst⟩

/-- No pump has stopped. -/
def NoneStopped (s : Sys) : Prop := ∀ e ∈ s.history, e.2 ≠ .stopped

/-- The state after the actions `pre`. -/
structure FirstInv (pre : List Act) (s : Sys) : Prop where
  pumps : s.history.length ≤ pre.countP Act.startsPump
  /-- Before a pump has stopped, `mStatus` is the status of the first `Cancel`. -/
  status : CancelsFail pre → NoneStopped s → s.channel.mStatus = (firstCancel pre).getD nsOk

theorem noneStopped_of_step (hN : NoneStopped s') (h : step s a = some s') : NoneStopped s := by
  rcases step_history h with hist | ⟨-, l, hist⟩ | ⟨i, l, ph, ph', hi, hph, hist⟩
  · unfold NoneStopped at hN ⊢
    rwa [← hist]
  · intro e he
    exact hN e (by rw [hist]; exact List.mem_append_left _ he)
  · intro e he
    obtain ⟨j, hj⟩ := List.getElem?_of_mem he
    by_cases hij : i = j
    · subst hij
      rw [hi] at hj
      cases hj
      exact hph
    · refine hN e (List.mem_of_getElem? (i := j) ?_)
      rw [hist, List.getElem?_set_ne hij, hj]

/-- The pump that delivers `OnStopRequest` stops. -/
theorem stop_stopped {i : PumpId} {status : NsResult}
    (h : step s (.onStopRequest i status) = some s') : ¬ NoneStopped s' := by
  obtain ⟨l, ph, ph', hl, hnext, hist⟩ := event_history rfl h
  intro hN
  apply hN (l, ph')
  · rw [hist]
    exact List.mem_of_getElem? (Pool.getElem?_set_same hl)
  · exact (next_stopped hnext).2 ⟨_, rfl⟩

theorem FirstInv.next {pre : List Act} (hI : FirstInv pre s) (hC : KeepsFirst s a)
    (h : step s a = some s') : FirstInv (pre ++ [a]) s' := by
  refine ⟨?_, fun hfail hN' => ?_⟩
  · have hle := hI.pumps
    rw [List.countP_append, List.countP_singleton]
    rcases step_history h with hist | ⟨ha, l, hist⟩ | ⟨i, l, ph, ph', -, -, hist⟩
    · rw [hist]
      omega
    · rw [hist, ha, List.length_append]
      simpa using hle
    · rw [hist, List.length_set]
      omega
  · have hfail' : CancelsFail pre := fun b hb => hfail b (List.mem_append_left _ hb)
    have hst := hI.status hfail' (noneStopped_of_step hN' h)
    rw [firstCancel_concat]
    cases a with
    | cancel status t =>
      rw [(step_cancel h).1]
      cases hfirst : firstCancel pre with
      | none => rfl
      | some first =>
        -- the first `Cancel` has left a failure, so this one carries the same
        obtain ⟨b, hb, hbst⟩ := firstCancel_mem hfirst
        rw [hfirst] at hst
        exact (hC (by rw [hst]; exact hfail' b hb first hbst)).trans hst
    | onStopRequest i status => exact absurd hN' (stop_stopped h)
    | _ =>
      rw [step_mStatus rfl h, hst]
      simp only [Act.cancelStatus, Option.or_none]

/-! ## Runs -/

/-- With one pump, none has stopped before its `OnStopRequest`. -/
theorem noneStopped_before {i : PumpId} {status : NsResult} (hone : s.history.length ≤ 1)
    (h : step s (.onStopRequest i status) = some s') : NoneStopped s := by
  obtain ⟨l, ph, ph', hl, hnext, -⟩ := event_history rfl h
  intro e he
  obtain ⟨j, hj⟩ := List.getElem?_of_mem he
  have hi := (List.getElem?_eq_some_iff.1 hl).1
  have hlt := (List.getElem?_eq_some_iff.1 hj).1
  have hij : i = j := (Nat.lt_one_iff.1 (Nat.lt_of_lt_of_le hi hone)).trans
    (Nat.lt_one_iff.1 (Nat.lt_of_lt_of_le hlt hone)).symm
  subst hij
  rw [hl] at hj
  cases hj
  exact next_live hnext

theorem FirstInv.handed {pre : List Act} (hI : FirstInv pre s) (hfail : CancelsFail pre)
    (hone : pre.countP Act.startsPump ≤ 1) {i : PumpId} {status : NsResult}
    (h : step s (.onStopRequest i status) = some s') :
    ∀ call ∈ s'.log.drop s.log.length, call.2.event = .stop ((firstCancel pre).getD status) := by
  have hst := hI.status hfail (noneStopped_before (Nat.le_trans hI.pumps hone) h)
  obtain ⟨-, ⟨-, rfl⟩ | ⟨l, -, rfl⟩⟩ := step_onStopRequest h
  · intro call hc
    rw [show (s.toPhase i .stopped).crash.log = s.log from rfl, List.drop_length] at hc
    cases hc
  · intro call hc
    rw [List.drop_left, List.mem_singleton] at hc
    rw [hc, hst]
    cases hfirst : firstCancel pre with
    | none => rfl
    | some first =>
      obtain ⟨b, hb, hbst⟩ := firstCancel_mem hfirst
      simp [nsSucceeded, hfail b hb first hbst]

/-- In every run of a new channel with one pump, in which every `Cancel` is made with a failure, the
first failure is latched if and only if every `Cancel` that finds a failure carries the same. -/
theorem latched_iff (acts : List Act) (s : Sys) (hfail : CancelsFail acts)
    (hone : acts.countP Act.startsPump ≤ 1) (h : run step {} acts = some s) :
    Latched acts ↔ EachStep step KeepsFirst {} acts := by
  constructor
  · intro hL
    apply eachStep_iff.2
    intro pre a post s₁ hacts h₁
    cases a with
    | cancel status t =>
      intro hf
      rw [hacts] at h
      obtain ⟨s₁', h₁', hrest⟩ := run_append_some h
      rw [h₁] at h₁'
      cases h₁'
      obtain ⟨s₂, h₂, -⟩ := run_cons_some hrest
      have hrun : run step s₁ [.cancel status t] = some s₂ := by
        rw [run_cons, h₂]
        rfl
      have hkept := hL.keeps pre [.cancel status t] post s₁ s₂ (by simp [hacts]) h₁ hrun hf
      exact (step_cancel h₂).1.symm.trans (congrArg Prod.snd hkept)
    | _ => trivial
  · intro hC
    refine ⟨fun pre mid post s₁ s₂ hacts h₁ h₂ hf => ?_,
      fun pre i status post s₁ s₂ hacts h₁ h₂ => ?_⟩
    · rw [hacts, List.append_assoc] at hC
      exact congrArg (Prod.mk nsOk) (failure_latched hf (hC.at h₁).of_append h₂)
    · subst hacts
      have hpre : FirstInv ([] ++ pre) s₁ := run_inv_acts
        (fun pre s a s' hI hC hs => FirstInv.next hI hC hs)
        ⟨Nat.zero_le _, fun _ _ => rfl⟩ hC.of_append h₁
      rw [List.nil_append] at hpre
      refine hpre.handed (fun a ha => hfail a (List.mem_append_left _ ha)) ?_ h₂
      rw [List.countP_append] at hone
      omega

/-- A load is cancelled twice with one status; its pump stops with another. -/
def cancelledTwice : List Act :=
  [.asyncOpen (some 1) none {}, .onStartRequest 0 none, .cancel nsErrorAbort nsOk,
    .listenerReturns, .cancel nsErrorAbort nsOk, .onStopRequest 0 nsErrorFailure, .listenerReturns]

theorem cancelledTwice_latched : Latched cancelledTwice :=
  (latched_iff cancelledTwice _ (by decide) (by decide) rfl).2 (by decide)

/-- The status of a second `Cancel` replaces that of the first. -/
theorem second_cancel :
    ¬ ∀ (acts : List Act) (s : Sys), CancelsFail acts → acts.countP Act.startsPump ≤ 1 →
      run step {} acts = some s → Latched acts := by
  intro hP
  have hL := hP [.asyncOpen (some 1) none {}, .cancel nsErrorAbort nsOk,
    .cancel nsErrorUnexpected nsOk] _ (by decide) (by decide) rfl
  have hkept := hL.keeps [.asyncOpen (some 1) none {}, .cancel nsErrorAbort nsOk]
    [.cancel nsErrorUnexpected nsOk] [] _ _ rfl rfl rfl (by decide)
  exact absurd hkept (by decide)

end Channel
