import CCNx.Channel.System

/-!
# Does a cancelled channel fall silent?

`Cancel` stores its status and passes it to `mTransport`, which no code assigns: the pump is not
told, and `OnDataAvailable` forwards without a look at `mStatus` (`data_afterCancel`).
`cancel_silent_iff`: after a `Cancel` with a failure the listener hears no data, and a failure at
the end, exactly if the pump has no more data for it, and at its stop the channel or the pump still
stands at a failure.
-/

set_option autoImplicit false

namespace Channel

open Xpcom Runs

variable {s s' : Sys} {a : Act}

/-- A `Cancel` with a failure status. -/
def Cancels (_ : Sys) : Act → Prop
  | .cancel status _ => nsFailed status = true
  | _ => False

/-- What a listener may still hear after it: no data, and no stop with a success. -/
def Event.afterCancel : Event → Bool
  | .start => true
  | .data _ _ => false
  | .stop status => nsFailed status

/-- The actions up to the next `AsyncOpen`. -/
def thisLoad (acts : List Act) : List Act := acts.takeWhile fun a => !a.opens

/-- Every call of the listener in the rest of the load is one it may hear after a `Cancel`. -/
def Silent (s : Sys) (acts : List Act) : Prop :=
  ∀ s', run step s (thisLoad acts) = some s' →
    ∀ call ∈ s'.log.drop s.log.length, call.2.event.afterCancel = true

/-- The pump delivers no data, and a stop comes while `mStatus` is a failure or with one. (Without a
listener the event is a call through null.) -/
def KeepsFailure (s : Sys) : Act → Prop
  | .onDataAvailable _ _ _ => s.channel.mListener = none
  | .onStopRequest _ status =>
    s.channel.mListener = none ∨ nsFailed s.channel.mStatus = true ∨ nsFailed status = true
  | _ => True

/-- Every step in the rest of the load keeps the failure. -/
def LoadKeepsFailure (s : Sys) (acts : List Act) : Prop :=
  EachStep step KeepsFailure s (thisLoad acts)

instance : DecidablePred (Cancels s) := fun a =>
  match a with
  | .cancel status _ => inferInstanceAs (Decidable (nsFailed status = true))
  | .asyncOpen _ _ _ | .suspend | .resume | .setLoadGroup _ | .setNotificationCallbacks _
  | .onStartRequest _ _ | .onDataAvailable _ _ _ | .onStopRequest _ _ | .listenerReturns =>
    inferInstanceAs (Decidable False)

instance : DecidablePred (KeepsFailure s) := fun a =>
  match a with
  | .onDataAvailable _ _ _ => inferInstanceAs (Decidable (s.channel.mListener = none))
  | .onStopRequest _ _ => inferInstanceAs (Decidable (_ ∨ _ ∨ _))
  | .asyncOpen _ _ _ | .cancel _ _ | .suspend | .resume | .setLoadGroup _
  | .setNotificationCallbacks _ | .onStartRequest _ _ | .listenerReturns =>
    inferInstanceAs (Decidable True)

instance {acts : List Act} : Decidable (LoadKeepsFailure s acts) :=
  inferInstanceAs (Decidable (EachStep _ _ _ _))

/-! ## What a step lets the listener hear -/

/-- The status that a stop carries is a failure if the channel's or the pump's is. -/
theorem stopStatus_failed {st status : NsResult} :
    nsFailed (if nsSucceeded st then status else st) = true ↔
      nsFailed st = true ∨ nsFailed status = true := by
  unfold nsSucceeded
  cases h : nsFailed st with
  | true => simpa using h
  | false => simp

/-- A step adds its calls of the listener to the log; they are calls that it may hear after a
`Cancel` exactly if the step keeps the failure. -/
theorem step_heard (h : step s a = some s') : ∃ heard, s'.log = s.log ++ heard ∧
    ((∀ call ∈ heard, call.2.event.afterCancel = true) ↔ KeepsFailure s a) := by
  have hquiet : a.forwards? s.channel = none → a.opens = false → s'.log = s.log ++ [] := by
    intro hf ho
    rw [List.append_nil]
    rcases step_quiet hf ho h with hQ | ⟨stack, -, rfl⟩
    · exact hQ.log
    · rfl
  cases a with
  | asyncOpen listener ctxt env =>
    have hs' := step_asyncOpen h
    refine ⟨[], ?_, iff_of_true nofun trivial⟩
    split at hs' <;> rw [hs', List.append_nil]
  | onStartRequest i sniffed =>
    obtain ⟨-, ⟨-, rfl⟩ | ⟨call, channel, hsome, rfl⟩⟩ := step_onStartRequest h
    · exact ⟨[], (List.append_nil _).symm, iff_of_true nofun trivial⟩
    · refine ⟨[(i, call)], rfl, iff_of_true (fun c hc => ?_) trivial⟩
      rw [List.mem_singleton.1 hc, NsCCNxChannel.onStartRequest_event hsome]
      rfl
  | onDataAvailable i offset count =>
    obtain ⟨-, ⟨hl, rfl⟩ | ⟨l, hl, rfl⟩⟩ := step_onDataAvailable h
    · exact ⟨[], (List.append_nil _).symm, iff_of_true nofun hl⟩
    · exact ⟨[_], rfl, by simp [KeepsFailure, hl, Event.afterCancel]⟩
  | onStopRequest i status =>
    obtain ⟨-, ⟨hl, rfl⟩ | ⟨l, hl, rfl⟩⟩ := step_onStopRequest h
    · exact ⟨[], (List.append_nil _).symm, iff_of_true nofun (.inl hl)⟩
    · refine ⟨[_], rfl, ?_⟩
      simp only [List.mem_singleton, forall_eq, Event.afterCancel, stopStatus_failed, KeepsFailure,
        hl, reduceCtorEq, false_or]
  | _ => exact ⟨[], hquiet rfl rfl, iff_of_true nofun trivial⟩

/-! ## Runs -/

/-- Over a run: the listener hears only what it may if and only if each step keeps the failure. -/
theorem run_heard {acts : List Act} (h : run step s acts = some s') :
    ∃ heard, s'.log = s.log ++ heard ∧
      ((∀ call ∈ heard, call.2.event.afterCancel = true) ↔ EachStep step KeepsFailure s acts) := by
  induction acts generalizing s with
  | nil =>
    cases h
    exact ⟨[], (List.append_nil _).symm, iff_of_true nofun trivial⟩
  | cons a acts ih =>
    obtain ⟨s₁, h₁, h₂⟩ := run_cons_some h
    obtain ⟨now, hnow, hkeeps⟩ := step_heard h₁
    obtain ⟨later, hlater, hrest⟩ := ih h₂
    refine ⟨now ++ later, by rw [hlater, hnow, List.append_assoc], ?_⟩
    rw [eachStep_cons h₁, ← hkeeps, ← hrest, List.forall_mem_append]

theorem run_thisLoad {acts : List Act} (h : run step s acts = some s') :
    ∃ s₁, run step s (thisLoad acts) = some s₁ := by
  have hsplit : thisLoad acts ++ acts.dropWhile (fun a => !a.opens) = acts :=
    List.takeWhile_append_dropWhile
  rw [← hsplit] at h
  obtain ⟨s₁, h₁, -⟩ := run_append_some h
  exact ⟨s₁, h₁⟩

theorem silent_iff {acts : List Act} (h : run step s acts = some s') :
    Silent s acts ↔ LoadKeepsFailure s acts := by
  obtain ⟨s₁, h₁⟩ := run_thisLoad h
  obtain ⟨heard, hlog, hiff⟩ := run_heard h₁
  have hdrop : s₁.log.drop s.log.length = heard := by rw [hlog, List.drop_left]
  rw [LoadKeepsFailure, ← hiff, ← hdrop]
  exact ⟨fun hS => hS s₁ h₁, fun hall s₂ h₂ => by
    rw [h₁] at h₂
    cases h₂
    exact hall⟩

/-- In every run of a new channel, every load falls silent after each `Cancel` with a failure if and
only if the pump and the later calls of `Cancel` keep the failure. -/
theorem cancel_silent_iff (acts : List Act) (s : Sys) (h : run step {} acts = some s) :
    AfterEach step Cancels Silent {} acts ↔ AfterEach step Cancels LoadKeepsFailure {} acts :=
  afterEach_congr (fun _ _ _ => silent_iff) h

/-- A load is cancelled after its last data; its pump stops with a success. -/
def cancelledLate : List Act :=
  [.asyncOpen (some 1) none {}, .onStartRequest 0 none, .listenerReturns, .onDataAvailable 0 0 4,
    .listenerReturns, .suspend, .cancel nsErrorAbort nsOk, .resume, .onStopRequest 0 nsOk,
    .listenerReturns]

theorem cancelledLate_silent : AfterEach step Cancels Silent {} cancelledLate :=
  (cancel_silent_iff cancelledLate _ rfl).2 (by decide)

/-- The pump has data left when the channel is cancelled, and the listener hears it. -/
theorem data_afterCancel :
    ¬ ∀ (acts : List Act) (s : Sys), run step {} acts = some s →
      AfterEach step Cancels Silent {} acts := by
  intro hP
  have hA := hP [.asyncOpen (some 1) none {}, .onStartRequest 0 none, .listenerReturns,
    .cancel nsErrorAbort nsOk, .onDataAvailable 0 0 4] _ rfl
  obtain ⟨-, hA⟩ := hA _ rfl
  obtain ⟨-, hA⟩ := hA _ rfl
  obtain ⟨-, hA⟩ := hA _ rfl
  have hsilent := (hA _ rfl).1 (by decide) _ rfl
  exact absurd hsilent (by decide)

end Channel
