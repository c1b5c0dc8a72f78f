import CCNx.Core.System

/-!
# Is a wake-up lost?

A callback that waits needs someone who will call `OnInputStreamReady`. `AsyncWait` on an open core
asks `mDataStream` for that, if there is a connection with a stream, and drops the answer; if the
connection fails, now or earlier, it asks nobody and dispatches nothing (`wakeUp_lost`). And a
`CloseWithStatus` with a success lets go of `mDataStream` before it refuses. `wakeUp_iff`: these
are the only ways.
-/

set_option autoImplicit false

namespace Core

open Xpcom Runs Transport

/-- If a callback is pending, the stream is open, and `mDataStream` has accepted an `AsyncWait`
since the callback was registered and has not answered it. -/
def WakeUp (s : Sys) : Prop :=
  s.core.hasPendingCallback = true →
    s.core.isClosed = false ∧
      ∃ stream, s.core.mDataStream = some stream ∧ (stream, s.registrations) ∈ s.waits

/-- There is a connection with a stream, or `Connect` will make one. -/
def Meets (c : NsCCNxCore) (env : Env) : Prop :=
  c.mState = .connect ∧ c.mDataStream.isSome = true ∨
    c.mState = .init ∧ ¬ env.init.connect < 0 ∧ ¬ env.init.nameFromUri c.mInterest < 0 ∧
      nsFailed env.openInput.newPipe2.1 = false

/-- What has to be so before the step: a callback registered on an open core meets a connection,
there or to be had, whose stream accepts the wait; and a close that will be refused comes when no
callback is pending. -/
def Rearms (s : Sys) : Act → Prop
  | .asyncWait (some _) _ env =>
    s.core.isClosed = true ∨ nsFailed env.dataWait = false ∧ Meets s.core env
  | .closeWithStatus reason _ =>
    nsFailed reason = true ∨ s.core.isClosed = true ∨ s.core.hasPendingCallback = false
  | _ => True

/-- `NS_NewInputStreamReadyEvent` hands out an event if it is called. -/
def Act.eventCreated (a : Act) : Prop := ∀ env, a.env? = some env → env.event = true

instance : DecidablePred Act.eventCreated := fun a =>
  inferInstanceAs (Decidable (∀ env, env ∈ a.env? → env.event = true))

instance (c : NsCCNxCore) (env : Env) : Decidable (Meets c env) :=
  inferInstanceAs (Decidable (_ ∧ _ ∨ _ ∧ _))

instance (s : Sys) : DecidablePred (Rearms s) := fun a =>
  match a with
  | .asyncWait (some _) _ _ => inferInstanceAs (Decidable (_ ∨ _ ∧ Meets _ _))
  | .closeWithStatus _ _ => inferInstanceAs (Decidable (_ ∨ _ ∨ _))
  | .asyncWait none _ _ | .onInputStreamReady _ | .available _ | .readSegments _ | .close _
  | .transport _ => inferInstanceAs (Decidable True)

variable {c : NsCCNxCore} {env : Env} {s s' : Sys} {a : Act}

/-- Every accepted wait was made for a callback registered by then. -/
def WaitsBehind (s : Sys) : Prop := ∀ w ∈ s.waits, w.2 ≤ s.registrations

theorem accepted_snd {wait : Option NsResult} {n : Nat} {w : Opened × Nat}
    (h : w ∈ accepted c wait n) : w.2 = n := by
  unfold accepted at h
  split at h
  · split at h
    · cases h
    · rw [List.mem_singleton.1 h]
  · cases h

theorem WaitsBehind.next (hI : WaitsBehind s) (h : step s a = some s') : WaitsBehind s' := by
  cases a with
  | asyncWait callback target env =>
    cases h
    intro w hw
    rcases List.mem_append.1 hw with hw | hw
    · have := hI w hw
      show w.2 ≤ if callback.isSome then s.registrations + 1 else s.registrations
      split <;> omega
    · exact Nat.le_of_eq (accepted_snd hw)
  | onInputStreamReady wait =>
    obtain ⟨-, hreg, hsub⟩ := step_onInputStreamReady h
    exact fun w hw => hreg ▸ hI w (hsub w hw)
  | _ => cases h; exact hI

/-! ## Registering a callback on an open core -/

/-- A stream accepts the wait of this registration exactly if it was asked and did not refuse. -/
theorem mem_accepted {stream : Opened} {wait : Option NsResult} {n : Nat}
    (hs : c.mDataStream = some stream) :
    (stream, n) ∈ accepted c wait n ↔ ∃ rv, wait = some rv ∧ nsFailed rv = false := by
  unfold accepted
  rw [hs]
  cases wait with
  | none => simp
  | some rv => cases hrv : nsFailed rv <;> simp [hrv]

theorem onCallbackPending_meets (c : NsCCNxCore) (env : Env) :
    (c.onCallbackPending env).2.mState = .connect ∧
        (c.onCallbackPending env).2.mDataStream.isSome = true ↔ Meets c env := by
  rw [NsCCNxCore.onCallbackPending_core]
  unfold Meets
  by_cases hi : c.mState = .init
  · rw [if_pos hi, NsCCNxCore.connect_eq]
    by_cases hc : env.init.connect < 0
    · simp [hi, hc]
    · by_cases hn : env.init.nameFromUri c.mInterest < 0
      · simp [hi, hn]
      · cases nsFailed env.openInput.newPipe2.1 <;> simp [hi, hc, hn]
  · rw [if_neg hi]
    simp [hi]

theorem onCallbackPending_keeps (c : NsCCNxCore) (env : Env) :
    (c.onCallbackPending env).2.mCallback = c.mCallback ∧
      (c.onCallbackPending env).2.mStatus = c.mStatus := by
  rw [NsCCNxCore.onCallbackPending_core]
  split
  · obtain ⟨transport, stream, he⟩ := c.connect_keeps env
    rw [he]
    exact ⟨rfl, rfl⟩
  · exact ⟨rfl, rfl⟩

/-- A callback registered on an open core is pending, and will be woken exactly if it meets a
connection whose stream accepts the wait. -/
theorem wakeUp_asyncWait (hB : WaitsBehind s) (hc : s.core.isClosed = false) {cb : Callback}
    {target : Option Target} (h : step s (.asyncWait (some cb) target env) = some s') :
    WakeUp s' ↔ nsFailed env.dataWait = false ∧ Meets s.core env := by
  simp only [step, NsCCNxCore.asyncWait_open _ _ hc, Option.some.injEq] at h
  subst h
  obtain ⟨hcb, hst⟩ := onCallbackPending_keeps (s.core.registered cb target) env
  have hmeets := onCallbackPending_meets (s.core.registered cb target) env
  have hwait := (s.core.registered cb target).onCallbackPending_wait env
  have hM : Meets (s.core.registered cb target) env ↔ Meets s.core env := Iff.rfl
  rw [hM] at hmeets
  rw [hwait]
  generalize ((s.core.registered cb target).onCallbackPending env).2 = c' at *
  have hpend : c'.hasPendingCallback = true := by
    rw [NsCCNxCore.hasPendingCallback, hcb]
    rfl
  have hopen : c'.isClosed = false := by
    rw [NsCCNxCore.isClosed, hst]
    exact hc
  constructor
  · intro hW
    obtain ⟨-, stream, hs, hmem⟩ := hW hpend
    rcases List.mem_append.1 hmem with hmem | hmem
    · exact absurd (hB _ hmem) (by simp)
    · obtain ⟨rv, hrv, hok⟩ := (mem_accepted hs).1 hmem
      split at hrv
      · rename_i hcond
        cases hrv
        exact ⟨hok, hmeets.1 hcond⟩
      · cases hrv
  · rintro ⟨hok, hm⟩ -
    have hcond := hmeets.2 hm
    obtain ⟨stream, hs⟩ := Option.isSome_iff_exists.1 hcond.2
    refine ⟨hopen, stream, hs, List.mem_append_right _ ((mem_accepted hs).2 ?_)⟩
    exact ⟨env.dataWait, if_pos hcond, hok⟩

/-! ## The other steps -/

theorem wakeUp_of_none (h : s.core.mCallback = none) : WakeUp s := by
  intro hp
  rw [NsCCNxCore.hasPendingCallback, h] at hp
  cases hp

/-- A close with a failure on an open core leaves no callback that could wait for a wake-up. -/
theorem wakeUp_closed {reason : NsResult} (hc : s.core.isClosed = false)
    (hr : nsFailed reason = true) (he : env.event = true) :
    WakeUp { s with core := (s.core.closeWithStatus reason env).core } := by
  apply wakeUp_of_none
  rw [NsCCNxCore.closeWithStatus_open hc hr]
  exact NsCCNxCore.dispatchCallback_clears true fun _ => he

/-- A refused close loses the wake-up of a callback that is pending. -/
theorem wakeUp_refused {reason : NsResult} (hW : WakeUp s) (hr : nsFailed reason = false) :
    WakeUp { s with core := (s.core.closeWithStatus reason env).core } ↔
      s.core.isClosed = true ∨ s.core.hasPendingCallback = false := by
  simp only [WakeUp, NsCCNxCore.closeWithStatus_rejected hr]
  constructor
  · intro hW'
    cases hp : s.core.hasPendingCallback with
    | true =>
      -- the stream is gone, so nobody may be waiting for it
      obtain ⟨-, stream, hs, -⟩ := hW' hp
      cases hs
    | false => exact .inr rfl
  · rintro (hc | hp) hp'
    · exact absurd (hW hp').1 (by simp [hc])
    · exact absurd (hp.symm.trans hp') Bool.false_ne_true

/-- From a state in which no wake-up is lost, a step loses none if and only if it rearms. -/
theorem wakeUp_step (hW : WakeUp s) (hB : WaitsBehind s) (he : a.eventCreated)
    (h : step s a = some s') : WakeUp s' ↔ Rearms s a := by
  cases a with
  | asyncWait callback target env =>
    cases callback with
    | none =>
      cases h
      exact iff_of_true (wakeUp_of_none rfl) trivial
    | some cb =>
      cases hc : s.core.isClosed with
      | true =>
        cases h
        refine iff_of_true (wakeUp_of_none ?_) (.inl hc)
        rw [NsCCNxCore.asyncWait_dispatched cb target hc (he env rfl)]
      | false =>
        rw [wakeUp_asyncWait hB hc h, Rearms, hc]
        simp only [Bool.false_eq_true, false_or]
  | onInputStreamReady wait =>
    refine iff_of_true (wakeUp_of_none ?_) trivial
    rw [(step_onInputStreamReady h).1]
    exact NsCCNxCore.onInputStreamReady_core.1
  | available data => cases h; exact iff_of_true hW trivial
  | readSegments data => cases h; exact iff_of_true hW trivial
  | transport w => cases h; exact iff_of_true hW trivial
  | close env =>
    cases h
    refine iff_of_true ?_ trivial
    unfold NsCCNxCore.close
    split
    · exact hW
    · rename_i hc
      exact wakeUp_closed (by simpa using hc) failed_closed (he env rfl)
  | closeWithStatus reason env =>
    cases h
    cases hr : nsFailed reason with
    | false =>
      rw [wakeUp_refused hW hr, Rearms, hr]
      simp only [Bool.false_eq_true, false_or]
    | true =>
      refine iff_of_true ?_ (.inl hr)
      cases hc : s.core.isClosed with
      | false => exact wakeUp_closed hc hr (he env rfl)
      | true =>
        intro hp
        rw [NsCCNxCore.closeWithStatus_closed _ hc] at hp
        exact absurd (hW hp).1 (by simp [hc])

/-- In every run in which creating the ready event succeeds, no wake-up is lost in any state if and
only if every step rearms. -/
theorem wakeUp_iff (interest : String) (acts : List Act) (s : Sys)
    (h : run step (start interest) acts = some s) (he : ∀ a ∈ acts, a.eventCreated) :
    EachState step WakeUp (start interest) acts ↔ EachStep step Rearms (start interest) acts := by
  have hW : WakeUp (start interest) := wakeUp_of_none rfl
  have hB : WaitsBehind (start interest) := fun w hw => nomatch hw
  apply eachState_iff_eachStep (I := WaitsBehind) (A := Act.eventCreated) _ _ hB hW he h
  · exact fun s a s' hB _ hs => hB.next hs
  · exact fun s a s' hB hW he hs => wakeUp_step hW hB he hs

/-- A load: connect, one wake-up with data, a second wait, and the close. -/
def load : List Act :=
  [.asyncWait (some 1) (some 0) {}, .onInputStreamReady (some (.pipe 0, 1)),
    .readSegments (nsOk, 4), .asyncWait (some 1) (some 0) {}, .closeWithStatus nsErrorAbort {}]

theorem load_wakeUp : EachState step WakeUp (start "/a") load :=
  (wakeUp_iff "/a" load _ rfl (by decide)).2 (by decide)

/-- `ccn_connect` fails: the callback is neither dispatched, nor does anyone wait for it. -/
theorem wakeUp_lost :
    ¬ ∀ (interest : String) (acts : List Act) (s : Sys), run step (start interest) acts = some s →
        (∀ a ∈ acts, a.eventCreated) → WakeUp s := by
  intro hP
  have hW := hP "/a" [.asyncWait (some 1) (some 0) { init := { connect := -1 } }] _ rfl
    (by decide) rfl
  obtain ⟨-, stream, hs, -⟩ := hW
  cases hs

end Core
