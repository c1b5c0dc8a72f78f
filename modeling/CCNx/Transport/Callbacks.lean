import CCNx.Lib.Pool
import CCNx.Transport.System

/-!
# Is a waiting callback handed over?

`AsyncWait` on a good stream leaves its callback in `mCallback`. Three kinds of step make the
condition fail, `CloseWithStatus`, `Close` and the store of a `Read`, and none of them looks there:
the call of `OnInputClosed` is commented out and `OnCCNxReady` is empty (`callback_stranded`).
`handedOver_iff`: no callback is stranded exactly if each of these steps finds `mCallback` null.
-/

set_option autoImplicit false

namespace Transport

open Xpcom Runs

variable {K : FetchCodes} {s s' : Sys} {a : Act}

namespace Sys

def mCallback (s : Sys) : Option Waiter := s.world.tr.mInput.mCallback

end Sys

/-- With no method in progress, a failed stream has no callback. -/
def NoneStranded (s : Sys) : Prop :=
  s.threads.all Pc.outside = true → nsFailed s.mCondition = true → s.mCallback = none

/-- The actions from the one that made the condition fail to the return of its call: a `Read` goes
on to `readReturn`, the other calls have returned. Meanwhile no `AsyncWait` replaces what is in
`mCallback`. -/
def UpToReturn (a : Act) (acts : List Act) : Prop :=
  match a with
  | .readStore t => ∃ mid, acts = mid ++ [.readReturn t] ∧
      ∀ b ∈ mid, b ≠ .readReturn t ∧ ∀ u rv cb flags target, b ≠ .asyncWait u rv cb flags target
  | _ => acts = []

/-- If the step makes the condition fail, then the callback that was waiting has been invoked once
when the call returns. -/
def HandsOver (K : FetchCodes) (s : Sys) (a : Act) : Prop :=
  ∀ s' w, step K s a = some s' → nsFailed s.mCondition = false → nsFailed s'.mCondition = true →
    s.mCallback = some w → ∀ acts s'', UpToReturn a acts → run (step K) s' acts = some s'' →
      s''.invoked.count w = s.invoked.count w + 1

/-- The action stores a failure, or would if the condition were good. -/
def Act.fails (s : Sys) : Act → Bool
  | .readStore t => (s.threads[t]?).any fun
    | .storing res _ => res < 0
    | _ => false
  | a => a.reason?.any nsFailed

/-- The step makes the condition fail. -/
def MakesFail (s : Sys) (a : Act) : Prop := nsFailed s.mCondition = false ∧ a.fails s = true

/-- If the step makes the condition fail, then no callback is waiting. -/
def NothingWaits (s : Sys) (a : Act) : Prop := MakesFail s a → s.mCallback = none

instance : Decidable (MakesFail s a) := inferInstanceAs (Decidable (_ ∧ _))

instance : Decidable (NothingWaits s a) := inferInstanceAs (Decidable (_ → _ = none))

/-! ## What a step does to the condition and to the callback -/

theorem step_makesFail (h : step K s a = some s') :
    nsFailed s.mCondition = false ∧ nsFailed s'.mCondition = true ↔ MakesFail s a := by
  apply and_congr_right
  intro hgood
  by_cases hs : ∃ t, a = .readStore t
  · obtain ⟨t, rfl⟩ := hs
    obtain ⟨res, st, ht, rfl⟩ := step_readStore h
    simp only [Act.fails, ht, Option.any_some, decide_eq_true_eq]
    exact failed_errorAccordingToCCNX K res
  · have hne : ∀ t, a ≠ .readStore t := fun t he => hs ⟨t, he⟩
    have hfails : a.fails s = a.reason?.any nsFailed := by
      cases a with
      | readStore t => exact absurd rfl (hne t)
      | _ => rfl
    rw [step_mCondition hne h, hfails]
    cases a.reason? with
    | none => simp [hgood]
    | some reason => simp [hgood]

theorem openInputStream_mCallback (tr : NsCCNxTransport) (flags : Nat) (env : OpenEnv) :
    (tr.openInputStream flags env).2.2.mInput.mCallback = tr.mInput.mCallback := by
  obtain ⟨n, copies, closed, he⟩ := NsCCNxTransport.openInputStream_keeps tr flags env
  rw [he]
  rfl

/-- On a failed stream `AsyncWait` leaves no callback behind. -/
theorem asyncWait_mCallback_failed {st : NsCCNxInputStream} (hf : nsFailed st.mCondition = true)
    (hnone : st.mCallback = none) (newEvent : NsResult) (callback : Option Callback) (flags : Nat)
    (target : Option Target) :
    (st.asyncWait newEvent callback flags target).stream.mCallback = none := by
  unfold NsCCNxInputStream.asyncWait
  simp only [hf, ↓reduceIte]
  split
  · split
    · exact hnone
    · rfl
  · rfl
  · rfl

/-- Only `AsyncWait` changes the callback that waits. -/
theorem step_mCallback (h : step K s a = some s') :
    (∃ t rv cb flags target, a = .asyncWait t rv cb flags target) ∨
      s'.mCallback = s.mCallback := by
  cases a with
  | readCheck t buf count =>
    obtain ⟨pc, -, ⟨rv, -, rfl⟩ | ⟨f, -, -, -, rfl⟩⟩ := step_readCheck h <;> exact .inr rfl
  | readSection t answers =>
    obtain ⟨f, buf, count, st, res, -, -, rfl⟩ := step_readSection h
    exact .inr (congrArg NsCCNxInputStream.mCallback (ccnxReleaseLocked_mInput s.world f))
  | readStore t =>
    obtain ⟨res, st, -, rfl⟩ := step_readStore h
    exact .inr rfl
  | readReturn t =>
    obtain ⟨st, -, rfl⟩ := step_readReturn h
    exact .inr rfl
  | closeWithStatus t reason =>
    obtain ⟨closed, rfl⟩ := step_close rfl h
    exact .inr (by simp only [Sys.mCallback, NsCCNxInputStream.closeWithStatus_eq])
  | close t reason =>
    obtain ⟨closed, rfl⟩ := step_close rfl h
    exact .inr (by simp only [Sys.mCallback, NsCCNxInputStream.closeWithStatus_eq])
  | asyncWait t newEvent callback flags target => exact .inl ⟨_, _, _, _, _, rfl⟩
  | notify t =>
    obtain ⟨w, -, rfl⟩ := step_notify h
    exact .inr rfl
  | openInputStream t flags env =>
    rw [step_openInputStream h]
    exact .inr (openInputStream_mCallback _ _ _)
  | destruct onMain =>
    obtain ⟨-, rfl⟩ := step_destruct h
    refine .inr ?_
    simp only [Sys.mCallback, NsCCNxTransport.destruct]
    split <;> rfl

/-- A failed stream without a callback: what every step keeps that does not strand one. -/
def FailedEmpty (s : Sys) : Prop := nsFailed s.mCondition = true → s.mCallback = none

theorem FailedEmpty.next (hE : FailedEmpty s) (hC : NothingWaits s a)
    (h : step K s a = some s') : FailedEmpty s' := by
  intro hf
  rcases step_mCallback h with ⟨t, rv, cb, flags, target, rfl⟩ | hsame
  · obtain ⟨pc, -, rfl⟩ := step_asyncWait h
    have hcond : nsFailed s.mCondition = true := by
      rw [Sys.mCondition] at hf ⊢
      rwa [asyncWait_mCondition] at hf
    exact asyncWait_mCallback_failed hcond (hE hcond) _ _ _ _
  · rw [hsame]
    cases hgood : nsFailed s.mCondition with
    | true => exact hE hgood
    | false => exact hC ((step_makesFail h).1 ⟨hgood, hf⟩)

/-! ## The step that makes the condition fail -/

theorem step_readReturn_of {t : Nat} {st : ReadSt} (hd : s.destructed = false)
    (ht : s.threads[t]? = some (.returning st)) :
    ∃ s', step K s (.readReturn t) = some s' ∧ s'.invoked = s.invoked :=
  ⟨{ s with threads := s.threads.set t (.returned (readReturn s.world.tr) st.countRead) },
    by simp [step, hd, ht], rfl⟩

/-- It invokes nobody, and its call can return at once. -/
theorem step_returns (h : step K s a = some s') (hM : MakesFail s a) :
    ∃ acts s'', UpToReturn a acts ∧ run (step K) s' acts = some s'' ∧
      s''.invoked = s.invoked := by
  by_cases hs : ∃ t, a = .readStore t
  · obtain ⟨t, rfl⟩ := hs
    have hd := not_destructed h
    obtain ⟨res, st, ht, hs'⟩ := step_readStore h
    have ht' : s'.threads[t]? = some (.returning st) := by
      rw [hs']
      exact Pool.getElem?_set_same ht
    have hd' : s'.destructed = false := by rw [hs']; exact hd
    obtain ⟨s₂, h₂, hinv⟩ := step_readReturn_of (K := K) hd' ht'
    rw [show s'.invoked = s.invoked by rw [hs']] at hinv
    refine ⟨[.readReturn t], s₂, ⟨[], rfl, nofun⟩, ?_, hinv⟩
    rw [run_cons, h₂]
    rfl
  · have hsome : ∃ reason, a.reason? = some reason := by
      have hfails := hM.2
      unfold Act.fails at hfails
      split at hfails
      · exact absurd ⟨_, rfl⟩ hs
      · cases hreason : a.reason? with
        | none => rw [hreason] at hfails; cases hfails
        | some reason => exact ⟨reason, rfl⟩
    obtain ⟨reason, hreason⟩ := hsome
    obtain ⟨closed, rfl⟩ := step_close hreason h
    refine ⟨[], _, ?_, rfl, rfl⟩
    unfold UpToReturn
    split
    · exact absurd ⟨_, rfl⟩ hs
    · rfl

/-- A step hands the waiting callback over only if there is none. -/
theorem handsOver_iff (h : step K s a = some s') : HandsOver K s a ↔ NothingWaits s a := by
  constructor
  · intro hH hM
    cases hw : s.mCallback with
    | none => rfl
    | some w =>
      obtain ⟨acts, s'', hret, hrun, hinv⟩ := step_returns h hM
      have hfail := (step_makesFail h).2 hM
      have hcount := hH s' w h hfail.1 hfail.2 hw acts s'' hret hrun
      rw [hinv] at hcount
      omega
  · intro hC s₁ w h₁ hgood hfail hw
    rw [hC ((step_makesFail h₁).1 ⟨hgood, hfail⟩)] at hw
    cases hw

/-! ## Over runs -/

/-- In every run, no failed stream keeps a callback, and each that was waiting when the condition
failed is invoked before that call returns, if and only if the steps that make the condition fail
find no callback waiting. -/
theorem handedOver_iff (K : FetchCodes) (env : InitEnv) (ccnxName : String) (n : Nat)
    (acts : List Act) (s : Sys) (h : run (step K) (start env ccnxName n) acts = some s) :
    EachState (step K) NoneStranded (start env ccnxName n) acts ∧
        EachStep (step K) (HandsOver K) (start env ccnxName n) acts ↔
      EachStep (step K) NothingWaits (start env ccnxName n) acts := by
  have hsteps : EachStep (step K) (HandsOver K) (start env ccnxName n) acts ↔
      EachStep (step K) NothingWaits (start env ccnxName n) acts :=
    eachStep_congr (fun _ _ _ => handsOver_iff) h
  rw [hsteps]
  refine ⟨And.right, fun hC => ⟨?_, hC⟩⟩
  have hstart : FailedEmpty (start env ccnxName n) := by
    intro _
    simp only [Sys.mCallback, start, (World.init_keeps _ _ _).1]
  have hall : EachState (step K) FailedEmpty (start env ccnxName n) acts :=
    eachState_of_inv (fun _ _ _ hE hc hs => FailedEmpty.next hE hc hs) hstart hC
  exact hall.mono (Q := NoneStranded) fun s hE _ => hE

/-- A wait taken back, and the next one made on the stream when it has been closed. -/
def waitsAfterClose : List Act :=
  [.asyncWait 0 nsOk (some 1) 0 (some 0), .asyncWait 0 nsOk none 0 none,
    .closeWithStatus 1 nsErrorAbort, .asyncWait 0 nsOk (some 2) 0 none, .notify 0]

theorem waitsAfterClose_handedOver :
    EachState (step fetchCodes) NoneStranded (start {} "ccnx:/a" 2) waitsAfterClose ∧
      EachStep (step fetchCodes) (HandsOver fetchCodes) (start {} "ccnx:/a" 2) waitsAfterClose :=
  (handedOver_iff fetchCodes {} "ccnx:/a" 2 waitsAfterClose _ rfl).2 (by decide)

/-- The stream is closed while a callback waits. -/
theorem callback_stranded :
    ¬ ∀ (K : FetchCodes) (env : InitEnv) (ccnxName : String) (n : Nat) (acts : List Act) (s : Sys),
        run (step K) (start env ccnxName n) acts = some s → NoneStranded s := by
  intro hP
  have h := hP fetchCodes {} "ccnx:/a" 2
    [.asyncWait 0 nsOk (some 1) 0 (some 0), .closeWithStatus 1 nsErrorAbort] _ rfl (by decide)
    (by decide)
  cases h

end Transport
