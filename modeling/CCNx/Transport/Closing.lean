import CCNx.Lib.Pool
import CCNx.Transport.System

/-!
# Is a close final?

`mCondition` is documented as protected by `mLock`, and `Read` stores it after it has let go of the
lock. So a `CloseWithStatus` that comes after the check of a `Read` and before its store is
overwritten (`close_overwritten`). `close_final_iff`: in every run a close is final exactly if no
`Read` is in that gap when it takes effect, one that stores the reason itself apart (`CloseClear`).
-/

set_option autoImplicit false

namespace Transport

open Xpcom Runs

variable {K : FetchCodes} {reason : NsResult} {s s' : Sys} {a : Act}

/-- Where a thread may be for a close with `reason` to last. -/
def Pc.clearOf (K : FetchCodes) (reason : NsResult) : Pc → Prop
  | .reading _ _ _ => False
  | .storing res _ => errorAccordingToCCNX K res = reason
  | _ => True

/-- No `Read` is between its check and its store, unless what it stores is `reason`. -/
def CloseClear (K : FetchCodes) (reason : NsResult) (s : Sys) : Prop :=
  ∀ pc ∈ s.threads, pc.clearOf K reason

/-- Whatever happens from here on, `mCondition` is `reason`, and a reading section consumes
nothing. -/
def ClosedForGood (K : FetchCodes) (reason : NsResult) (s : Sys) : Prop :=
  ∀ acts s', run (step K) s acts = some s' →
    s'.mCondition = reason ∧
      ∀ t answers s'', step K s' (.readSection t answers) = some s'' →
        ∃ res st, s''.threads[t]? = some (.storing res st) ∧ delivered st.calls = [] ∧
          st.countRead = 0

/-- The action closes the stream with `reason`: a failure, and the condition was a success. -/
def Closes (reason : NsResult) (s : Sys) (a : Act) : Prop :=
  a.reason? = some reason ∧ nsFailed reason = true ∧ nsFailed s.mCondition = false

/-- If the action closes the stream, then for good. -/
def FinalClose (K : FetchCodes) (s : Sys) (a : Act) : Prop :=
  ∀ reason, Closes reason s a → ∀ s', step K s a = some s' → ClosedForGood K reason s'

/-- If the action closes the stream, then with no `Read` in the gap. -/
def ClosesClear (K : FetchCodes) (s : Sys) (a : Act) : Prop :=
  ∀ reason, Closes reason s a → CloseClear K reason s

instance : DecidablePred (Pc.clearOf K reason) := fun pc =>
  match pc with
  | .reading _ _ _ => inferInstanceAs (Decidable False)
  | .storing res _ => inferInstanceAs (Decidable (errorAccordingToCCNX K res = reason))
  | .idle | .returning _ | .returned _ _ | .notifying _ => inferInstanceAs (Decidable True)

instance : Decidable (CloseClear K reason s) :=
  inferInstanceAs (Decidable (∀ pc ∈ s.threads, pc.clearOf K reason))

instance : Decidable (ClosesClear K s a) :=
  match ha : a.reason? with
  | none => isTrue fun _ hc => nomatch ha.symm.trans hc.1
  | some reason =>
    decidable_of_iff (nsFailed reason = true → nsFailed s.mCondition = false →
        CloseClear K reason s)
      ⟨fun h r hc => by
        cases ha.symm.trans hc.1
        exact h hc.2.1 hc.2.2, fun h hf ho => h reason ⟨ha, hf, ho⟩⟩

theorem clearOf_passive {pc : Pc} (h : pc.passive = true) : pc.clearOf K reason := by
  cases pc with
  | reading f buf count => cases h
  | storing res st => cases h
  | _ => trivial

/-! ## A close with no Read in the gap -/

/-- The stream is closed with `reason`, and no `Read` is about to change that. -/
structure Closed (K : FetchCodes) (reason : NsResult) (s : Sys) : Prop where
  condition : s.mCondition = reason
  clear : CloseClear K reason s

theorem Closed.no_section (hC : Closed K reason s) {t : Nat} {answers : List Answer} :
    step K s (.readSection t answers) ≠ some s' := by
  intro h
  obtain ⟨f, buf, count, st, res, ht, -, -⟩ := step_readSection h
  exact hC.clear _ (List.mem_of_getElem? ht)

theorem Closed.next (hr : nsFailed reason = true) (hC : Closed K reason s)
    (h : step K s a = some s') : Closed K reason s' := by
  refine ⟨?_, fun pc hpc => ?_⟩
  · by_cases hs : ∃ t, a = .readStore t
    · obtain ⟨t, rfl⟩ := hs
      obtain ⟨res, st, ht, rfl⟩ := step_readStore h
      exact hC.clear _ (List.mem_of_getElem? ht)
    · rw [step_mCondition (fun t he => hs ⟨t, he⟩) h, hC.condition]
      cases a.reason? with
      | none => rfl
      | some r => simp [hr]
  · rcases step_position h hpc with hpc | hp | ⟨hc, -⟩ | ⟨t, answers, rfl, -⟩
    · exact hC.clear pc hpc
    · exact clearOf_passive hp
    · rw [hC.condition, hr] at hc
      cases hc
    · exact absurd h hC.no_section

theorem Closed.forGood (hr : nsFailed reason = true) (hC : Closed K reason s) :
    ClosedForGood K reason s := by
  intro acts s' h
  have hC' : Closed K reason s' := run_inv (fun _ _ _ => Closed.next hr) hC h
  exact ⟨hC'.condition, fun t answers s'' h'' => absurd h'' hC'.no_section⟩

/-- A close puts its reason into `mCondition` and moves no thread. -/
theorem Closes.effect (hc : Closes reason s a) (h : step K s a = some s') :
    s'.mCondition = reason ∧ s'.threads = s.threads ∧ s'.destructed = false := by
  obtain ⟨hreason, -, hopen⟩ := hc
  have hd : s.destructed = false := not_destructed h
  obtain ⟨closed, rfl⟩ := step_close hreason h
  refine ⟨?_, rfl, hd⟩
  show (s.world.tr.mInput.closeWithStatus reason).mCondition = reason
  have hopen' : nsFailed s.world.tr.mInput.mCondition = false := hopen
  rw [NsCCNxInputStream.closeWithStatus_eq, hopen']
  rfl

/-! ## A Read in the gap -/

theorem step_readStore_of {t : Nat} {res : Int} {st : ReadSt} (hd : s.destructed = false)
    (ht : s.threads[t]? = some (.storing res st)) :
    ∃ s', step K s (.readStore t) = some s' ∧ s'.mCondition = errorAccordingToCCNX K res := by
  refine ⟨{ s with
    world := { s.world with tr := readStore K s.world.tr res st.countRead }
    threads := s.threads.set t (.returning st) }, ?_, rfl⟩
  simp [step, hd, ht]

/-- A `Read` past its check can find the end of the content at once. -/
theorem step_readSection_of {t count : Nat} {f : Obj} {buf : List UInt8}
    (hd : s.destructed = false) (ht : s.threads[t]? = some (.reading f buf count)) :
    ∃ s' st, step K s (.readSection t [.code 0 0]) = some s' ∧
      s'.threads[t]? = some (.storing 0 st) ∧ s'.destructed = false := by
  let st := ({ buf } : ReadSt).fetched count (Answer.code 0 0).read
  have hloop : readLoop K count [.code 0 0] { buf } = some (st, 0, []) := rfl
  refine ⟨{ s with
    world := s.world.ccnxReleaseLocked f, threads := s.threads.set t (.storing 0 st) }, st, ?_,
    Pool.getElem?_set_same ht, hd⟩
  have hfit : ∀ a ∈ [Answer.code 0 0], a.read.res ≤ count := by simp [Answer.code]
  simp only [step, hd, ht, if_pos hfit, readSection, hloop, Option.map_some, Bool.false_eq_true,
    ↓reduceIte]

/-- A thread that is not clear of a close can undo it. -/
theorem overwritten {t : Nat} {pc : Pc} (hr : nsFailed reason = true) (hd : s.destructed = false)
    (ht : s.threads[t]? = some pc) (hpc : ¬ pc.clearOf K reason) :
    ∃ acts s', run (step K) s acts = some s' ∧ s'.mCondition ≠ reason := by
  cases pc with
  | reading f buf count =>
    obtain ⟨s₁, st, h₁, ht₁, hd₁⟩ := step_readSection_of (K := K) hd ht
    obtain ⟨s₂, h₂, hcond⟩ := step_readStore_of (K := K) hd₁ ht₁
    refine ⟨[.readSection t [.code 0 0], .readStore t], s₂, ?_, fun he => ?_⟩
    · rw [run_cons, h₁, Option.bind_some, run_cons, h₂]
      rfl
    · rw [hcond, errorAccordingToCCNX_nonneg K (by decide)] at he
      rw [← he] at hr
      cases hr
  | storing res st =>
    obtain ⟨s₁, h₁, hcond⟩ := step_readStore_of (K := K) hd ht
    refine ⟨[.readStore t], s₁, ?_, fun he => hpc (hcond.symm.trans he)⟩
    rw [run_cons, h₁]
    rfl
  | _ => exact absurd trivial hpc

/-! ## When a close is final -/

/-- A close is final exactly if no `Read` is in the gap. -/
theorem finalClose_iff (h : step K s a = some s') : FinalClose K s a ↔ ClosesClear K s a := by
  constructor
  · intro hF reason hc pc hmem
    obtain ⟨-, hthreads, hd⟩ := hc.effect h
    apply Classical.byContradiction
    intro hclear
    obtain ⟨t, ht⟩ := List.mem_iff_getElem?.1 hmem
    obtain ⟨acts, s₁, h₁, hne⟩ := overwritten hc.2.1 hd (hthreads ▸ ht) hclear
    exact hne (hF reason hc s' h acts s₁ h₁).1
  · intro hclear reason hc s₁ h₁
    obtain ⟨hcond, hthreads, -⟩ := hc.effect h₁
    exact Closed.forGood hc.2.1 ⟨hcond, fun pc hpc => hclear reason hc pc (hthreads ▸ hpc)⟩

/-- In every run, each close with a failure of a stream that was open is final if and only if each
of them finds no `Read` between its check and its store. -/
theorem close_final_iff (K : FetchCodes) (env : InitEnv) (ccnxName : String) (n : Nat)
    (acts : List Act) (s : Sys) (h : run (step K) (start env ccnxName n) acts = some s) :
    EachStep (step K) (FinalClose K) (start env ccnxName n) acts ↔
      EachStep (step K) (ClosesClear K) (start env ccnxName n) acts :=
  eachStep_congr (fun _ _ _ => finalClose_iff) h

/-- A reader between two calls when the stream is closed, and a close that comes too late. -/
def closedBetween : List Act :=
  [.readCheck 0 [0, 0] 2, .readSection 0 [.data [7], .ended], .readStore 0, .readReturn 0,
    .close 1 nsErrorAbort, .closeWithStatus 1 nsBaseStreamClosed, .readCheck 0 [0, 0] 2]

theorem closedBetween_final :
    EachStep (step fetchCodes) (FinalClose fetchCodes) (start {} "ccnx:/a" 2) closedBetween :=
  (close_final_iff fetchCodes {} "ccnx:/a" 2 closedBetween _ rfl).2 (by decide)

/-- The close falls between the two locked sections of a `Read`: the reading section consumes a
byte, and the store opens the stream again. -/
theorem close_overwritten :
    ¬ ∀ (K : FetchCodes) (env : InitEnv) (ccnxName : String) (n : Nat) (acts : List Act) (s : Sys),
        run (step K) (start env ccnxName n) acts = some s →
        EachStep (step K) (FinalClose K) (start env ccnxName n) acts := by
  intro hP
  have hF := hP fetchCodes {} "ccnx:/a" 2 [.readCheck 0 [0, 0] 2, .closeWithStatus 1 nsErrorAbort]
    _ rfl
  have hclosed := (hF.2 _ rfl).1 nsErrorAbort ⟨rfl, by decide, by decide⟩ _ rfl
  have hcond := (hclosed [.readSection 0 [.data [7], .code 0 0], .readStore 0] _ rfl).1
  exact absurd hcond (by decide)

end Transport
