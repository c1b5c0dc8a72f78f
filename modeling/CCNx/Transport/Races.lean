import CCNx.Transport.Atomic

/-!
# What races with a section under mLock, and how a section ends

A section that tests `mCondition` and then relies on the test is raced only by the store of a `Read`
in between (`unraced_of_storesOutside`). Whoever holds the lock can drop it again by itself
(`section_bounded`): no section takes a second lock, and only the read loop waits for libccn.
-/

set_option autoImplicit false

namespace Transport.Locked

open Xpcom Runs

/-- Between the test of `mCondition` and the statement that relies on it. -/
def Inside.tested : Inside → Bool
  | .compare | .value | .closeWrite _ _ => true
  | _ => false

/-- `Read` stores `mCondition` only while no other thread is in the middle of such a section. -/
def StoresOutside (s : State) : Act → Prop
  | .outer _ .readStore => ∀ h ∈ s.holder, h.2.tested = false
  | _ => True

instance (s : State) : DecidablePred (StoresOutside s) := fun a =>
  match a with
  | .outer _ .readStore => Option.decidableForallMem _
  | .outer _ .readReturn | .outer _ .notify | .enter _ _ | .inner _ | .leave => isTrue trivial

/-- The condition is what the holder has found it to be. -/
def Agrees (s : Shared) : Inside → Prop
  | .compare => nsFailed s.mCondition = true
  | .value => nsFailed s.mCondition = true ∧ s.mCondition ≠ nsBaseStreamClosed
  | .closeWrite _ _ => nsFailed s.mCondition = false
  | _ => True

theorem Agrees.unraced {s : Shared} {i : Inside} (h : Agrees s i) (d : Option Answer) :
    Unraced s i d := by
  cases i <;> first | exact h | trivial

/-- Each statement leaves the condition as the next one expects it. -/
theorem Agrees.inner {K : FetchCodes} {s s₁ : Shared} {i i₁ : Inside} {d : Option Answer}
    (hA : Agrees s i) (h : inner K s i d = some (s₁, i₁)) : Agrees s₁ i₁ := by
  cases d with
  | some a =>
    cases i with
    | loop ccnfs count st =>
      obtain ⟨-, -, ⟨res, -, rfl⟩ | ⟨-, rfl⟩⟩ := inner_loop_cases h <;> trivial
    | closing todo pc => cases todo <;> cases h
    | _ => cases h
  | none =>
    cases i with
    | test buf count =>
      cases h
      cases hc : nsFailed s.mCondition with
      | false => trivial
      | true => exact hc
    | compare =>
      cases h
      split
      · trivial
      · rename_i hne
        exact ⟨hA, hne⟩
    | closeTest pc reason =>
      cases h
      cases hc : nsFailed s.mCondition with
      | false =>
        rw [nsSucceeded, hc]
        exact hc
      | true =>
        rw [nsSucceeded, hc]
        trivial
    | install pc args =>
      rw [inner_install_eq] at h
      cases htemp : args.temp with
      | error rv =>
        rw [htemp] at h
        cases h
        trivial
      | ok temp =>
        rw [htemp] at h
        cases h
        trivial
    | give buf count =>
      cases h
      cases s.world.tr.mCCNxStream <;> trivial
    | closing todo pc =>
      cases todo with
      | nil => cases h
      | cons c todo =>
        cases h
        trivial
    | online buf count | stream buf count | release ccnfs res st | waitTest pc args =>
      cases h
      split <;> trivial
    | value | ref buf count | closeWrite pc reason | swap pc | waitFlags pc flags =>
      cases h
      trivial
    | loop ccnfs count st => cases h
    | unlock pc => cases h

/-- What other threads do leaves it so, too, unless one of them stores. -/
theorem Agrees.outer {K : FetchCodes} {s s₁ : Shared} {i : Inside} {q q₁ : Pc} {g : Outer}
    (hA : Agrees s i) (hg : g = .readStore → i.tested = false)
    (h : outer K s q g = some (s₁, q₁)) : Agrees s₁ i := by
  rcases outer_cases h with ⟨res, st, rfl, rfl, rfl, rfl⟩ | ⟨st, rfl, rfl, rfl, rfl⟩ |
    ⟨w, rfl, rfl, rfl, rfl⟩
  · have htested := hg rfl
    cases i <;> trivial
  · exact hA
  · cases i <;> exact hA

/-- The condition agrees with what the holder, if there is one, has found. -/
def HolderAgrees (s : State) : Prop := ∀ h ∈ s.holder, Agrees s.shared h.2

theorem HolderAgrees.next {K : FetchCodes} (s : State) (a : Act) (s' : State)
    (hA : HolderAgrees s) (hC : StoresOutside s a) (h : Lock.step (code K) s a = some s') :
    HolderAgrees s' := by
  cases a with
  | enter t e =>
    obtain ⟨p, i, -, -, hi, rfl⟩ := Lock.step_enter h
    rintro - ⟨⟩
    cases e with
    | resume =>
      cases p <;> cases hi
      trivial
    | _ =>
      simp only [code, enter] at hi
      split at hi <;> cases hi
      trivial
  | inner d =>
    obtain ⟨t, i, w, i', hh, hi, rfl⟩ := Lock.step_inner h
    rintro - ⟨⟩
    exact (hA _ hh).inner hi
  | leave =>
    obtain ⟨t, i, p, -, -, rfl⟩ := Lock.step_leave h
    rintro - ⟨⟩
  | outer t g =>
    obtain ⟨p, w, p', -, -, ho, rfl⟩ := Lock.step_outer h
    intro k hk
    refine (hA k hk).outer (fun hg => ?_) ho
    subst hg
    exact hC k hk

/-- In every run, a statement is raced only if a `Read` has stored `mCondition` while another
thread was between the test and the statement that relies on it. -/
theorem unraced_of_storesOutside (K : FetchCodes) (s : State) (hfree : s.holder = none)
    (acts : List Act) (h : EachStep (Lock.step (code K)) StoresOutside s acts) :
    EachStep (Lock.step (code K)) (Lock.Meets Unraced) s acts := by
  have hall : EachState (Lock.step (code K)) HolderAgrees s acts :=
    eachState_of_inv HolderAgrees.next (fun k hk => by rw [hfree] at hk; cases hk) h
  refine hall.steps.mono fun s a hA => ?_
  cases a with
  | inner d => exact fun k hk => (hA k hk).unraced d
  | _ => trivial

theorem unraced_of_storesOutside_interleaved :
    EachStep (Lock.step (code fetchCodes)) (Lock.Meets Unraced) (start {} "ccnx:/a" 3)
      interleaved :=
  unraced_of_storesOutside fetchCodes _ rfl interleaved (by decide)

/-- A `Read` that failed, and a `CloseWithStatus` that has found the stream open. -/
def failedRead : List Act :=
  [.enter 0 (.read [0] 1), .inner none, .inner none, .inner none, .inner none, .inner none,
    .leave, .enter 0 .resume, .inner (some (.timedOut fetchCodes (-1))), .inner none, .inner none,
    .inner none, .inner none, .inner none, .inner none, .inner none, .leave,
    .enter 1 (.closeWithStatus nsBaseStreamClosed), .inner none]

/-- The failure that `Read` stores now is lost: `CloseWithStatus` writes over it. -/
example :
    (run (Lock.step (code fetchCodes)) (start {} "ccnx:/a" 2)
        (failedRead ++ [.outer 0 .readStore])).map (·.shared.mCondition) =
      some nsErrorConnectionRefused ∧
    (run (Lock.step (code fetchCodes)) (start {} "ccnx:/a" 2)
        (failedRead ++ [.outer 0 .readStore, .inner none])).map (·.shared.mCondition) =
      some nsBaseStreamClosed :=
  ⟨rfl, rfl⟩

/-! ## The end of a section -/

/-- How many statements a section has to come, with the read loop at its last iteration. -/
def Inside.toCome : Inside → Nat
  | .unlock _ => 0
  | .closing todo _ => todo.length
  | .give _ _ | .value | .closeWrite _ _ | .swap _ | .waitFlags _ _ => 1
  | .ref _ _ | .compare | .closeTest _ _ | .waitTest _ _ => 2
  | .stream _ _ | .install _ _ => 3
  | .online _ _ => 4
  | .test _ _ => 5
  | .release _ _ _ => 7
  | .loop _ _ _ => 8

/-- A statement that is not the last brings the end nearer; the loop ends with the content. -/
theorem inner_toCome (K : FetchCodes) (s : Shared) (i : Inside) (hi : leave i = none) :
    ∃ d s' i', inner K s i d = some (s', i') ∧ i'.toCome < i.toCome := by
  cases i with
  | loop ccnfs count st =>
    have hle : Answer.ended.read.res ≤ count := Int.natCast_nonneg count
    refine ⟨some .ended, s, .release ccnfs 0 (st.iter K count .ended), ?_, Nat.lt_succ_self 7⟩
    exact if_pos (e := none) hle
  | unlock pc => cases hi
  | closing todo pc =>
    cases todo with
    | nil => cases hi
    | cons c todo => exact ⟨none, _, _, rfl, Nat.lt_succ_self _⟩
  | install pc args =>
    cases htemp : args.temp with
    | error rv =>
      exact ⟨none, s, .unlock pc, by rw [inner_install_eq, htemp], by simp [Inside.toCome]⟩
    | ok temp =>
      exact ⟨none, _, .waitTest pc args, by rw [inner_install_eq, htemp], by simp [Inside.toCome]⟩
  | give buf count =>
    refine ⟨none, _, _, rfl, ?_⟩
    cases s.world.tr.mCCNxStream <;> exact Nat.zero_lt_one
  | value | ref buf count | closeWrite pc reason | swap pc | waitFlags pc flags =>
    exact ⟨none, _, _, rfl, by simp [Inside.toCome]⟩
  | test buf count | compare | online buf count | stream buf count | release ccnfs res st
  | closeTest pc reason | waitTest pc args =>
    refine ⟨none, _, _, rfl, ?_⟩
    split <;> simp [Inside.toCome, CloseStatement.all]

theorem toCome_enter {pc : Pc} {e : Entry} {i : Inside} (h : enter pc e = some i) :
    i.toCome ≤ 8 := by
  cases e with
  | resume =>
    cases pc <;> cases h
    exact Nat.le_refl 8
  | _ =>
    simp only [enter] at h
    split at h <;> cases h
    simp [Inside.toCome]

/-- A statement brings the end nearer, an iteration of the loop at least does not put it off. -/
theorem toCome_inner {K : FetchCodes} {s s' : Shared} {i i' : Inside} {d : Option Answer}
    (h : inner K s i d = some (s', i')) :
    i'.toCome + (if d.isNone then 1 else 0) ≤ i.toCome := by
  cases d with
  | some a =>
    cases i with
    | loop ccnfs count st =>
      obtain ⟨-, -, ⟨res, -, rfl⟩ | ⟨-, rfl⟩⟩ := inner_loop_cases h <;> simp [Inside.toCome]
    | closing todo pc => cases todo <;> cases h
    | _ => cases h
  | none =>
    have hl : leave i = none := by
      cases hl : leave i with
      | none => rfl
      | some pc =>
        unfold leave at hl
        split at hl <;> cases hl <;> cases h
    obtain ⟨d, s₁, i₁, hi, hlt⟩ := inner_toCome K s i hl
    cases d with
    | none =>
      rw [h] at hi
      cases hi
      exact hlt
    | some a =>
      cases i with
      | loop ccnfs count st => cases h
      | closing todo pc => cases todo <;> cases hi
      | _ => cases hi

def isLeave : Act → Bool
  | .leave => true
  | _ => false

/-- A statement other than an iteration of the read loop. -/
def isStatement : Act → Bool
  | .inner none => true
  | _ => false

/-- As long as the lock is not dropped, it stays with its holder, whose statements are counted. -/
theorem held_run {K : FetchCodes} {s s' : State} {t : Nat} {i : Inside} {acts : List Act}
    (hh : s.holder = some (t, i)) (hl : ∀ a ∈ acts, isLeave a = false)
    (h : run (Lock.step (code K)) s acts = some s') :
    ∃ i', s'.holder = some (t, i') ∧ i'.toCome + acts.countP isStatement ≤ i.toCome := by
  induction acts generalizing s i with
  | nil =>
    cases h
    exact ⟨i, hh, Nat.le_refl _⟩
  | cons a acts ih =>
    obtain ⟨s₁, h₁, h₂⟩ := run_cons_some h
    have hl' := fun b hb => hl b (List.mem_cons_of_mem _ hb)
    cases a with
    | enter u e =>
      obtain ⟨p, j, hf, -⟩ := Lock.step_enter h₁
      rw [hh] at hf
      cases hf
    | leave => cases hl _ List.mem_cons_self
    | outer u g =>
      obtain ⟨p, w, p', -, -, -, rfl⟩ := Lock.step_outer h₁
      obtain ⟨i', hh', hle⟩ :=
        ih (s := { s with shared := w, threads := s.threads.set u p' }) hh hl' h₂
      exact ⟨i', hh', by rwa [List.countP_cons_of_neg (by simp [isStatement])]⟩
    | inner d =>
      obtain ⟨u, j, w, i₁, hh₁, hi, rfl⟩ := Lock.step_inner h₁
      rw [hh] at hh₁
      cases hh₁
      obtain ⟨i', hh', hle⟩ := ih rfl hl' h₂
      have hstep := toCome_inner hi
      refine ⟨i', hh', ?_⟩
      cases d with
      | none =>
        rw [List.countP_cons_of_pos (by rfl)]
        simp only [Option.isNone_none, if_true] at hstep
        omega
      | some a =>
        rw [List.countP_cons_of_neg (by simp [isStatement])]
        simp only [Option.isNone_some, Bool.false_eq_true, if_false] at hstep
        omega

/-- However the threads interleave, a section is at most eight statements long beside the
iterations of the read loop; and in every state of it, its thread can end it by itself. -/
theorem section_bounded (K : FetchCodes) (s s₁ s₂ : State) (t : Nat) (e : Entry) (acts : List Act)
    (h : Lock.step (code K) s (.enter t e) = some s₁) (hl : ∀ a ∈ acts, isLeave a = false)
    (hrun : run (Lock.step (code K)) s₁ acts = some s₂) :
    acts.countP isStatement ≤ 8 ∧
      ∃ ds : List (Option Answer), ds.length ≤ 8 ∧ ∃ s₃,
        run (Lock.step (code K)) s₂ (ds.map Lock.Act.inner ++ [Lock.Act.leave]) = some s₃ ∧
          s₃.holder = none := by
  obtain ⟨p, i, -, -, hi, rfl⟩ := Lock.step_enter h
  have hi8 := toCome_enter hi
  obtain ⟨i', hh', hle⟩ := held_run rfl hl hrun
  obtain ⟨ds, hlen, s₃, hrun₃, hfree⟩ :=
    Lock.exists_leave (P := code K) (m := Inside.toCome) (inner_toCome K) hh'
  exact ⟨by omega, ds, by omega, s₃, hrun₃, hfree⟩

/-- The first section of a `Read`, while another thread stores and returns. -/
theorem section_bounded_read :
    ∃ s₁ s₂, Lock.step (code fetchCodes)
        { shared := { world := {} }, threads := [.idle, .storing 0 { buf := [] }] }
        (.enter 0 (.read [0] 1)) = some s₁ ∧
      run (Lock.step (code fetchCodes)) s₁
        [.inner none, .outer 1 .readStore, .inner none, .outer 1 .readReturn] = some s₂ ∧
      ∃ ds : List (Option Answer), ds.length ≤ 8 ∧ ∃ s₃,
        run (Lock.step (code fetchCodes)) s₂ (ds.map Lock.Act.inner ++ [Lock.Act.leave]) =
          some s₃ ∧ s₃.holder = none := by
  refine ⟨_, _, rfl, rfl, (section_bounded fetchCodes
    { shared := { world := {} }, threads := [.idle, .storing 0 { buf := [] }] } ?s₁ _ 0
    (.read [0] 1) [.inner none, .outer 1 .readStore, .inner none, .outer 1 .readReturn] ?enter
    (by decide) ?run).2⟩
  case enter => exact rfl
  case run => exact rfl

end Transport.Locked
