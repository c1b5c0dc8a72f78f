import CCNx.Transport.Statements

/-!
# Sections under mLock as single steps

`Matches` places the thread that holds `mLock` in the system of `Transport/System.lean`: a section
takes its effect there at one of its statements, the last that reads or writes `mCondition`, or
`--mCCNxRef`. Only `Read`'s unlocked store of `mCondition` can come between the test of a section
and that statement; `Unraced` says that it changed nothing the section relies on.
-/

set_option autoImplicit false

namespace Transport.Locked

open Xpcom Runs

/-! ## The two effects of a race -/

/-- The steps of `Transport/System.lean`, and what a store of `mCondition` in the middle of a
section can make of it. -/
inductive RacedAct
  | act (a : Transport.Act)
  /-- `CloseWithStatus` writes its reason over a failure stored since its test. -/
  | overwrite (t : Nat) (reason : NsResult)
  /-- A `Read` that was to return a failure returns what was stored since its test. -/
  | refuse (t : Nat)

def racedStep (K : FetchCodes) (s : Sys) : RacedAct → Option Sys
  | .act a => Transport.step K s a
  | .overwrite t reason =>
    if nsFailed s.mCondition then
      (s.caller t).map fun _ =>
        { s with world := { s.world with tr := { s.world.tr with
            mInput := { s.world.tr.mInput with mCondition := reason } } } }
    else none
  | .refuse t =>
    if nsFailed s.mCondition ∧ s.mCondition ≠ nsBaseStreamClosed then none
    else
      (s.caller t).map fun _ => { s with threads := s.threads.set t (.returned s.mCondition 0) }

/-- The statement finds `mCondition` as its section's test did: still a success where
`CloseWithStatus` writes over it, still a failure to report where `Read` returns it. -/
def Unraced (s : Shared) (i : Inside) (_ : Option Answer) : Prop :=
  match i with
  | .value => nsFailed s.mCondition = true ∧ s.mCondition ≠ nsBaseStreamClosed
  | .closeWrite _ _ => nsFailed s.mCondition = false
  | _ => True

instance (s : Shared) (d : Option Answer) : ∀ i : Inside, Decidable (Unraced s i d)
  | .value =>
    inferInstanceAs (Decidable (nsFailed s.mCondition = true ∧ s.mCondition ≠ nsBaseStreamClosed))
  | .closeWrite _ _ => inferInstanceAs (Decidable (nsFailed s.mCondition = false))
  | .test _ _ | .compare | .online _ _ | .stream _ _ | .ref _ _ | .give _ _ | .loop _ _ _
  | .release _ _ _ | .closing _ _ | .closeTest _ _ | .install _ _ | .waitTest _ _ | .swap _
  | .waitFlags _ _ | .unlock _ => isTrue trivial

/-! ## The holder's place -/

/-- What `CCNX_GetLocked` and the rest of its section make of the caller. -/
def got (s : Shared) (buf : List UInt8) (count : Nat) : Shared × Pc :=
  match s.world.tr.ccnxGetLocked with
  | (none, tr) => (s.withTr tr, .returned nsBaseStreamClosed 0)
  | (some ccnfs, tr) => (s.withTr tr, .reading ccnfs buf count)

/-- The holder of `mLock` at `i` counts as a thread at `p`, with `s'` shared. -/
inductive Matches (K : FetchCodes) (s : Shared) : Inside → Shared → Pc → Prop
  | test {buf : List UInt8} {count : Nat} {pc : Pc} (ho : pc.outside = true) :
      Matches K s (.test buf count) s pc
  | compare {pc : Pc} (ho : pc.outside = true) : Matches K s .compare s pc
  | value {pc : Pc} (ho : pc.outside = true) : Matches K s .value s pc
  | online {buf : List UInt8} {count : Nat} :
      Matches K s (.online buf count) (got s buf count).1 (got s buf count).2
  | stream {buf : List UInt8} {count : Nat} (hon : s.world.tr.mCCNxOnline = true) :
      Matches K s (.stream buf count) (got s buf count).1 (got s buf count).2
  | ref {buf : List UInt8} {count : Nat} (hon : s.world.tr.mCCNxOnline = true)
      (hs : s.world.tr.mCCNxStream.isSome = true) :
      Matches K s (.ref buf count) (got s buf count).1 (got s buf count).2
  | give {buf : List UInt8} {count : Nat} :
      Matches K s (.give buf count) s (match s.world.tr.mCCNxStream with
        | none => .returned nsBaseStreamClosed 0
        | some ccnfs => .reading ccnfs buf count)
  | loop {ccnfs : Obj} {buf : List UInt8} {count : Nat} {st : ReadSt} {answers : List Answer}
      (hle : ∀ a ∈ answers, a.read.res ≤ count)
      (hst : ∀ rest, readLoop K count (answers ++ rest) { buf } = readLoop K count rest st) :
      Matches K s (.loop ccnfs count st) s (.reading ccnfs buf count)
  | release {ccnfs : Obj} {buf : List UInt8} {count : Nat} {res : Int} {st : ReadSt}
      {answers : List Answer} (hle : ∀ a ∈ answers, a.read.res ≤ count)
      (hst : readLoop K count answers { buf } = some (st, res, [])) :
      Matches K s (.release ccnfs res st) s (.reading ccnfs buf count)
  | closing {todo : List CloseStatement} {pc : Pc} :
      Matches K s (.closing todo pc) { s with world := todo.foldl CloseStatement.exec s.world } pc
  | closeTest {pc : Pc} {reason : NsResult} (ho : pc.outside = true) :
      Matches K s (.closeTest pc reason) s pc
  | closeWrite {pc : Pc} {reason : NsResult} (ho : pc.outside = true) :
      Matches K s (.closeWrite pc reason) s pc
  | install {pc : Pc} {args : WaitArgs} (ho : pc.outside = true) :
      Matches K s (.install pc args) s pc
  | waitTest {pc : Pc} {args : WaitArgs} (ho : pc.outside = true) (old : Option Waiter)
      (htemp : args.temp = .ok s.world.tr.mInput.mCallback) :
      Matches K s (.waitTest pc args)
        (s.withInput { s.world.tr.mInput with mCallback := old }) pc
  | swap {pc : Pc} :
      Matches K s (.swap pc) (s.withInput { s.world.tr.mInput with mCallback := none })
        (match s.world.tr.mInput.mCallback with
          | some w => .notifying w
          | none => pc)
  | waitFlags {pc : Pc} {flags : Nat} :
      Matches K s (.waitFlags pc flags)
        (s.withInput { s.world.tr.mInput with mCallbackFlags := flags }) pc
  | unlock {pc : Pc} : Matches K s (.unlock pc) s pc

/-! ## Other threads meanwhile -/

/-- What a thread without the lock writes: the two members that `Read` stores, and the history. -/
def Shared.put (s : Shared) (mCondition : NsResult) (mByteCount : Nat) (invoked : List Waiter) :
    Shared :=
  { s.withInput { s.world.tr.mInput with mCondition, mByteCount } with invoked }

theorem outer_cases {K : FetchCodes} {s s₁ : Shared} {q q₁ : Pc} {g : Outer}
    (h : outer K s q g = some (s₁, q₁)) :
    (∃ res st, q = .storing res st ∧ g = .readStore ∧ q₁ = .returning st ∧
        s₁ = s.put (errorAccordingToCCNX K res) st.countRead s.invoked) ∨
      (∃ st, q = .returning st ∧ g = .readReturn ∧ s₁ = s ∧
        q₁ = .returned s.mCondition st.countRead) ∨
      ∃ w, q = .notifying w ∧ g = .notify ∧ q₁ = .idle ∧
        s₁ = s.put s.mCondition s.world.tr.mInput.mByteCount (s.invoked ++ [w]) := by
  unfold outer at h
  split at h <;> cases h
  · exact .inl ⟨_, _, rfl, rfl, rfl, rfl⟩
  · exact .inr (.inl ⟨_, rfl, rfl, rfl, rfl⟩)
  · exact .inr (.inr ⟨_, rfl, rfl, rfl, rfl⟩)

section
variable {K : FetchCodes} {s s' : Shared} {i : Inside} {p : Pc}

theorem got_offline {buf : List UInt8} {count : Nat} (hon : s.world.tr.mCCNxOnline = false) :
    got s buf count = (s, .returned nsBaseStreamClosed 0) := by
  have hg : s.world.tr.ccnxGetLocked = (none, s.world.tr) := by
    simp [NsCCNxTransport.ccnxGetLocked, hon]
  rw [got, hg]
  rfl

theorem got_none {buf : List UInt8} {count : Nat} (hs : s.world.tr.mCCNxStream = none) :
    got s buf count = (s, .returned nsBaseStreamClosed 0) := by
  have hg : s.world.tr.ccnxGetLocked = (none, s.world.tr) := by
    simp [NsCCNxTransport.ccnxGetLocked, hs]
  rw [got, hg]
  rfl

theorem got_some {buf : List UInt8} {count : Nat} {ccnfs : Obj}
    (hon : s.world.tr.mCCNxOnline = true) (hs : s.world.tr.mCCNxStream = some ccnfs) :
    got s buf count =
      (s.withTr { s.world.tr with mCCNxRef := (s.world.tr.mCCNxRef + 1) % 0x100000000 },
        .reading ccnfs buf count) := by
  have hg : s.world.tr.ccnxGetLocked = (some ccnfs,
      { s.world.tr with mCCNxRef := (s.world.tr.mCCNxRef + 1) % 0x100000000 }) := by
    simp [NsCCNxTransport.ccnxGetLocked, hon, hs]
  rw [got, hg]

theorem got_put (mCondition : NsResult) (mByteCount : Nat) (invoked : List Waiter)
    (buf : List UInt8) (count : Nat) :
    got (s.put mCondition mByteCount invoked) buf count =
      ((got s buf count).1.put mCondition mByteCount invoked, (got s buf count).2) := by
  cases hon : s.world.tr.mCCNxOnline with
  | false =>
    rw [got_offline hon]
    exact got_offline hon
  | true =>
    cases hs : s.world.tr.mCCNxStream with
    | none =>
      rw [got_none hs]
      exact got_none hs
    | some ccnfs =>
      rw [got_some hon hs]
      exact got_some hon hs

theorem exec_put (todo : List CloseStatement) (mCondition : NsResult) (mByteCount : Nat)
    (invoked : List Waiter) :
    { s.put mCondition mByteCount invoked with
        world := todo.foldl CloseStatement.exec (s.put mCondition mByteCount invoked).world } =
      Shared.put { s with world := todo.foldl CloseStatement.exec s.world } mCondition mByteCount
        invoked := by
  induction todo generalizing s with
  | nil => rfl
  | cons c todo ih =>
    rw [List.foldl_cons, List.foldl_cons]
    have := ih (s := { s with world := c.exec s.world })
    cases c <;> exact this

/-- What other threads write does not change the holder's place. -/
theorem Matches.put (h : Matches K s i s' p) (mCondition : NsResult) (mByteCount : Nat)
    (invoked : List Waiter) :
    Matches K (s.put mCondition mByteCount invoked) i (s'.put mCondition mByteCount invoked) p := by
  cases h with
  | test ho => exact .test ho
  | compare ho => exact .compare ho
  | value ho => exact .value ho
  | @online buf count =>
    have : Matches K (s.put mCondition mByteCount invoked) (.online buf count) _ _ := .online
    rwa [got_put] at this
  | @stream buf count hon =>
    have : Matches K (s.put mCondition mByteCount invoked) (.stream buf count) _ _ := .stream hon
    rwa [got_put] at this
  | @ref buf count hon hs =>
    have : Matches K (s.put mCondition mByteCount invoked) (.ref buf count) _ _ := .ref hon hs
    rwa [got_put] at this
  | give => exact .give
  | loop hle hst => exact .loop hle hst
  | release hle hst => exact .release hle hst
  | @closing todo =>
    have : Matches K (s.put mCondition mByteCount invoked) (.closing todo p) _ _ := .closing
    rwa [exec_put] at this
  | closeTest ho => exact .closeTest ho
  | closeWrite ho => exact .closeWrite ho
  | install ho => exact .install ho
  | waitTest ho old htemp => exact .waitTest ho old htemp
  | swap => exact .swap
  | waitFlags => exact .waitFlags
  | unlock => exact .unlock

/-- The holder's place differs from the state at hand in nothing that other threads see. -/
theorem Matches.same (h : Matches K s i s' p) :
    s'.mCondition = s.mCondition ∧
      s'.world.tr.mInput.mByteCount = s.world.tr.mInput.mByteCount ∧ s'.invoked = s.invoked := by
  have hgot : ∀ buf count, (got s buf count).1.mCondition = s.mCondition ∧
      (got s buf count).1.world.tr.mInput.mByteCount = s.world.tr.mInput.mByteCount ∧
      (got s buf count).1.invoked = s.invoked := by
    intro buf count
    cases hon : s.world.tr.mCCNxOnline with
    | false =>
      rw [got_offline hon]
      exact ⟨rfl, rfl, rfl⟩
    | true =>
      cases hs : s.world.tr.mCCNxStream with
      | none =>
        rw [got_none hs]
        exact ⟨rfl, rfl, rfl⟩
      | some ccnfs =>
        rw [got_some hon hs]
        exact ⟨rfl, rfl, rfl⟩
  have hexec : ∀ (todo : List CloseStatement) (w : World),
      (todo.foldl CloseStatement.exec w).tr.mInput = w.tr.mInput := by
    intro todo
    induction todo with
    | nil => exact fun w => rfl
    | cons c todo ih => exact fun w => (ih _).trans (by cases c <;> rfl)
  cases h with
  | online => exact hgot _ _
  | stream hon => exact hgot _ _
  | ref hon hs => exact hgot _ _
  | @closing todo =>
    have hin := hexec todo s.world
    exact ⟨congrArg NsCCNxInputStream.mCondition hin, congrArg NsCCNxInputStream.mByteCount hin,
      rfl⟩
  | _ => exact ⟨rfl, rfl, rfl⟩

theorem Matches.commute (h : Matches K s i s' p) {s₁ : Shared} {q q₁ : Pc} {g : Outer}
    (ho : outer K s q g = some (s₁, q₁)) :
    ∃ s₁', outer K s' q g = some (s₁', q₁) ∧ Matches K s₁ i s₁' p := by
  obtain ⟨hc, hb, hi⟩ := h.same
  rcases outer_cases ho with ⟨res, st, rfl, rfl, rfl, rfl⟩ | ⟨st, rfl, rfl, rfl, rfl⟩ |
    ⟨w, rfl, rfl, rfl, rfl⟩
  · refine ⟨_, rfl, ?_⟩
    rw [← hi]
    exact h.put _ _ _
  · exact ⟨s', by rw [← hc]; rfl, h⟩
  · refine ⟨_, rfl, ?_⟩
    have := h.put s.mCondition s.world.tr.mInput.mByteCount (s.invoked ++ [w])
    rw [← hc, ← hb, ← hi] at this ⊢
    exact this

end

/-! ## The steps of the other system -/

section
variable {K : FetchCodes} {s : Shared} {ps : List Pc} {t : Nat} {pc : Pc} {ccnfs : Obj}
  {buf : List UInt8} {count : Nat} {answers : List Answer} {st : ReadSt} {res : Int}

theorem caller_sys (hp : ps[t]? = some pc) (ho : pc.outside = true) :
    (sys s ps).caller t = some pc :=
  caller_eq_some.2 ⟨hp, ho⟩

theorem step_refused (hp : ps[t]? = some pc) (ho : pc.outside = true)
    (hc : nsFailed s.mCondition = true) :
    Transport.step K (sys s ps) (.readCheck t [] 0) =
      some (sys s (ps.set t (.returned
        (if s.mCondition = nsBaseStreamClosed then nsOk else s.mCondition) 0))) := by
  have hr : readCheck s.world.tr =
      (.error (if s.mCondition = nsBaseStreamClosed then nsOk else s.mCondition), s.world.tr) :=
    if_pos hc
  simp only [Transport.step, caller_sys hp ho]
  simp only [sys, hr, Bool.false_eq_true, ↓reduceIte]

theorem step_got (hp : ps[t]? = some pc) (ho : pc.outside = true)
    (hc : nsFailed s.mCondition = false) (buf : List UInt8) (count : Nat) :
    Transport.step K (sys s ps) (.readCheck t buf count) =
      some (sys (got s buf count).1 (ps.set t (got s buf count).2)) := by
  have hr : readCheck s.world.tr = match s.world.tr.ccnxGetLocked with
      | (none, tr) => (.error nsBaseStreamClosed, tr)
      | (some ccnfs, tr) => (.ok ccnfs, tr) :=
    if_neg (by rw [show nsFailed s.world.tr.mInput.mCondition = false from hc]; decide)
  simp only [Transport.step, caller_sys hp ho, got]
  simp only [sys, hr]
  cases s.world.tr.ccnxGetLocked with
  | mk f tr => cases f <;> rfl

theorem step_section (hp : ps[t]? = some (.reading ccnfs buf count))
    (hle : ∀ a ∈ answers, a.read.res ≤ count)
    (hst : readLoop K count answers { buf } = some (st, res, [])) :
    Transport.step K (sys s ps) (.readSection t answers) =
      some (sys { s with world := s.world.ccnxReleaseLocked ccnfs }
        (ps.set t (.storing res st))) := by
  simp only [Transport.step, sys, hp, if_pos hle, readSection, hst]
  rfl

theorem step_closeWithStatus (hp : ps[t]? = some pc) (ho : pc.outside = true)
    (reason : NsResult) :
    Transport.step K (sys s ps) (.closeWithStatus t reason) =
      some (sys (s.withInput (s.world.tr.mInput.closeWithStatus reason)) ps) := by
  simp only [Transport.step, caller_sys hp ho]
  rfl

theorem step_wait (hp : ps[t]? = some pc) (ho : pc.outside = true) (args : WaitArgs) :
    Transport.step K (sys s ps)
        (.asyncWait t args.newEvent args.callback args.flags args.target) =
      let out := s.world.tr.mInput.asyncWait args.newEvent args.callback args.flags args.target
      some (sys (s.withInput out.stream) (ps.set t (match out.direct with
        | some w => .notifying w
        | none => pc))) := by
  simp only [Transport.step, caller_sys hp ho]
  rfl

theorem asyncWait_error {args : WaitArgs} {rv : NsResult} (ht : args.temp = .error rv)
    (st : NsCCNxInputStream) :
    st.asyncWait args.newEvent args.callback args.flags args.target =
      { rv, direct := none, stream := st } := by
  obtain ⟨newEvent, callback, flags, target⟩ := args
  cases callback with
  | none => cases ht
  | some cb =>
    cases target with
    | none => cases ht
    | some tgt =>
      by_cases he : nsFailed newEvent = true
      · simp only [WaitArgs.temp, if_pos he] at ht
        cases ht
        exact if_pos he
      · simp only [WaitArgs.temp, if_neg he] at ht
        cases ht

theorem asyncWait_ok {args : WaitArgs} {w : Option Waiter} (ht : args.temp = .ok w)
    (st : NsCCNxInputStream) :
    (st.asyncWait args.newEvent args.callback args.flags args.target).direct =
        (if nsFailed st.mCondition then w else none) ∧
      (st.asyncWait args.newEvent args.callback args.flags args.target).stream =
        if nsFailed st.mCondition then { st with mCallback := none }
        else { st with mCallback := w, mCallbackFlags := args.flags } := by
  obtain ⟨newEvent, callback, flags, target⟩ := args
  unfold NsCCNxInputStream.asyncWait
  cases callback with
  | none =>
    cases ht
    dsimp only
    split <;> exact ⟨rfl, rfl⟩
  | some cb =>
    cases target with
    | none =>
      cases ht
      dsimp only
      split <;> exact ⟨rfl, rfl⟩
    | some tgt =>
      by_cases he : nsFailed newEvent = true
      · simp only [WaitArgs.temp, if_pos he] at ht
        cases ht
      · simp only [WaitArgs.temp, if_neg he] at ht
        cases ht
        simp only [if_neg he]
        split <;> exact ⟨rfl, rfl⟩

end

/-! ## A statement in the other system -/

/-- What a statement of the holder, at `t`, is in the other system: nothing, a step, or, if the
statement is raced, an effect of the race. -/
def Effect (K : FetchCodes) (s : Shared) (i : Inside) (d : Option Answer) (ps : List Pc) (t : Nat)
    (s' : Shared) (p : Pc) (s₁' : Shared) (p₁ : Pc) : Prop :=
  (s₁' = s' ∧ p₁ = p) ∨
    (∃ a, Transport.step K (sys s' ps) a = some (sys s₁' (ps.set t p₁))) ∨
    (¬ Unraced s i d ∧ ∃ a, racedStep K (sys s' ps) a = some (sys s₁' (ps.set t p₁)))

section
variable {K : FetchCodes} {s s' s₁ : Shared} {i i₁ : Inside} {p : Pc} {ps : List Pc} {t : Nat}
  {ccnfs : Obj} {buf : List UInt8} {count : Nat} {answers : List Answer} {st : ReadSt} {res : Int}

/-- The statements of `Read`'s first section. -/
theorem inner_check (hp : ps[t]? = some p) {buf : List UInt8} {count : Nat}
    (ho : p.outside = true) (h : inner K s (.test buf count) none = some (s₁, i₁)) :
    ∃ s₁' p₁, Matches K s₁ i₁ s₁' p₁ ∧ Effect K s (.test buf count) none ps t s p s₁' p₁ := by
  cases h
  cases hc : nsFailed s.mCondition with
  | true => exact ⟨s, p, .compare ho, .inl ⟨rfl, rfl⟩⟩
  | false => exact ⟨_, _, .online, .inr (.inl ⟨_, step_got hp ho hc buf count⟩)⟩

theorem inner_value (hp : ps[t]? = some p) (ho : p.outside = true)
    (h : inner K s .value none = some (s₁, i₁)) :
    ∃ s₁' p₁, Matches K s₁ i₁ s₁' p₁ ∧ Effect K s .value none ps t s p s₁' p₁ := by
  cases h
  refine ⟨s, _, .unlock, .inr ?_⟩
  by_cases hu : nsFailed s.mCondition = true ∧ s.mCondition ≠ nsBaseStreamClosed
  · have hstep := step_refused (K := K) hp ho hu.1
    rw [if_neg hu.2] at hstep
    exact .inl ⟨_, hstep⟩
  · refine .inr ⟨hu, .refuse t, ?_⟩
    simp only [racedStep, caller_sys hp ho]
    exact if_neg hu

theorem inner_closeWrite (hp : ps[t]? = some p) (ho : p.outside = true) {reason : NsResult}
    (h : inner K s (.closeWrite p reason) none = some (s₁, i₁)) :
    ∃ s₁' p₁, Matches K s₁ i₁ s₁' p₁ ∧
      Effect K s (.closeWrite p reason) none ps t s p s₁' p₁ := by
  cases h
  refine ⟨_, p, .unlock, .inr ?_⟩
  rw [Pool.set_self hp]
  cases hc : nsFailed s.mCondition with
  | false =>
    have hstep := step_closeWithStatus (K := K) (s := s) hp ho reason
    rw [NsCCNxInputStream.closeWithStatus_eq, if_neg (by
      rw [show nsFailed s.world.tr.mInput.mCondition = false from hc]; decide)] at hstep
    exact .inl ⟨_, hstep⟩
  | true =>
    refine .inr ⟨by simp [Unraced, hc], .overwrite t reason, ?_⟩
    simp only [racedStep, caller_sys hp ho]
    exact if_pos hc

/-- The statements of `AsyncWait`, up to its test of `mCondition`. -/
theorem inner_install (hp : ps[t]? = some p) (ho : p.outside = true) {args : WaitArgs}
    (h : inner K s (.install p args) none = some (s₁, i₁)) :
    ∃ s₁' p₁, Matches K s₁ i₁ s₁' p₁ ∧ Effect K s (.install p args) none ps t s p s₁' p₁ := by
  rw [inner_install_eq] at h
  cases htemp : args.temp with
  | error rv =>
    rw [htemp] at h
    cases h
    have hstep := step_wait (K := K) (s := s) hp ho args
    rw [asyncWait_error htemp] at hstep
    exact ⟨s, p, .unlock, .inr (.inl ⟨_, hstep⟩)⟩
  | ok temp =>
    rw [htemp] at h
    cases h
    exact ⟨s, p, .waitTest ho s.world.tr.mInput.mCallback htemp, .inl ⟨rfl, rfl⟩⟩

theorem inner_waitTest (hp : ps[t]? = some p) (ho : p.outside = true) {args : WaitArgs}
    (old : Option Waiter) (htemp : args.temp = .ok s.world.tr.mInput.mCallback)
    (h : inner K s (.waitTest p args) none = some (s₁, i₁)) :
    ∃ s₁' p₁, Matches K s₁ i₁ s₁' p₁ ∧
      Effect K s (.waitTest p args) none ps t
        (s.withInput { s.world.tr.mInput with mCallback := old }) p s₁' p₁ := by
  cases h
  obtain ⟨hdirect, hstream⟩ := asyncWait_ok htemp { s.world.tr.mInput with mCallback := old }
  have hstep := step_wait (K := K) (s := s.withInput { s.world.tr.mInput with mCallback := old })
    hp ho args
  have hin : (s.withInput { s.world.tr.mInput with mCallback := old }).world.tr.mInput =
    { s.world.tr.mInput with mCallback := old } := rfl
  simp only [hin, hdirect, hstream] at hstep
  cases hc : nsFailed s.mCondition with
  | true =>
    have hc' : nsFailed s.world.tr.mInput.mCondition = true := hc
    simp only [hc', if_true] at hstep
    exact ⟨_, _, .swap, .inr (.inl ⟨_, hstep⟩)⟩
  | false =>
    have hc' : nsFailed s.world.tr.mInput.mCondition = false := hc
    simp only [hc', Bool.false_eq_true, if_false] at hstep
    exact ⟨_, _, .waitFlags, .inr (.inl ⟨_, hstep⟩)⟩

/-- The statements of `CCNX_GetLocked`: the section has taken its effect already. -/
theorem inner_got {buf : List UInt8} {count : Nat}
    (hi : i = .online buf count ∨ (i = .stream buf count ∧ s.world.tr.mCCNxOnline = true) ∨
      (i = .ref buf count ∧ s.world.tr.mCCNxOnline = true ∧
        s.world.tr.mCCNxStream.isSome = true))
    (h : inner K s i none = some (s₁, i₁)) :
    Matches K s₁ i₁ (got s buf count).1 (got s buf count).2 := by
  rcases hi with rfl | ⟨rfl, hon⟩ | ⟨rfl, hon, hs⟩ <;> cases h
  · cases hon : s.world.tr.mCCNxOnline with
    | false =>
      rw [got_offline hon]
      exact .unlock
    | true => exact .stream hon
  · cases hs : s.world.tr.mCCNxStream with
    | none =>
      rw [got_none hs]
      have hgive : Matches K s (.give buf count) s _ := .give
      rw [hs] at hgive
      exact hgive
    | some ccnfs => exact .ref hon (by rw [hs]; rfl)
  · obtain ⟨ccnfs, hs⟩ := Option.isSome_iff_exists.1 hs
    rw [got_some hon hs]
    have hgive : Matches K (s.withTr { s.world.tr with
        mCCNxRef := (s.world.tr.mCCNxRef + 1) % 0x100000000 }) (.give buf count) _ _ := .give
    have hs' : (s.withTr { s.world.tr with
        mCCNxRef := (s.world.tr.mCCNxRef + 1) % 0x100000000 }).world.tr.mCCNxStream = some ccnfs :=
      hs
    rw [hs'] at hgive
    exact hgive

/-- An iteration of the read loop is one more answer of its script. -/
theorem inner_loop {ccnfs : Obj} {buf : List UInt8} {count : Nat} {st : ReadSt}
    {answers : List Answer} {a : Answer} (hle : ∀ a ∈ answers, a.read.res ≤ count)
    (hst : ∀ rest, readLoop K count (answers ++ rest) { buf } = readLoop K count rest st)
    (h : inner K s (.loop ccnfs count st) (some a) = some (s₁, i₁)) :
    Matches K s₁ i₁ s (.reading ccnfs buf count) := by
  obtain ⟨ha, rfl, hi⟩ := inner_loop_cases h
  have hle' : ∀ b ∈ answers ++ [a], b.read.res ≤ count := by
    intro b hb
    rcases List.mem_append.1 hb with hb | hb
    · exact hle b hb
    · obtain rfl := List.mem_singleton.1 hb
      exact ha
  rcases hi with ⟨res, he, rfl⟩ | ⟨he, rfl⟩
  · refine .release hle' ?_
    rw [hst, readLoop_cons, he]
  · refine .loop hle' fun rest => ?_
    rw [List.append_assoc, hst, List.singleton_append, readLoop_cons, he]

/-- Releasing the stream is where the second section of `Read` takes its effect. -/
theorem inner_release (hp : ps[t]? = some (.reading ccnfs buf count))
    (hle : ∀ a ∈ answers, a.read.res ≤ count)
    (hst : readLoop K count answers { buf } = some (st, res, []))
    (h : inner K s (.release ccnfs res st) none = some (s₁, i₁)) :
    ∃ s₁' p₁, Matches K s₁ i₁ s₁' p₁ ∧
      Effect K s (.release ccnfs res st) none ps t s (.reading ccnfs buf count) s₁' p₁ := by
  cases h
  refine ⟨{ s with world := s.world.ccnxReleaseLocked ccnfs }, .storing res st, ?_,
    .inr (.inl ⟨_, step_section hp hle hst⟩)⟩
  rw [ccnxReleaseLocked_eq]
  split
  · have hclosing : Matches K { s with world := unref s.world ccnfs }
        (.closing CloseStatement.all (.storing res st)) _ _ := .closing
    rwa [CloseStatement.exec_all] at hclosing
  · exact .unlock

/-- Every statement is matched in the other system, up to the effects of races. -/
theorem inner_effect {d : Option Answer} (hM : Matches K s i s' p) (hp : ps[t]? = some p)
    (h : inner K s i d = some (s₁, i₁)) :
    ∃ s₁' p₁, Matches K s₁ i₁ s₁' p₁ ∧ Effect K s i d ps t s' p s₁' p₁ := by
  cases d with
  | some a =>
    cases hM with
    | loop hle hst => exact ⟨_, _, inner_loop hle hst h, .inl ⟨rfl, rfl⟩⟩
    | @closing todo => cases todo <;> cases h
    | _ => cases h
  | none =>
    cases hM with
    | test ho => exact inner_check hp ho h
    | compare ho =>
      cases h
      by_cases hc : s.mCondition = nsBaseStreamClosed
      · have hstep := step_refused (K := K) hp ho (by rw [hc]; exact failed_closed)
        rw [if_pos hc] at hstep ⊢
        exact ⟨_, _, .unlock, .inr (.inl ⟨_, hstep⟩)⟩
      · rw [if_neg hc]
        exact ⟨_, _, .value ho, .inl ⟨rfl, rfl⟩⟩
    | value ho => exact inner_value hp ho h
    | online => exact ⟨_, _, inner_got (.inl rfl) h, .inl ⟨rfl, rfl⟩⟩
    | stream hon => exact ⟨_, _, inner_got (.inr (.inl ⟨rfl, hon⟩)) h, .inl ⟨rfl, rfl⟩⟩
    | ref hon hs => exact ⟨_, _, inner_got (.inr (.inr ⟨rfl, hon, hs⟩)) h, .inl ⟨rfl, rfl⟩⟩
    | give =>
      cases h
      refine ⟨_, _, ?_, .inl ⟨rfl, rfl⟩⟩
      cases s.world.tr.mCCNxStream <;> exact .unlock
    | loop hle hst => cases h
    | release hle hst => exact inner_release hp hle hst h
    | @closing todo =>
      cases todo with
      | nil => cases h
      | cons c todo =>
        cases h
        exact ⟨_, _, .closing, .inl ⟨rfl, rfl⟩⟩
    | @closeTest _ reason ho =>
      cases h
      cases hc : nsFailed s.mCondition with
      | false =>
        rw [nsSucceeded, hc]
        exact ⟨_, _, .closeWrite ho, .inl ⟨rfl, rfl⟩⟩
      | true =>
        have hc' : nsFailed s.world.tr.mInput.mCondition = true := hc
        have hstep := step_closeWithStatus (K := K) (s := s) hp ho reason
        rw [NsCCNxInputStream.closeWithStatus_eq, if_pos hc'] at hstep
        rw [nsSucceeded, hc]
        refine ⟨s, p, .unlock, .inr (.inl ⟨.closeWithStatus t reason, ?_⟩)⟩
        rw [Pool.set_self hp]
        exact hstep
    | closeWrite ho => exact inner_closeWrite hp ho h
    | install ho => exact inner_install hp ho h
    | waitTest ho old htemp => exact inner_waitTest hp ho old htemp h
    | swap =>
      cases h
      exact ⟨_, _, .unlock, .inl ⟨rfl, rfl⟩⟩
    | waitFlags =>
      cases h
      exact ⟨_, _, .unlock, .inl ⟨rfl, rfl⟩⟩
    | unlock => cases h

end

/-! ## Whole runs -/

section
variable (K : FetchCodes)

theorem enter_matches {s : Shared} {p : Pc} {e : Entry} {i : Inside} (h : enter p e = some i) :
    Matches K s i s p := by
  cases e with
  | resume =>
    cases p with
    | reading ccnfs buf count =>
      cases h
      exact .loop (List.forall_mem_nil _) fun rest => rfl
    | _ => cases h
  | _ =>
    simp only [enter] at h
    split at h <;> cases h
    rename_i ho
    first | exact .test ho | exact .closeTest ho | exact .install ho

theorem leave_matches {s s' : Shared} {i : Inside} {p p' : Pc} (h : leave i = some p)
    (hM : Matches K s i s' p') : s' = s ∧ p' = p := by
  unfold leave at h
  split at h <;> cases h <;> cases hM <;> exact ⟨rfl, rfl⟩

theorem outer_step {s s₁ : Shared} {p p₁ : Pc} {g : Outer} {ps : List Pc} {t : Nat}
    (h : outer K s p g = some (s₁, p₁)) (hp : ps[t]? = some p) :
    ∃ a, Transport.step K (sys s ps) a = some (sys s₁ (ps.set t p₁)) := by
  rcases outer_cases h with ⟨res, st, rfl, rfl, rfl, rfl⟩ | ⟨st, rfl, rfl, rfl, rfl⟩ |
    ⟨w, rfl, rfl, rfl, rfl⟩
  · refine ⟨.readStore t, ?_⟩
    simp only [Transport.step, sys, hp]
    rfl
  · refine ⟨.readReturn t, ?_⟩
    simp only [Transport.step, sys, hp]
    rfl
  · refine ⟨.notify t, ?_⟩
    simp only [Transport.step, sys, hp]
    rfl

/-- Statements that are not raced are those of `Transport/System.lean`, section by section. -/
theorem simulates : Lock.Simulates (code K) (Transport.step K) sys Unraced (Matches K) where
  enter _ _ _ _ h := enter_matches K h
  inner s i d s₁ i₁ s' p ps t hM hp hC h := by
    obtain ⟨s₁', p₁, hM₁, ⟨rfl, rfl⟩ | ⟨a, ha⟩ | ⟨hu, -⟩⟩ := inner_effect hM hp h
    · exact ⟨s₁', p₁, [], hM₁, by rw [Pool.set_self hp]; rfl⟩
    · exact ⟨s₁', p₁, [a], hM₁, run_single ha⟩
    · exact absurd hC hu
  leave _ _ _ _ _ h hM := leave_matches K h hM
  outer _ _ _ _ _ _ _ h hp := by
    obtain ⟨a, ha⟩ := outer_step K h hp
    exact ⟨[a], run_single ha⟩
  commute _ _ _ _ _ _ _ _ hM h := hM.commute h

/-- All statements are those of that system and of the effects of races. -/
theorem simulates_raced :
    Lock.Simulates (code K) (racedStep K) sys (fun _ _ _ => True) (Matches K) where
  enter _ _ _ _ h := enter_matches K h
  inner s i d s₁ i₁ s' p ps t hM hp _ h := by
    obtain ⟨s₁', p₁, hM₁, ⟨rfl, rfl⟩ | ⟨a, ha⟩ | ⟨-, a, ha⟩⟩ := inner_effect hM hp h
    · exact ⟨s₁', p₁, [], hM₁, by rw [Pool.set_self hp]; rfl⟩
    · exact ⟨s₁', p₁, [.act a], hM₁, run_single ha⟩
    · exact ⟨s₁', p₁, [a], hM₁, run_single ha⟩
  leave _ _ _ _ _ h hM := leave_matches K h hM
  outer _ _ _ _ _ _ _ h hp := by
    obtain ⟨a, ha⟩ := outer_step K h hp
    exact ⟨[.act a], run_single ha⟩
  commute _ _ _ _ _ _ _ _ hM h := hM.commute h

/-- A run of the statements under `mLock` and without it, in any interleaving of any number of
threads, that leaves the lock free and in which no store of `mCondition` races with a section:
it ends where a run ends in which each section is a single step. -/
theorem sections_atomic (env : InitEnv) (ccnxName : String) (n : Nat) (acts : List Act) (s : State)
    (h : run (Lock.step (code K)) (start env ccnxName n) acts = some s)
    (hC : EachStep (Lock.step (code K)) (Lock.Meets Unraced) (start env ccnxName n) acts)
    (hfree : s.holder = none) :
    ∃ as, run (Transport.step K) (Transport.start env ccnxName n) as =
      some (sys s.shared s.threads) := by
  obtain ⟨as, x, hrun, hx⟩ := (simulates K).run rfl hC h
  obtain rfl := hx.of_free hfree
  exact ⟨as, hrun⟩

/-- A `Read` and an `AsyncWait`, with a store of `mCondition` by another `Read` and a
`CloseWithStatus` in between. -/
def interleaved : List Act :=
  [.enter 0 (.read [0, 0] 2), .inner none, .inner none, .inner none, .inner none, .inner none,
    .leave, .enter 0 .resume, .inner (some (.data [7])), .inner (some .ended), .inner none,
    .inner none, .inner none, .inner none, .inner none, .inner none, .inner none, .leave,
    .enter 1 (.closeWithStatus nsBaseStreamClosed), .outer 0 .readStore, .inner none, .inner none,
    .outer 0 .readReturn, .leave, .enter 2 (.asyncWait { callback := some 0 }), .inner none,
    .inner none, .inner none, .leave, .outer 2 .notify]

theorem sections_atomic_interleaved :
    ∃ s, run (Lock.step (code fetchCodes)) (start {} "ccnx:/a" 3) interleaved = some s ∧
      s.shared.invoked = [.callback 0] ∧
      ∃ as, run (Transport.step fetchCodes) (Transport.start {} "ccnx:/a" 3) as =
        some (sys s.shared s.threads) :=
  ⟨_, rfl, rfl, sections_atomic fetchCodes {} "ccnx:/a" 3 interleaved _ rfl (by decide) rfl⟩

end

end Transport.Locked
