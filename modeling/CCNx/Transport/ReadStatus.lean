import CCNx.Transport.ReadDead

/-!
# What the status of a Read tells

The loop ends with one `int`, and the status that stands for it is both returned and stored. It
tells how the fetch ended (`read_truthful`); it does not tell what came before: an error after some
chunks of content fails the call that has consumed them (`failed_afterData`).
`losesNothing_iff`: a call loses nothing exactly if it got no content, or came to its end.
-/

set_option autoImplicit false

namespace Transport

open Xpcom

variable {K : FetchCodes} {w : World} {f : Obj} {count : Nat} {answers : List Answer}
  {buf : List UInt8} {out : ReadOut}

/-! ## Failures and content -/

/-- A call that returns a failure reports no bytes and has consumed none. -/
def LosesNothing (out : ReadOut) : Prop :=
  nsFailed out.rv = true → out.st.countRead = 0 ∧ delivered out.st.calls = []

/-- A call that its first section turns away touches nothing. -/
theorem read_turnedAway (K : FetchCodes) (buf : List UInt8) (count : Nat) (answers : List Answer)
    (hclosed : nsFailed w.tr.mInput.mCondition = true ∨ w.tr.mCCNxOnline = false ∨
      w.tr.mCCNxStream = none) :
    ∃ rv, read K w buf count answers =
      some { rv, st := { buf }, rest := answers, world := w } := by
  have hcheck : ∃ rv, readCheck w.tr = (.error rv, w.tr) := by
    unfold readCheck NsCCNxTransport.ccnxGetLocked
    cases hcond : nsFailed w.tr.mInput.mCondition with
    | true => exact ⟨_, rfl⟩
    | false =>
      cases honline : w.tr.mCCNxOnline with
      | false => exact ⟨_, rfl⟩
      | true => rcases hclosed with h | h | h <;> simp_all
  obtain ⟨rv, hcheck⟩ := hcheck
  refine ⟨rv, ?_⟩
  unfold read
  rw [hcheck]

/-- The status of a call that has ended with `res`, which its last answer decides. -/
theorem read_ended (hcond : nsFailed w.tr.mInput.mCondition = false)
    (honline : w.tr.mCCNxOnline = true) (hstream : w.tr.mCCNxStream = some f)
    (h : read K w buf count answers = some out) (hrest : out.rest = []) :
    ∃ pre last res, answers = pre ++ [last] ∧ (∀ a ∈ pre, a.ends K = none) ∧
      last.ends K = some res ∧ out.rv = errorAccordingToCCNX K res ∧
      out.st.calls = answers.flatMap (fun a => .fetchRead count a.read :: a.followUp K) ∧
      out.world = { w.givenBack f with
        tr := readStore K (w.givenBack f).tr res out.st.countRead } := by
  rw [read_open hcond honline hstream] at h
  obtain ⟨⟨st, res, rest⟩, hloop, rfl⟩ := Option.map_eq_some_iff.1 h
  obtain ⟨pre, last, happ, hpre, hlast, hst⟩ := (readLoop_eq_some K count).1 hloop
  cases hrest
  refine ⟨pre, last, res, happ, hpre, hlast, rfl, ?_, rfl⟩
  simp only [hst, iterAll_calls, ← happ]
  rfl

/-- The content of a call is empty exactly if none of its results is positive. -/
theorem chunks_empty : (chunks answers).flatten = [] ↔ ∀ a ∈ answers, a.read.res ≤ 0 := by
  simp only [chunks, List.flatten_eq_nil_iff, List.mem_map, forall_exists_index, and_imp,
    forall_apply_eq_imp_iff₂, ← bytes_isEmpty, List.isEmpty_iff]

/-- The three ways in which the loop ends. -/
theorem ends_cases {a : Answer} {res : Int} (h : a.ends K = some res) :
    (res = 0 ∧ a.read.res = 0) ∨
      (res = K.readNone ∧ a.read.res = K.readTimeout ∧ a.run < 0) ∨
      (res = a.read.res ∧ res < 0 ∧ a.read.res ≠ K.readNone ∧ a.read.res ≠ K.readTimeout) := by
  unfold Answer.ends at h
  split at h
  · rename_i h0
    cases h
    exact .inl ⟨rfl, h0⟩
  · rename_i h0
    split at h
    · cases h
    · rename_i hpos
      split at h
      · cases h
      · rename_i hnone
        split at h
        · rename_i htimeout
          split at h
          · rename_i hrun
            cases h
            exact .inr (.inl ⟨rfl, htimeout, hrun⟩)
          · cases h
        · rename_i htimeout
          cases h
          exact .inr (.inr ⟨rfl, by omega, hnone, htimeout⟩)

/-- The loop ends without an error at the end of the content only. -/
theorem ends_nonneg {a : Answer} {res : Int} (h : a.ends K = some res) :
    0 ≤ res ↔ a.read.res = 0 := by
  have hnone := K.none_neg
  have htimeout := K.timeout_neg
  rcases ends_cases h with ⟨hres, ha⟩ | ⟨hres, ha, -⟩ | ⟨hres, hneg, -, -⟩ <;> omega

/-- For every state of the stream, and every call that uses the answers up: it loses nothing if and
only if no `ccn_fetch_read` result is positive, or the last is `CCN_FETCH_READ_END`. -/
theorem losesNothing_iff (K : FetchCodes) (w : World) (buf : List UInt8) (count : Nat)
    (answers : List Answer) (out : ReadOut) (h : read K w buf count answers = some out)
    (hrest : out.rest = []) :
    LosesNothing out ↔
      (∀ a ∈ answers, a.read.res ≤ 0) ∨ answers.getLast?.map (·.read.res) = some 0 := by
  by_cases hopen : nsFailed w.tr.mInput.mCondition = false ∧ w.tr.mCCNxOnline = true ∧
      w.tr.mCCNxStream.isSome = true
  · obtain ⟨hcond, honline, hsome⟩ := hopen
    obtain ⟨f, hstream⟩ := Option.isSome_iff_exists.1 hsome
    obtain ⟨pre, last, res, happ, -, hlast, hrv, -, -⟩ :=
      read_ended hcond honline hstream h hrest
    obtain ⟨-, hcount, hdel⟩ := read_effects hcond honline hstream h hrest
    have hfailed : nsFailed out.rv = true ↔ ¬ last.read.res = 0 := by
      rw [hrv, failed_errorAccordingToCCNX, ← ends_nonneg hlast]
      omega
    have hend : answers.getLast?.map (·.read.res) = some 0 ↔ last.read.res = 0 := by
      rw [happ]
      simp
    rw [LosesNothing, hfailed, hend, ← chunks_empty, hdel]
    constructor
    · intro hP
      by_cases h0 : last.read.res = 0
      · exact .inr h0
      · exact .inl (hP h0).2
    · rintro (hempty | h0) hne
      · rw [hcount, hempty]
        exact ⟨rfl, rfl⟩
      · exact absurd h0 hne
  · have hclosed : nsFailed w.tr.mInput.mCondition = true ∨ w.tr.mCCNxOnline = false ∨
        w.tr.mCCNxStream = none := by
      cases hcond : nsFailed w.tr.mInput.mCondition <;> cases honline : w.tr.mCCNxOnline <;>
        simp_all
    obtain ⟨rv, hread⟩ := read_turnedAway K buf count answers hclosed
    rw [hread] at h
    cases h
    cases hrest
    exact iff_of_true (fun _ => ⟨rfl, rfl⟩) (.inl nofun)

/-- Two chunks, a retry, and the end of the content. -/
def toTheEnd : List Answer := [.data [1, 2], .nothing fetchCodes 0, .data [3], .ended]

theorem toTheEnd_losesNothing :
    ∃ out, read fetchCodes openWorld [0, 0, 0, 0] 4 toTheEnd = some out ∧ LosesNothing out :=
  ⟨_, rfl, (losesNothing_iff fetchCodes openWorld [0, 0, 0, 0] 4 toTheEnd _ rfl rfl).2
    (.inr rfl)⟩

/-- Two bytes of content, and then an error. -/
theorem failed_afterData :
    ¬ ∀ (K : FetchCodes) (w : World) (buf : List UInt8) (count : Nat) (answers : List Answer)
        (out : ReadOut), read K w buf count answers = some out → LosesNothing out := by
  intro hP
  have h := hP fetchCodes openWorld [0, 0, 0, 0] 4 [.data [1, 2], .code (-3) 0] _ rfl (by decide)
  exact absurd h.1 (by decide)

/-! ## How the fetch ended -/

def Call.isFetchRead : Call → Bool
  | .fetchRead _ _ => true
  | .run _ | .resetTimeout => false

def Call.isResetTimeout : Call → Bool
  | .resetTimeout => true
  | .fetchRead _ _ | .run _ => false

/-- Each `CCN_FETCH_READ_TIMEOUT` is followed by one `ccn_reset_timeout` before the next
`ccn_fetch_read`. -/
def ResetsTimeouts (K : FetchCodes) (calls : List Call) : Prop :=
  ∀ pre len r post, calls = pre ++ .fetchRead len r :: post → r.res = K.readTimeout →
    (post.takeWhile fun call => !call.isFetchRead).countP Call.isResetTimeout = 1

/-- What the result of a call and the state it leaves say about its last answer. -/
structure Truthful (K : FetchCodes) (w : World) (last : Answer) (out : ReadOut) : Prop where
  ok : out.rv = nsOk ↔ last.read.res = 0
  refused : out.rv = nsErrorConnectionRefused ↔ last.RunFails K
  unknown : out.rv = nsErrorCcnxUnknownFailure ↔
    last.read.res < 0 ∧ last.read.res ≠ K.readNone ∧ last.read.res ≠ K.readTimeout
  noTimeout : out.rv ≠ nsErrorNetTimeout
  condition : out.world.tr.mInput.mCondition = out.rv
  resets : ResetsTimeouts K out.st.calls
  /-- The one release closes the transport's objects, with the assertion on its argument true. -/
  released : out.world.tr.mCCNxRef = w.tr.mCCNxRef ∧ out.world.closes = w.closes + 1 ∧
    out.world.wrongNdn = w.wrongNdn
  /-- The next call reports no bytes and does not touch libccn. -/
  next : ∀ buf count answers, ∃ rv, read K out.world buf count answers =
    some { rv, st := { buf }, rest := answers, world := out.world }

theorem followUp_noFetch (K : FetchCodes) (a : Answer) :
    ∀ call ∈ a.followUp K, call.isFetchRead = false := by
  unfold Answer.followUp
  split
  · nofun
  · split
    · simp [Call.isFetchRead]
    · split <;> simp [Call.isFetchRead]

/-- The calls of an iteration up to the next are its follow-up. -/
theorem takeWhile_followUp (K : FetchCodes) (count : Nat) (a : Answer) (answers : List Answer) :
    (a.followUp K ++ answers.flatMap fun a => .fetchRead count a.read :: a.followUp K).takeWhile
      (fun call => !call.isFetchRead) = a.followUp K := by
  rw [List.takeWhile_append_of_pos fun call hc => by rw [followUp_noFetch K a call hc]; rfl]
  cases answers with
  | nil => simp
  | cons b answers => simp [Call.isFetchRead]

theorem resetsTimeouts_flatMap (K : FetchCodes) (count : Nat) (answers : List Answer) :
    ResetsTimeouts K (answers.flatMap fun a => .fetchRead count a.read :: a.followUp K) := by
  induction answers with
  | nil =>
    intro pre len r post h
    simp at h
  | cons a answers ih =>
    intro pre len r post h hres
    rw [List.flatMap_cons, List.cons_append] at h
    cases pre with
    | nil =>
      obtain ⟨hcall, hpost⟩ := List.cons.inj h
      cases hcall
      have htimeout := K.timeout_neg
      rw [← hpost, takeWhile_followUp, Answer.followUp, hres, if_neg (by omega), if_neg K.ne.symm,
        if_pos rfl]
      rfl
    | cons call pre =>
      obtain ⟨-, hrest⟩ := List.cons.inj h
      -- a `ccn_fetch_read` further on is not in the follow-up of this one
      rcases List.append_eq_append_iff.1 hrest with ⟨more, -, hmore⟩ | ⟨more, hfollow, hmore⟩
      · exact ih more len r post hmore hres
      · cases more with
        | nil => exact ih [] len r post hmore.symm hres
        | cons c more =>
          obtain ⟨rfl, -⟩ := List.cons.inj hmore
          have hin := followUp_noFetch K a (.fetchRead len r) (by rw [hfollow]; simp)
          cases hin

/-- On an open stream that no other call holds, a call that uses the answers up tells truthfully
how the fetch ended. -/
theorem read_truthful (K : FetchCodes) (w : World) (f : Obj) (buf : List UInt8) (count : Nat)
    (answers : List Answer) (out : ReadOut) (hcond : nsFailed w.tr.mInput.mCondition = false)
    (honline : w.tr.mCCNxOnline = true) (hstream : w.tr.mCCNxStream = some f)
    (href : w.tr.mCCNxRef = 0) (h : read K w buf count answers = some out)
    (hrest : out.rest = []) :
    ∃ last, answers.getLast? = some last ∧ Truthful K w last out := by
  obtain ⟨pre, last, res, happ, -, hlast, hrv, hcalls, hworld⟩ :=
    read_ended hcond honline hstream h hrest
  obtain ⟨hback, hclosed⟩ := World.givenBack_count (w := w) (by omega) f
  obtain ⟨hstream', hcloses⟩ := hclosed href
  have hnone := K.none_neg
  have htimeout := K.timeout_neg
  have hrefused : errorAccordingToCCNX K K.readNone = nsErrorConnectionRefused := by
    rw [errorAccordingToCCNX, if_neg (by omega), if_pos rfl]
  refine ⟨last, by rw [happ]; simp, ?_⟩
  have hstatus : (out.rv = nsOk ↔ last.read.res = 0) ∧
      (out.rv = nsErrorConnectionRefused ↔ last.RunFails K) ∧
      (out.rv = nsErrorCcnxUnknownFailure ↔
        last.read.res < 0 ∧ last.read.res ≠ K.readNone ∧ last.read.res ≠ K.readTimeout) ∧
      out.rv ≠ nsErrorNetTimeout := by
    rw [hrv, Answer.RunFails]
    rcases ends_cases hlast with ⟨rfl, ha⟩ | ⟨rfl, ha, hrun⟩ | ⟨rfl, hneg, ha, ha'⟩
    · rw [errorAccordingToCCNX_nonneg K (Int.le_refl 0), ha]
      refine ⟨iff_of_true rfl rfl, iff_of_false (by decide) ?_, iff_of_false (by decide) ?_,
        by decide⟩ <;> omega
    · rw [hrefused, ha]
      refine ⟨iff_of_false (by decide) (by omega), iff_of_true rfl ⟨.inr rfl, hrun⟩,
        iff_of_false (by decide) fun hu => hu.2.2 rfl, by decide⟩
    · rw [errorAccordingToCCNX, if_neg (by omega), if_neg ha, if_neg ha']
      refine ⟨iff_of_false (by decide) (by omega),
        iff_of_false (by decide) fun hr => hr.1.elim ha ha', iff_of_true rfl ⟨hneg, ha, ha'⟩,
        by decide⟩
  refine ⟨hstatus.1, hstatus.2.1, hstatus.2.2.1, hstatus.2.2.2, ?_, ?_, ?_, fun b c as => ?_⟩
  · rw [hworld, hrv]
    rfl
  · rw [hcalls]
    exact resetsTimeouts_flatMap K count answers
  · rw [hworld]
    exact ⟨hback, hcloses, World.givenBack_wrongNdn hstream⟩
  · refine read_turnedAway K b c as (.inr (.inr ?_))
    rw [hworld]
    exact hstream'

theorem toTheEnd_truthful :
    ∃ out last, read fetchCodes openWorld [0, 0, 0, 0] 4 toTheEnd = some out ∧
      toTheEnd.getLast? = some last ∧ Truthful fetchCodes openWorld last out :=
  have h := read_truthful fetchCodes openWorld 4 [0, 0, 0, 0] 4 toTheEnd _ (by decide) rfl rfl rfl
    rfl rfl
  ⟨_, h.choose, rfl, h.choose_spec⟩

end Transport
