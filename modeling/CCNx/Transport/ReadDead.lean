import CCNx.Transport.ReadData

/-!
# Does Read stop on a dead connection?

Both retry branches of the read loop call `ccn_run` and store `CCN_FETCH_READ_NONE` in `res` if it
fails; only the branch of `CCN_FETCH_READ_TIMEOUT` leaves the loop as well. After
`CCN_FETCH_READ_NONE` the loop goes on, and the stored code is overwritten by the next
`ccn_fetch_read` (`readDead_spins`). `stopsWhenDead_iff`: `Read` stops at the first `ccn_run` that
fails exactly if none of those it makes after `CCN_FETCH_READ_NONE` does.
-/

set_option autoImplicit false

namespace Transport

open Xpcom

/-- libccn's answers to a call of `Read`: so many, or without end. -/
inductive Script
  | finite (answers : List Answer)
  | infinite (answers : Nat → Answer)

def Script.get? : Script → Nat → Option Answer
  | .finite answers, i => answers[i]?
  | .infinite answers, i => some (answers i)

/-- The first `n` answers. -/
def Script.take : Script → Nat → List Answer
  | .finite answers, n => answers.take n
  | .infinite answers, n => (List.range n).map answers

/-- An iteration with these answers calls `ccn_run`, which fails. -/
def Answer.RunFails (K : FetchCodes) (a : Answer) : Prop :=
  (a.read.res = K.readNone ∨ a.read.res = K.readTimeout) ∧ a.run < 0

/-- The call ended with the failed `ccn_run` of `a`: it used none of the answers that follow, gave
the fetch stream back, which closes it if nobody else holds it, and returned a failure. -/
structure Stopped (w : World) (a : Answer) (more : List Answer) (out : ReadOut) : Prop where
  unused : out.rest = more
  last : out.st.calls.getLast? = some (.run a.run)
  released : out.world.tr.mCCNxRef = w.tr.mCCNxRef
  closed : w.tr.mCCNxRef = 0 → out.world.tr.mCCNxStream = none
  failed : nsFailed out.rv = true

/-- Whenever the loop comes to an iteration whose `ccn_run` fails, `Read` ends there, whatever
libccn would answer later. -/
def StopsWhenDead (K : FetchCodes) (w : World) (count : Nat) (script : Script) : Prop :=
  ∀ (buf : List UInt8) (i : Nat) (a : Answer), script.get? i = some a →
    readLoop K count (script.take i) { buf } = none → a.RunFails K →
    ∀ more, ∃ out, read K w buf count (script.take i ++ a :: more) = some out ∧
      Stopped w a more out

/-- No `ccn_run` after a `CCN_FETCH_READ_NONE` fails before the loop has ended otherwise. -/
def NoneRunsOk (K : FetchCodes) (script : Script) : Prop :=
  ∀ (i : Nat) (a : Answer), script.get? i = some a → (∀ b ∈ script.take i, b.ends K = none) →
    a.read.res = K.readNone → 0 ≤ a.run

/-- On an open stream with a live fetch stream, `Read` stops when the connection is dead if and
only if no `ccn_run` that it makes after `CCN_FETCH_READ_NONE` fails. -/
theorem stopsWhenDead_iff (K : FetchCodes) (w : World) (f : Obj) (count : Nat) (script : Script)
    (hcond : nsFailed w.tr.mInput.mCondition = false) (honline : w.tr.mCCNxOnline = true)
    (hstream : w.tr.mCCNxStream = some f) (href : w.tr.mCCNxRef < 0x100000000) :
    StopsWhenDead K w count script ↔ NoneRunsOk K script := by
  constructor
  · intro hP i a hget hgo hnone
    apply Classical.byContradiction
    intro hrun
    obtain ⟨out, hread, -⟩ := hP [] i a hget ((readLoop_eq_none K count).2 hgo)
      ⟨.inl hnone, by omega⟩ []
    -- the iteration goes on, and so does the loop
    have hneg := K.none_neg
    have hends : a.ends K = none := by
      rw [Answer.ends, hnone, if_neg (by omega), if_neg (by omega), if_pos rfl]
    have hloop : readLoop K count (script.take i ++ [a]) { buf := [] } = none :=
      (readLoop_eq_none K count).2 fun b hb => by
        rcases List.mem_append.1 hb with hb | hb
        · exact hgo b hb
        · rw [List.mem_singleton.1 hb]
          exact hends
    rw [read_open hcond honline hstream, hloop] at hread
    cases hread
  · intro hC buf i a hget hloop hfails more
    obtain ⟨hres, hrun⟩ := hfails
    have hgo := (readLoop_eq_none K count).1 hloop
    have htimeout : a.read.res = K.readTimeout :=
      hres.resolve_left fun hnone => by
        have := hC i a hget hgo hnone
        omega
    have hneg := K.timeout_neg
    have hends : a.ends K = some K.readNone := by
      rw [Answer.ends, htimeout, if_neg (by omega), if_neg (by omega), if_neg K.ne.symm,
        if_pos rfl, if_pos hrun]
    have hloop' : readLoop K count (script.take i ++ a :: more) { buf } =
        some (_, K.readNone, more) :=
      (readLoop_eq_some K count).2 ⟨script.take i, a, rfl, hgo, hends, rfl⟩
    obtain ⟨hback, hclose⟩ := World.givenBack_count href f
    rw [read_open hcond honline hstream, hloop', Option.map_some]
    refine ⟨_, rfl, rfl, ?_, hback, fun h0 => (hclose h0).1, ?_⟩
    · simp only [iterAll_calls, List.flatMap_append, List.flatMap_cons, List.flatMap_nil,
        Answer.followUp, htimeout, if_neg (show ¬ 0 ≤ K.readTimeout by omega), if_neg K.ne.symm,
        ↓reduceIte]
      simp
    · exact (failed_errorAccordingToCCNX K _).2 K.none_neg

/-- Content, a retry, a timeout, and then `ccn_run` fails. -/
def timeoutDead : Script :=
  .finite [.data [1, 2], .nothing fetchCodes 0, .timedOut fetchCodes 0,
    .timedOut fetchCodes (-1)]

theorem timeoutDead_stops : StopsWhenDead fetchCodes openWorld 4 timeoutDead := by
  refine (stopsWhenDead_iff fetchCodes openWorld 4 4 timeoutDead (by decide) rfl rfl (by decide)).2
    fun i a hget _ hnone => ?_
  match i, hget with
  | 0, hget => cases hget; exact absurd hnone (by decide)
  | 1, hget => cases hget; decide
  | 2, hget => cases hget; exact absurd hnone (by decide)
  | 3, hget => cases hget; exact absurd hnone (by decide)
  | i + 4, hget => cases hget

/-- The connection is dead and `ccn_fetch_read` answers `CCN_FETCH_READ_NONE` forever. -/
theorem readDead_spins :
    ¬ ∀ (K : FetchCodes) (w : World) (f : Obj) (count : Nat) (script : Script),
        nsFailed w.tr.mInput.mCondition = false → w.tr.mCCNxOnline = true →
        w.tr.mCCNxStream = some f → w.tr.mCCNxRef < 0x100000000 →
        StopsWhenDead K w count script := by
  intro hP
  obtain ⟨out, hread, -⟩ := hP fetchCodes openWorld 4 4 (.infinite fun _ => .code (-1) (-1))
    (by decide) rfl rfl (by decide) [] 0 _ rfl rfl ⟨.inl rfl, by decide⟩ []
  cases hread

end Transport
