import CCNx.Core.System
import CCNx.Transport.Refs

/-!
# Is connecting all or nothing?

`Connect` passes on the failures of `ccn_connect`, `ccn_name_from_uri` and `NS_NewPipe2`. The
result of starting the service is dropped in `nsCCNxTransport::Init`, the null of `ccn_fetch_open`
is not tested there, the result of `NS_AsyncCopy` is not tested in `OpenInputStream`, and a failing
`NS_NewPipe2` leaves `mDataTransport` assigned. `allOrNothing_iff`: so the promise holds exactly if
one of the first two fails or all steps succeed.
-/

set_option autoImplicit false

namespace Core

open Xpcom Runs Service Transport

/-- Every step of connecting succeeds. -/
structure StepsOk (env : Env) (interest : String) : Prop where
  service :
    nsFailed (({} : NsCCNxTransportService).init env.init.onMain env.init.newThread).1 = false
  connect : ¬ env.init.connect < 0
  name : ¬ env.init.nameFromUri interest < 0
  fetch : env.init.fetchOpen interest = true
  pipe : nsFailed env.openInput.newPipe2.1 = false
  copy : nsFailed env.openInput.asyncCopy = false

/-- The service has a thread, the transport holds a fetch stream, and `mInput` is being copied to
the pipe that the core reads from. -/
def Connected (c : NsCCNxCore) : Prop :=
  ∃ w svc p, c.mDataTransport = some w ∧ w.tr.mService = some svc ∧ svc.mThread.isSome = true ∧
    w.tr.mCCNxStream.isSome = true ∧ c.mDataStream = some (.pipe p) ∧ p ∈ w.tr.copies

/-- `Connect` reports exactly the success it has, and leaves nothing behind otherwise. -/
structure AllOrNothing (env : Env) (c : NsCCNxCore) : Prop where
  iff : (c.connect env).1 = .connect ↔ StepsOk env c.mInterest
  ok : StepsOk env c.mInterest → Connected (c.connect env).2
  failed : ¬ StepsOk env c.mInterest →
    (c.connect env).1 = .error ∧ (c.connect env).2.mDataTransport = none ∧
      (c.connect env).2.mDataStream = none

/-! ## Before Connect -/

/-- A core that has not connected has neither a transport nor a stream. -/
def InitClean (s : Sys) : Prop :=
  s.core.mState = .init → s.core.mDataTransport = none ∧ s.core.mDataStream = none

theorem initClean_start (interest : String) : InitClean (start interest) := fun _ => ⟨rfl, rfl⟩

theorem InitClean.asyncWait {s : Sys} (hI : InitClean s) (callback : Option Callback)
    (target : Option Target) (env : Env)
    (hinit : (s.core.asyncWait callback target env).core.mState = .init) :
    (s.core.asyncWait callback target env).core.mDataTransport = none ∧
      (s.core.asyncWait callback target env).core.mDataStream = none := by
  rcases s.core.asyncWait_cases callback target env with ⟨-, h1, h2, h3⟩ | ⟨cb, rfl, -, -, he⟩
  · rw [h1] at hinit
    rw [h2, h3]
    exact hI hinit
  · rw [he] at hinit
    rcases (s.core.registered cb target).connect_state env with hst | hst <;>
      cases hinit.symm.trans hst

theorem InitClean.next {s s' : Sys} {a : Act} (hI : InitClean s) (h : step s a = some s') :
    InitClean s' := by
  have hready : InitClean { s with core := s.core.onInputStreamReady.core } := by
    obtain ⟨h1, h2, h3⟩ := s.core.onInputStreamReady_connection
    exact fun hinit => ⟨h2.trans (hI (h1 ▸ hinit)).1, h3.trans (hI (h1 ▸ hinit)).2⟩
  apply step_keeps (I := fun c => c.mState = .init → c.mDataTransport = none ∧ c.mDataStream = none)
    hI hI.asyncWait hready _ _ h
  · exact fun reason env _ => (s.core.closeWithStatus_connection reason env).2
  · exact fun w hinit => ⟨by simp [(hI hinit).1], (hI hinit).2⟩

/-! ## Connect -/

/-- The transport that `Connect` leaves is the one whose references are counted in `Refs`. -/
theorem connect_connected {c : NsCCNxCore} {env : Env}
    (hc : ¬ (env.init.connect < 0 ∨ env.init.nameFromUri c.mInterest < 0)) :
    (c.connect env).2.mDataTransport.map World.tr =
      some (Refs.connected env.init c.mInterest env.openInput) := by
  rw [NsCCNxCore.connect_eq, if_neg hc]
  dsimp only
  split <;> rfl

/-- `Connect` reports a success whenever these three steps succeed. -/
theorem connect_success {c : NsCCNxCore} {env : Env}
    (hc : ¬ (env.init.connect < 0 ∨ env.init.nameFromUri c.mInterest < 0))
    (hp : nsFailed env.openInput.newPipe2.1 = false) :
    (c.connect env).1 = .connect ∧
      (c.connect env).2.mDataStream = some (.pipe env.openInput.newPipe2.2) := by
  rw [NsCCNxCore.connect_eq, if_neg hc]
  dsimp only
  rw [if_neg (by simp [hp])]
  exact ⟨rfl, rfl⟩

/-- With every step successful, there is all that the success promises. -/
theorem connect_stepsOk {c : NsCCNxCore} {env : Env} (hok : StepsOk env c.mInterest) :
    Connected (c.connect env).2 := by
  have hc := not_or.2 ⟨hok.connect, hok.name⟩
  obtain ⟨w, hw, htr⟩ := Option.map_eq_some_iff.1 (connect_connected hc)
  obtain ⟨hin, -, hsvc⟩ := World.init_keeps World.created env.init c.mInterest
  have hfree : (World.created.init env.init c.mInterest).2.tr.mInput.mReaderRefCnt = 0 := by
    rw [hin]
    rfl
  have hstream : (World.created.init env.init c.mInterest).2.tr.mCCNxStream.isSome = true := by
    rw [World.init_ok _ _ _ hok.connect hok.name]
    simp [World.initFetch, hok.fetch]
  rw [Refs.connected, NsCCNxTransport.openInputStream_pipe hfree,
    if_neg (by simp [hok.pipe]), if_neg (by simp [hok.copy])] at htr
  refine ⟨w, _, _, hw, by rw [htr]; exact hsvc, ?_, by rw [htr]; exact hstream,
    (connect_success hc hok.pipe).2, by rw [htr]; simp⟩
  rw [NsCCNxTransportService.init_mThread hok.service]
  rfl

/-- For every core that has not connected, connecting is all or nothing if and only if
`ccn_connect` or `ccn_name_from_uri` fails, or every step succeeds. -/
theorem allOrNothing_iff (interest : String) (acts : List Act) (s : Sys) (env : Env)
    (h : run step (start interest) acts = some s) (hinit : s.core.mState = .init) :
    AllOrNothing env s.core ↔
      env.init.connect < 0 ∨ env.init.nameFromUri s.core.mInterest < 0 ∨
        StepsOk env s.core.mInterest := by
  obtain ⟨htr, hst⟩ := run_inv (fun _ _ _ => InitClean.next) (initClean_start interest) h hinit
  by_cases hc : env.init.connect < 0 ∨ env.init.nameFromUri s.core.mInterest < 0
  · -- the failures of `Init` come before anything is assigned
    have hnot : ¬ StepsOk env s.core.mInterest := fun hok =>
      hc.elim hok.connect hok.name
    have hconn : s.core.connect env = (.error, s.core) := by
      rw [NsCCNxCore.connect_eq, if_pos hc]
    refine ⟨fun _ => or_assoc.1 (.inl hc), fun _ => ⟨?_, fun hok => absurd hok hnot, fun _ => ?_⟩⟩
    · rw [hconn]
      exact ⟨nofun, fun hok => absurd hok hnot⟩
    · rw [hconn]
      exact ⟨rfl, htr, hst⟩
  · rw [← or_assoc, or_iff_right hc]
    constructor
    · intro hA
      apply Classical.byContradiction
      intro hnot
      -- the transport is assigned before the pipe is made
      have hmap := connect_connected hc
      rw [(hA.failed hnot).2.1] at hmap
      cases hmap
    · intro hok
      exact ⟨⟨fun _ => hok, fun _ => (connect_success hc hok.pipe).1⟩, fun _ => connect_stepsOk hok,
        fun hnot => absurd hok hnot⟩

theorem allOrNothing_fresh : AllOrNothing {} (start "/a").core :=
  (allOrNothing_iff "/a" [] (start "/a") {} rfl rfl).2
    (.inr (.inr ⟨by decide, by decide, by decide, rfl, by decide, by decide⟩))

/-- The service has no thread, and `Connect` reports a success. -/
theorem connect_withoutThread :
    ¬ ∀ (interest : String) (acts : List Act) (s : Sys) (env : Env),
        run step (start interest) acts = some s → s.core.mState = .init →
        AllOrNothing env s.core := by
  intro hP
  have hA := hP "/a" [] (start "/a") { init := { newThread := (nsErrorFailure, 0) } } rfl rfl
  have hok := hA.iff.1 (connect_success (by decide) (by decide)).1
  exact absurd hok.service (by decide)

end Core
