import CCNx.Service.System

/-!
# Who keeps the service alive?

The transport keeps the service in a raw pointer, without a reference of its own. The counted ones
are the queue's, from a successful `NS_NewThread` until `Run` has returned, and one for each
asynchronous copier. `Shutdown` raises the flag that lets `Run` return and goes on writing fields:
`Run` may drop the last reference in between (`released_early`). `referenced_iff`: the service
stays referenced until `Shutdown` has returned exactly if, in that window, no holder that goes is
the last one.
-/

set_option autoImplicit false

namespace Lifetime

open Xpcom Runs Service

/-- Where the transport is: before `Init`, in use, past each of the writes of the `Shutdown` that
its destructor calls, and past that call. -/
inductive TransportPc
  | created | inUse | raised | cleared | uninitialized | destroyed
  deriving DecidableEq, Repr

/-- `Shutdown` is between its locked write and its return. -/
def TransportPc.inShutdown : TransportPc → Bool
  | .raised | .cleared | .uninitialized => true
  | .created | .inUse | .destroyed => false

structure Sys where
  svc : NsCCNxTransportService := {}
  /-- The service's reference count. -/
  mRefCnt : Nat := 0
  pc : TransportPc := .created
  /-- The thread that `Init` created, whose queue holds a reference until `Run` has returned. -/
  thread : Option Runner := none
  /-- The copiers, each of which holds a reference, not yet released. -/
  copiers : Nat := 0
  deriving DecidableEq, Repr

inductive Act
  /-- `nsCCNxTransport::Init`, on the main thread or not; `rv` is what `NS_NewThread` returns. -/
  | init (onMain : Bool) (rv : NsResult)
  /-- `OpenInputStream`; `rv` is what `NS_AsyncCopy` returns. -/
  | openInputStream (rv : NsResult)
  /-- The last reference on a copier is released. -/
  | releaseCopier
  /-- An event is put on the thread's queue. -/
  | enqueue (event : Event)
  /-- The next step of `Run`. -/
  | run
  /-- The destructor calls `Shutdown`, up to and including the locked write. -/
  | destruct (onMain : Bool)
  /-- `mThread = nsnull`. -/
  | clearThread
  /-- `mInitialized = false`. -/
  | clearInitialized
  /-- `mShuttingDown = false`, and the return of `Shutdown`. -/
  | clearShuttingDown
  deriving DecidableEq, Repr

def Sys.addRef (s : Sys) : Sys := { s with mRefCnt := s.mRefCnt + 1 }

def Sys.release (s : Sys) : Sys := { s with mRefCnt := s.mRefCnt - 1 }

def step (s : Sys) : Act → Option Sys
  | .init onMain rv =>
    if s.pc = .created then
      let out := s.svc.init onMain (rv, 0)
      let s := { s with svc := out.2, pc := .inUse }
      -- the transport drops the result, and takes no reference in either case
      some (if nsFailed out.1 then s else { s.addRef with thread := some {} })
    else none
  | .openInputStream rv =>
    if s.pc = .inUse then
      some (if nsFailed rv then s else { s.addRef with copiers := s.copiers + 1 })
    else none
  | .releaseCopier =>
    if 0 < s.copiers then some { s.release with copiers := s.copiers - 1 } else none
  | .enqueue event => some { s with thread := s.thread.map (Runner.push event) }
  | .run =>
    (s.thread.bind (Runner.step s.svc.mShuttingDown)).map fun r =>
      if r.pc = .done then { s.release with thread := some r } else { s with thread := some r }
  | .destruct onMain =>
    if s.pc = .inUse then
      if !onMain || !s.svc.mInitialized || s.svc.mShuttingDown then
        some { s with pc := .destroyed }
      else some { s with svc := s.svc.raiseShuttingDown, pc := .raised }
    else none
  | .clearThread =>
    if s.pc = .raised then some { s with svc := s.svc.clearThread, pc := .cleared } else none
  | .clearInitialized =>
    if s.pc = .cleared then
      some { s with svc := { s.svc with mInitialized := false }, pc := .uninitialized }
    else none
  | .clearShuttingDown =>
    if s.pc = .uninitialized then
      some { s with svc := { s.svc with mShuttingDown := false }, pc := .destroyed }
    else none

/-- From the return of a successful `Init` of the service until `Shutdown` has returned. -/
def Sys.used (s : Sys) : Bool := s.thread.isSome && s.pc != .destroyed

/-- While the transport uses it, the service is referenced. -/
def Referenced (s : Sys) : Prop := s.used = true → 1 ≤ s.mRefCnt

/-- What has to be so before the step: during `Shutdown`, `Run` leaves only while there is a
copier, and a copier that goes after `Run` has returned is not the last. -/
def LeavesHolder (s : Sys) : Act → Prop
  | .run => ∀ r ∈ s.thread, r.pc = .check → s.svc.mShuttingDown = true → 0 < s.copiers
  | .releaseCopier => s.pc.inShutdown = true → ∀ r ∈ s.thread, r.pc = .done → 1 < s.copiers
  | _ => True

instance (s : Sys) : DecidablePred (LeavesHolder s) := fun a =>
  match a with
  | .run => inferInstanceAs (Decidable (∀ r ∈ s.thread, _ → _ → 0 < s.copiers))
  | .releaseCopier => inferInstanceAs (Decidable (_ → ∀ r ∈ s.thread, _ → 1 < s.copiers))
  | .init _ _ | .openInputStream _ | .enqueue _ | .destruct _ | .clearThread | .clearInitialized
  | .clearShuttingDown => inferInstanceAs (Decidable True)

variable {s s' : Sys} {a : Act}

/-- With nothing running in between, the steps are `Shutdown`. -/
theorem shutdown_alone (hpc : s.pc = .inUse) (hi : s.svc.mInitialized = true)
    (hd : s.svc.mShuttingDown = false) :
    run step s [.destruct true, .clearThread, .clearInitialized, .clearShuttingDown] =
      some { s with svc := (s.svc.shutdown true).2, pc := .destroyed } := by
  simp [run, step, hpc, hi, hd, NsCCNxTransportService.shutdown,
    NsCCNxTransportService.raiseShuttingDown, NsCCNxTransportService.clearThread,
    NsCCNxTransportService.resetFlags]

/-! ## The holders -/

/-- The references of a thread's queue. -/
def queueRef : Option Runner → Nat
  | none => 0
  | some r => if r.pc = .done then 0 else 1

/-- Every reference is the queue's or a copier's, the flag is up during `Shutdown` only, and the
thread stays in `Run` until then. -/
structure LifeInv (s : Sys) : Prop where
  count : s.mRefCnt = queueRef s.thread + s.copiers
  flag : s.svc.mShuttingDown = s.pc.inShutdown
  fresh : s.pc = .created → s.svc = {} ∧ s.thread = none
  running : s.pc = .inUse → ∀ r, s.thread = some r → r.pc ≠ .done

/-- A step of `Run` that leaves it drops the queue's reference; the others change the thread
only. -/
theorem step_run (h : step s .run = some s') :
    ∃ r r', s.thread = some r ∧ r.step s.svc.mShuttingDown = some r' ∧
      (r'.pc = .done ∧ s' = { s with mRefCnt := s.mRefCnt - 1, thread := some r' } ∨
        r'.pc ≠ .done ∧ s' = { s with thread := some r' }) := by
  simp only [step] at h
  obtain ⟨r', hr', rfl⟩ := Option.map_eq_some_iff.1 h
  obtain ⟨r, hr, hstep⟩ := Option.bind_eq_some_iff.1 hr'
  refine ⟨r, r', hr, hstep, ?_⟩
  by_cases hp : r'.pc = .done
  · exact .inl ⟨hp, if_pos hp⟩
  · exact .inr ⟨hp, if_neg hp⟩

/-- An `OpenInputStream` that succeeds adds a copier with its reference. -/
theorem step_openInputStream {rv : NsResult} (h : step s (.openInputStream rv) = some s') :
    s.pc = .inUse ∧ (s' = s ∨ s' = { s.addRef with copiers := s.copiers + 1 }) := by
  simp only [step] at h
  split at h
  · rename_i hpc
    cases h
    split
    · exact ⟨hpc, .inl rfl⟩
    · exact ⟨hpc, .inr rfl⟩
  · cases h

/-- The steps of the destructor: its beginning, and the writes of `Shutdown`. -/
def Act.destroys : Act → Bool
  | .destruct _ | .clearThread | .clearInitialized | .clearShuttingDown => true
  | _ => false

/-- The destructor goes on, and keeps the flag up during `Shutdown` only. -/
theorem step_destroys (hflag : s.svc.mShuttingDown = s.pc.inShutdown) (ha : a.destroys = true)
    (h : step s a = some s') :
    ∃ svc pc, s' = { s with svc, pc } ∧ svc.mShuttingDown = pc.inShutdown ∧ pc ≠ .created ∧
      pc ≠ .inUse ∧ s.pc ≠ .destroyed := by
  cases a with
  | destruct onMain =>
    simp only [step] at h
    split at h
    · rename_i hpc
      rw [hpc] at hflag ⊢
      split at h <;> cases h
      · exact ⟨s.svc, .destroyed, rfl, hflag, nofun, nofun, nofun⟩
      · exact ⟨s.svc.raiseShuttingDown, .raised, rfl, rfl, nofun, nofun, nofun⟩
    · cases h
  | clearThread =>
    simp only [step] at h
    split at h
    · rename_i hpc
      rw [hpc] at hflag ⊢
      cases h
      exact ⟨s.svc.clearThread, .cleared, rfl, hflag, nofun, nofun, nofun⟩
    · cases h
  | clearInitialized =>
    simp only [step] at h
    split at h
    · rename_i hpc
      rw [hpc] at hflag ⊢
      cases h
      exact ⟨_, .uninitialized, rfl, hflag, nofun, nofun, nofun⟩
    · cases h
  | clearShuttingDown =>
    simp only [step] at h
    split at h
    · rename_i hpc
      rw [hpc]
      cases h
      exact ⟨_, .destroyed, rfl, rfl, nofun, nofun, nofun⟩
    · cases h
  | _ => cases ha

theorem LifeInv.init (hI : LifeInv s) {onMain : Bool} {rv : NsResult}
    (h : step s (.init onMain rv) = some s') : LifeInv s' := by
  have hcount := hI.count
  simp only [step] at h
  split at h
  · rename_i hpc
    obtain ⟨hsvc, hth⟩ := hI.fresh hpc
    have hflag : (s.svc.init onMain (rv, 0)).2.mShuttingDown = false := by
      rw [NsCCNxTransportService.init_mShuttingDown, hsvc]
    cases h
    split
    · refine ⟨hcount, hflag, nofun, fun _ r hr => ?_⟩
      rw [hth] at hr
      cases hr
    · rw [hth] at hcount
      refine ⟨?_, hflag, nofun, fun _ r hr => ?_⟩
      · simp only [Sys.addRef, hcount, queueRef, reduceCtorEq, ↓reduceIte]
        omega
      · cases hr
        exact nofun
  · cases h

theorem LifeInv.run (hI : LifeInv s) (h : step s .run = some s') : LifeInv s' := by
  have hcount := hI.count
  obtain ⟨r, r', hr, hstep, ⟨hp, rfl⟩ | ⟨hp, rfl⟩⟩ := step_run h
  all_goals
    have hold : r.pc ≠ .done := (runner_step_told hstep).2
    rw [hr, queueRef, if_neg hold] at hcount
  · -- the flag that let it leave is up during `Shutdown` only
    have hup := hI.flag.symm.trans ((runner_step_events hstep).2.1 hp).2.1
    refine ⟨?_, hI.flag, fun hc => ?_, fun hu => ?_⟩
    · simp only [queueRef, hp, ↓reduceIte, hcount]
      omega
    · rw [show s.pc = .created from hc] at hup
      cases hup
    · rw [show s.pc = .inUse from hu] at hup
      cases hup
  · refine ⟨?_, hI.flag, fun hc => ?_, fun _ q hq => ?_⟩
    · simp only [queueRef, hp, ↓reduceIte, hcount]
    · cases hr.symm.trans (hI.fresh hc).2
    · cases hq
      exact hp

theorem LifeInv.next (hI : LifeInv s) (h : step s a = some s') : LifeInv s' := by
  have hcount := hI.count
  cases a with
  | init onMain rv => exact hI.init h
  | openInputStream rv =>
    obtain ⟨hpc, rfl | rfl⟩ := step_openInputStream h
    · exact hI
    · refine ⟨?_, hI.flag, fun hc => ?_, hI.running⟩
      · simp only [Sys.addRef, hcount]
        omega
      · cases hpc.symm.trans hc
  | releaseCopier =>
    simp only [step] at h
    split at h
    · cases h
      refine ⟨?_, hI.flag, hI.fresh, hI.running⟩
      simp only [Sys.release, hcount]
      omega
    · cases h
  | enqueue event =>
    cases h
    refine ⟨?_, hI.flag, fun hc => ?_, fun hu r hr => ?_⟩
    · rw [hcount]
      cases s.thread <;> rfl
    · obtain ⟨hsvc, hth⟩ := hI.fresh hc
      exact ⟨hsvc, by rw [hth]; rfl⟩
    · obtain ⟨q, hq, rfl⟩ := Option.map_eq_some_iff.1 hr
      exact hI.running hu q hq
  | run => exact hI.run h
  | destruct | clearThread | clearInitialized | clearShuttingDown =>
    obtain ⟨svc, pc, rfl, hflag, hc, hu, -⟩ := step_destroys hI.flag rfl h
    exact ⟨hcount, hflag, fun hcreated => absurd hcreated hc, fun huse => absurd huse hu⟩

/-! ## Dropping a reference -/

theorem used_of_inShutdown {r : Runner} (hth : s.thread = some r)
    (hin : s.pc.inShutdown = true) : s.used = true := by
  rw [Sys.used, hth, Option.isSome_some, Bool.true_and]
  revert hin
  cases s.pc <;> decide

/-- A thread that has left `Run` while the service is used has left during `Shutdown`. -/
theorem LifeInv.inShutdown (hI : LifeInv s) {r : Runner} (hth : s.thread = some r)
    (hp : r.pc = .done) (hu : s.used = true) : s.pc.inShutdown = true := by
  cases hpc : s.pc with
  | created => cases hth.symm.trans (hI.fresh hpc).2
  | inUse => exact absurd hp (hI.running hpc r hth)
  | destroyed => simp [Sys.used, hpc] at hu
  | _ => rfl

theorem referenced_releaseCopier (hI : LifeInv s) (h : step s .releaseCopier = some s') :
    Referenced s' ↔ LeavesHolder s .releaseCopier := by
  have hcount := hI.count
  simp only [step] at h
  split at h
  · cases h
    show (s.used = true → 1 ≤ s.mRefCnt - 1) ↔ _
    constructor
    · intro hR' hin r hr hp
      rw [Option.mem_def.1 hr, queueRef, if_pos hp] at hcount
      have := hR' (used_of_inShutdown hr hin)
      omega
    · intro hL hu
      cases hth : s.thread with
      | none => rw [Sys.used, hth] at hu; cases hu
      | some r =>
        rw [hth] at hcount
        by_cases hp : r.pc = .done
        · have := hL (hI.inShutdown hth hp hu) r hth hp
          omega
        · rw [queueRef, if_neg hp] at hcount
          omega
  · cases h

theorem referenced_run (hI : LifeInv s) (h : step s .run = some s') :
    Referenced s' ↔ LeavesHolder s .run := by
  have hcount := hI.count
  obtain ⟨r, r', hr, hstep, hcase⟩ := step_run h
  obtain ⟨-, hdone, hleave⟩ := runner_step_events hstep
  rw [hr, queueRef, if_neg (runner_step_told hstep).2] at hcount
  constructor
  · intro hR' q hq hc hup
    cases (Option.mem_def.1 hq).symm.trans hr
    rcases hcase with ⟨-, rfl⟩ | ⟨hp, rfl⟩
    · have := hR' (used_of_inShutdown rfl (hI.flag.symm.trans hup))
      simp only at this
      omega
    · exact absurd (hleave hc hup) hp
  · intro hL hu
    rcases hcase with ⟨hp, rfl⟩ | ⟨-, rfl⟩
    · obtain ⟨hc, hup, -⟩ := hdone hp
      have := hL r hr hc hup
      simp only
      omega
    · simp only
      omega

/-- The service is not used before its `Init`, and has the queue's reference after it. -/
theorem referenced_init (hI : LifeInv s) {onMain : Bool} {rv : NsResult}
    (h : step s (.init onMain rv) = some s') : Referenced s' := by
  simp only [step] at h
  split at h
  · rename_i hpc
    cases h
    split
    · intro hu
      rw [Sys.used, (hI.fresh hpc).2] at hu
      cases hu
    · exact fun _ => Nat.le_add_left _ _
  · cases h

/-- From a state in which the service is referenced while it is used, a step keeps it so if and
only if it leaves a holder. -/
theorem referenced_step (hI : LifeInv s) (hR : Referenced s) (h : step s a = some s') :
    Referenced s' ↔ LeavesHolder s a := by
  cases a with
  | releaseCopier => exact referenced_releaseCopier hI h
  | run => exact referenced_run hI h
  -- the others drop no reference
  | init onMain rv => exact iff_of_true (referenced_init hI h) trivial
  | openInputStream rv =>
    refine iff_of_true ?_ trivial
    obtain ⟨-, rfl | rfl⟩ := step_openInputStream h
    · exact hR
    · exact fun _ => Nat.le_add_left _ _
  | enqueue event =>
    cases h
    exact iff_of_true (fun hu => hR (by simpa [Sys.used] using hu)) trivial
  | destruct | clearThread | clearInitialized | clearShuttingDown =>
    refine iff_of_true ?_ trivial
    obtain ⟨svc, pc, rfl, -, -, -, hpc⟩ := step_destroys hI.flag rfl h
    intro hu
    have hth : s.thread.isSome = true := (Bool.and_eq_true_iff.1 hu).1
    exact hR (by simp [Sys.used, hth, hpc])

/-! ## Over runs -/

theorem LifeInv.start : LifeInv {} := ⟨rfl, rfl, fun _ => ⟨rfl, rfl⟩, nofun⟩

/-- In every run, the service is referenced in all states in which the transport uses it if and
only if every step leaves a holder. -/
theorem referenced_iff (as : List Act) (s : Sys) (h : run step {} as = some s) :
    EachState step Referenced {} as ↔ EachStep step LeavesHolder {} as :=
  eachState_iff_eachStep (I := LifeInv) (A := fun _ => True) (fun _ _ _ hI _ hs => hI.next hs)
    (fun _ _ _ hI hR _ hs => referenced_step hI hR hs) LifeInv.start nofun (fun _ _ => trivial) h

/-- `Run` returns during `Shutdown`, and the copier stays until it is over. -/
def copierStays : List Act :=
  [.init true nsOk, .openInputStream nsOk, .enqueue 7, .run, .run, .run, .destruct true, .run,
    .clearThread, .clearInitialized, .clearShuttingDown, .releaseCopier]

theorem copierStays_referenced : EachState step Referenced {} copierStays :=
  (referenced_iff copierStays _ rfl).2 (by decide)

/-- `Run` drops the only reference as soon as the flag is up; `Shutdown` has three fields to
write. -/
theorem released_early : ¬ ∀ as s, run step {} as = some s → Referenced s := by
  intro hP
  have h := hP [.init true nsOk, .run, .run, .destruct true, .run] _ rfl rfl
  exact absurd h (by decide)

end Lifetime
