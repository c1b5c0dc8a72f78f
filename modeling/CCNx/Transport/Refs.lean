import CCNx.Lib.Runs
import CCNx.Transport.Defs

/-!
# The last reference on a transport

References on a transport are held directly (by `nsCCNxCore`, on the main thread) or through
`mInput` (by the copier that `NS_AsyncCopy` started, on the service thread), and each is dropped by
the thread that holds it. `nsCCNxInputStream::Release` is three steps: the decrement of
`mReaderRefCnt`, `Close` if that was the last, and `nsCCNxTransport::Release`. The destructor runs
on whichever thread takes `mRefCnt` to zero, while `Shutdown` works on the main thread only:
`shutdown_ok_iff` says that the service is shut down exactly if the core is the last to let go.
-/

set_option autoImplicit false

namespace Refs

open Xpcom Runs Service
open Transport (NsCCNxTransport World InitEnv OpenEnv)

/-- Where a thread is in `nsCCNxInputStream::Release`: outside, before `Close`, or before
`mTransport->Release()`. -/
inductive ReleasePc
  | idle
  | closing
  | releasing
  deriving DecidableEq, Repr

/-- A thread with the references it holds. -/
structure Holder where
  transportRefs : Nat := 0
  inputRefs : Nat := 0
  pc : ReleasePc := .idle
  deriving DecidableEq, Repr

/-- Holds nothing, and is not about to drop anything. -/
def Holder.dropped : Holder := {}

structure Sys where
  tr : NsCCNxTransport
  holders : List Holder
  destroyed : Bool := false
  /-- What `mService->Shutdown()` returned to the destructor. -/
  shutdown : Option NsResult := none
  deriving DecidableEq, Repr

def mainThread : Nat := 0

inductive Act
  /-- `nsCCNxTransport::Release`. -/
  | release (t : Nat)
  /-- The decrement of `nsCCNxInputStream::Release`. -/
  | releaseInput (t : Nat)
  /-- The next step of a `nsCCNxInputStream::Release` that has begun. -/
  | next (t : Nat)
  /-- `nsCCNxTransport::Close`. -/
  | close (t : Nat) (reason : NsResult)
  deriving DecidableEq, Repr

/-- `nsCCNxTransport::Release` by thread `t`, which goes on as `h`. -/
def Sys.release (s : Sys) (t : Nat) (h : Holder) : Sys :=
  let tr := { s.tr with mRefCnt := s.tr.mRefCnt - 1 }
  let holders := s.holders.set t h
  if tr.mRefCnt = 0 then
    { tr := (tr.destruct (t == mainThread)).2, holders, destroyed := true
      shutdown := (tr.destruct (t == mainThread)).1 }
  else { s with tr, holders }

def step (s : Sys) (a : Act) : Option Sys :=
  if s.destroyed then none
  else
    match a with
    | .release t =>
      (s.holders[t]?).bind fun h =>
        if h.pc = .idle ∧ 0 < h.transportRefs then
          some (s.release t { h with transportRefs := h.transportRefs - 1 })
        else none
    | .releaseInput t =>
      (s.holders[t]?).bind fun h =>
        if h.pc = .idle ∧ 0 < h.inputRefs then
          let n := s.tr.mInput.mReaderRefCnt - 1
          some { s with
            tr := { s.tr with mInput := { s.tr.mInput with mReaderRefCnt := n } }
            holders := s.holders.set t { h with
              inputRefs := h.inputRefs - 1, pc := if n = 0 then .closing else .releasing } }
        else none
    | .next t =>
      (s.holders[t]?).bind fun h =>
        match h.pc with
        | .idle => none
        | .closing =>
          some { s with
            tr := { s.tr with mInput := s.tr.mInput.closeWithStatus nsBaseStreamClosed }
            holders := s.holders.set t { h with pc := .releasing } }
        | .releasing => some (s.release t { h with pc := .idle })
    | .close t reason =>
      (s.holders[t]?).bind fun h =>
        if h.pc = .idle ∧ 0 < h.transportRefs then some { s with tr := s.tr.close reason }
        else none

/-- The transport that a `Connect` leaves behind: one reference for the core, and those that the
copier took on `mInput` when `OpenInputStream` started it. -/
def connected (env : InitEnv) (ccnxName : String) (openEnv : OpenEnv) : NsCCNxTransport :=
  ((World.created.init env ccnxName).2.tr.openInputStream 0 openEnv).2.2

/-- The core on the main thread and the copier on the service thread. -/
def start (env : InitEnv) (ccnxName : String) (openEnv : OpenEnv) : Sys :=
  let tr := connected env ccnxName openEnv
  { tr, holders := [{ transportRefs := 1 }, { inputRefs := tr.mInput.mReaderRefCnt }] }

/-- Every reference has been dropped. -/
def AllDropped (s : Sys) : Prop := ∀ h ∈ s.holders, h = .dropped

instance : DecidablePred AllDropped :=
  fun s => inferInstanceAs (Decidable (∀ h ∈ s.holders, h = .dropped))

/-- `Shutdown` returned `NS_OK` after it had raised `mShuttingDown` and cleared `mThread`. -/
structure ShutDown (svc : NsCCNxTransportService) (s : Sys) : Prop where
  rv : s.shutdown = some nsOk
  service : s.tr.mService = some svc.raiseShuttingDown.clearThread.resetFlags

/-! ## The two parties -/

/-- While references are left: the core holds `c` of them, the copier `i`, and it is at `pc`. -/
structure Dropping (svc : NsCCNxTransportService) (c i : Nat) (pc : ReleasePc) (s : Sys) :
    Prop where
  destroyed : s.destroyed = false
  service : s.tr.mService = some svc
  holders : s.holders = [{ transportRefs := c }, { inputRefs := i, pc }]
  readers : s.tr.mInput.mReaderRefCnt = i
  refs : s.tr.mRefCnt = c + i + if pc = .idle then 0 else 1
  held : 0 < s.tr.mRefCnt

/-- The destructor has run on the thread that made the last step. -/
structure Ended (svc : NsCCNxTransportService) (onMain : Bool) (s : Sys) : Prop where
  destroyed : s.destroyed = true
  shutdown : s.shutdown = some (svc.shutdown onMain).1
  service : s.tr.mService = some (svc.shutdown onMain).2

variable {svc : NsCCNxTransportService} {c i : Nat} {pc : ReleasePc} {s s' : Sys} {a : Act}

theorem Dropping.not_allDropped (hD : Dropping svc c i pc s) : ¬ AllDropped s := by
  intro h
  rw [AllDropped, hD.holders] at h
  have h0 := h _ List.mem_cons_self
  have h1 := h _ (List.mem_cons_of_mem _ List.mem_cons_self)
  simp only [Holder.dropped, Holder.mk.injEq] at h0 h1
  have := hD.refs
  rw [h0.1, h1.2.1, h1.2.2] at this
  exact absurd hD.held (by simp [this])

/-- A `Release` of the transport leaves the parties one reference short, or ends it. -/
theorem release_cases (hs : s.tr.mService = some svc) (t : Nat) (h : Holder) :
    (s.tr.mRefCnt - 1 = 0 ∧ Ended svc (t == mainThread) (s.release t h)) ∨
      (0 < s.tr.mRefCnt - 1 ∧ s.release t h =
        { s with
          tr := { s.tr with mRefCnt := s.tr.mRefCnt - 1 }, holders := s.holders.set t h }) := by
  unfold Sys.release
  by_cases h0 : s.tr.mRefCnt - 1 = 0
  · refine .inl ⟨h0, ?_⟩
    simp only [h0, ↓reduceIte, NsCCNxTransport.destruct, hs]
    exact ⟨rfl, rfl, rfl⟩
  · exact .inr ⟨Nat.pos_of_ne_zero h0, if_neg h0⟩

theorem holder_cases {t : Nat} {x y h : Holder} (ht : [x, y][t]? = some h) :
    (t = 0 ∧ h = x) ∨ t = 1 ∧ h = y := by
  match t with
  | 0 => cases ht; exact .inl ⟨rfl, rfl⟩
  | 1 => cases ht; exact .inr ⟨rfl, rfl⟩
  | t + 2 => simp at ht

/-- The core's drop ends it on the main thread, or leaves the copier's references. -/
theorem Dropping.release (hD : Dropping svc c i pc s) {t : Nat}
    (h : step s (.release t) = some s') :
    t = mainThread ∧ ((∃ c', Dropping svc c' i pc s') ∨ Ended svc true s') := by
  unfold step at h
  simp only [hD.destroyed, Bool.false_eq_true, ↓reduceIte, hD.holders] at h
  obtain ⟨x, hx, h⟩ := Option.bind_eq_some_iff.1 h
  split at h
  · rename_i hheld
    cases h
    rcases holder_cases hx with ⟨rfl, rfl⟩ | ⟨rfl, rfl⟩
    · refine ⟨rfl, ?_⟩
      rcases release_cases hD.service 0 { transportRefs := c - 1 } with ⟨-, hE⟩ | ⟨hpos, he⟩
      · exact .inr hE
      · refine .inl ⟨c - 1, ?_⟩
        rw [he]
        refine ⟨hD.destroyed, hD.service, by simp [hD.holders], hD.readers, ?_, hpos⟩
        have hc : 0 < c := hheld.2
        simp only [hD.refs]
        omega
    · exact absurd hheld.2 (Nat.lt_irrefl 0)
  · cases h

/-- A step of the copier's `Release` ends it on the service thread, or leaves references. -/
theorem Dropping.next_input (hD : Dropping svc c i pc s) {t : Nat}
    (h : step s (.next t) = some s') :
    (∃ pc', Dropping svc c i pc' s') ∨ Ended svc false s' := by
  unfold step at h
  simp only [hD.destroyed, Bool.false_eq_true, ↓reduceIte, hD.holders] at h
  obtain ⟨x, hx, h⟩ := Option.bind_eq_some_iff.1 h
  rcases holder_cases hx with ⟨rfl, rfl⟩ | ⟨rfl, rfl⟩
  · cases h
  · have hrefs := hD.refs
    cases pc with
    | idle => cases h
    | closing =>
      cases h
      refine .inl ⟨.releasing, rfl, hD.service, by simp, ?_, hrefs, hD.held⟩
      rw [← hD.readers]
      unfold Transport.NsCCNxInputStream.closeWithStatus
      split <;> rfl
    | releasing =>
      cases h
      rcases release_cases hD.service 1 { inputRefs := i } with ⟨-, hE⟩ | ⟨hpos, he⟩
      · exact .inr hE
      · refine .inl ⟨.idle, ?_⟩
        rw [he]
        refine ⟨hD.destroyed, hD.service, by simp [hD.holders], hD.readers, ?_, hpos⟩
        simp only [reduceCtorEq, ↓reduceIte] at hrefs ⊢
        omega

theorem Dropping.releaseInput (hD : Dropping svc c i pc s) {t : Nat}
    (h : step s (.releaseInput t) = some s') : ∃ i' pc', Dropping svc c i' pc' s' := by
  unfold step at h
  simp only [hD.destroyed, Bool.false_eq_true, ↓reduceIte, hD.holders] at h
  obtain ⟨x, hx, h⟩ := Option.bind_eq_some_iff.1 h
  split at h
  · rename_i hheld
    cases h
    rcases holder_cases hx with ⟨rfl, rfl⟩ | ⟨rfl, rfl⟩
    · exact absurd hheld.2 (Nat.lt_irrefl 0)
    · obtain ⟨hpc, hi⟩ := hheld
      subst hpc
      refine ⟨i - 1, if i - 1 = 0 then .closing else .releasing, rfl, hD.service,
        by simp [hD.readers], by simp [hD.readers], ?_, hD.held⟩
      have hrefs := hD.refs
      simp only [↓reduceIte] at hrefs hi
      have hpc : (if i - 1 = 0 then ReleasePc.closing else .releasing) ≠ .idle := by
        split <;> exact nofun
      rw [if_neg hpc]
      show s.tr.mRefCnt = _
      omega
  · cases h

theorem Dropping.close (hD : Dropping svc c i pc s) {t : Nat} {reason : NsResult}
    (h : step s (.close t reason) = some s') : Dropping svc c i pc s' := by
  unfold step at h
  simp only [hD.destroyed, Bool.false_eq_true, ↓reduceIte] at h
  obtain ⟨x, hx, h⟩ := Option.bind_eq_some_iff.1 h
  split at h
  · cases h
    refine ⟨rfl, hD.service, hD.holders, ?_, hD.refs, hD.held⟩
    rw [← hD.readers]
    simp only [NsCCNxTransport.close, Transport.NsCCNxInputStream.closeWithStatus_eq]
  · cases h

theorem Dropping.next (hD : Dropping svc c i pc s) (h : step s a = some s') :
    (∃ c' i' pc', Dropping svc c' i' pc' s') ∨ Ended svc (a == .release mainThread) s' := by
  cases a with
  | release t =>
    obtain ⟨rfl, ⟨c', hD'⟩ | hE⟩ := hD.release h
    · exact .inl ⟨_, _, _, hD'⟩
    · exact .inr (by simpa using hE)
  | releaseInput t =>
    obtain ⟨i', pc', hD'⟩ := hD.releaseInput h
    exact .inl ⟨_, _, _, hD'⟩
  | next t =>
    rcases hD.next_input h with ⟨pc', hD'⟩ | hE
    · exact .inl ⟨_, _, _, hD'⟩
    · exact .inr hE
  | close t reason => exact .inl ⟨_, _, _, hD.close h⟩

/-! ## Who is the last to let go -/

theorem connected_eq (env : InitEnv) (ccnxName : String) (openEnv : OpenEnv) :
    (connected env ccnxName openEnv).mService =
        some (({} : NsCCNxTransportService).init env.onMain env.newThread).2 ∧
      (connected env ccnxName openEnv).mRefCnt =
        1 + (connected env ccnxName openEnv).mInput.mReaderRefCnt := by
  obtain ⟨hin, hrefs, hsvc⟩ := World.init_keeps World.created env ccnxName
  have hfree : (World.created.init env ccnxName).2.tr.mInput.mReaderRefCnt = 0 := by
    rw [hin]
    rfl
  have hone : (World.created.init env ccnxName).2.tr.mRefCnt = 1 := hrefs
  rw [connected, NsCCNxTransport.openInputStream_pipe hfree]
  split
  · exact ⟨hsvc, by rw [hfree, hone]⟩
  · dsimp only
    split
    · exact ⟨hsvc, by rw [hfree, hone]⟩
    · refine ⟨hsvc, ?_⟩
      simp only [NsCCNxTransport.addRefInput, hfree, hone, Nat.zero_add]

theorem dropping_start {env : InitEnv} {ccnxName : String} {openEnv : OpenEnv}
    (hsvc : (connected env ccnxName openEnv).mService = some svc) :
    ∃ i, Dropping svc 1 i .idle (start env ccnxName openEnv) := by
  have hrefs := (connected_eq env ccnxName openEnv).2
  exact ⟨_, rfl, hsvc, rfl, rfl, hrefs, by simp only [start]; omega⟩

/-- With the service initialized, in every interleaving that drops every reference, the destructor
shuts the service down if and only if the last drop is the core's. -/
theorem shutdown_ok_iff (env : InitEnv) (ccnxName : String) (openEnv : OpenEnv)
    (svc : NsCCNxTransportService) (acts : List Act) (a : Act) (s : Sys)
    (hsvc : (connected env ccnxName openEnv).mService = some svc) (hinit : svc.mInitialized = true)
    (h : run step (start env ccnxName openEnv) (acts ++ [a]) = some s) (hall : AllDropped s) :
    ShutDown svc s ↔ a = .release mainThread := by
  obtain ⟨s₁, h₁, hlast⟩ := run_concat_some h
  have hdown : svc.mShuttingDown = false := by
    rw [(connected_eq env ccnxName openEnv).1] at hsvc
    cases hsvc
    exact NsCCNxTransportService.init_mShuttingDown _ _ _
  -- until the last step somebody holds a reference: afterwards no step is possible
  have hI : (∃ c i pc, Dropping svc c i pc s₁) ∨ s₁.destroyed = true := by
    refine run_inv (I := fun s => (∃ c i pc, Dropping svc c i pc s) ∨ s.destroyed = true) ?_
      (.inl ⟨1, _, _, (dropping_start hsvc).choose_spec⟩) h₁
    rintro s a s' (⟨c, i, pc, hD⟩ | hd) hs
    · exact (hD.next hs).imp id Ended.destroyed
    · unfold step at hs
      rw [if_pos hd] at hs
      cases hs
  rcases hI with ⟨c, i, pc, hD⟩ | hd
  · rcases hD.next hlast with ⟨c', i', pc', hD'⟩ | hE
    · exact absurd hall hD'.not_allDropped
    · have hsd := hE.shutdown
      have hsv := hE.service
      by_cases ha : a = .release mainThread
      · subst ha
        simp only [NsCCNxTransportService.shutdown, beq_self_eq_true, hinit, hdown, Bool.not_true,
          Bool.false_eq_true, ↓reduceIte] at hsd hsv
        exact ⟨fun _ => rfl, fun _ => ⟨hsd, hsv⟩⟩
      · refine ⟨fun hS => ?_, fun he => absurd he ha⟩
        have hne : (a == .release mainThread) = false := by simpa using ha
        rw [hne] at hsd
        have := hsd.symm.trans hS.rv
        cases this
  · unfold step at hlast
    rw [if_pos hd] at hlast
    cases hlast

/-- The copy ends, and then the core lets go. -/
def copyEnds : List Act := [.releaseInput 1, .next 1, .next 1, .close 0 nsErrorAbort]

theorem shutdown_ok_copyEnds :
    ∃ s, run step (start {} "ccnx:/a" {}) (copyEnds ++ [.release mainThread]) = some s ∧
      ShutDown (({} : NsCCNxTransportService).init true (nsOk, 0)).2 s :=
  ⟨_, rfl, (shutdown_ok_iff {} "ccnx:/a" {} _ copyEnds _ _ rfl (by decide) rfl
    (by decide)).2 rfl⟩

/-- The core lets go while the copy is still running: the destructor runs on the service thread. -/
theorem shutdown_fails :
    ¬ ∀ env ccnxName openEnv (svc : NsCCNxTransportService) acts s,
        (connected env ccnxName openEnv).mService = some svc → svc.mInitialized = true →
        run step (start env ccnxName openEnv) acts = some s → AllDropped s → ShutDown svc s := by
  intro hP
  have hS := hP {} "ccnx:/a" {} _ [.release 0, .releaseInput 1, .next 1, .next 1] _ rfl (by decide)
    rfl (by decide)
  exact absurd hS.rv (by decide)

end Refs
