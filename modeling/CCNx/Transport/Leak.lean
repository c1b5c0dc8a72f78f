import CCNx.Transport.Closing
import CCNx.Transport.Handles

/-!
# Does the destructor leave a handle behind?

Neither `Close` nor `~nsCCNxTransport` calls `CCNX_Close`: only the last reader's
`CCNX_ReleaseLocked` does. So the handles outlive a transport that was never read, or closed before
its first `Read`, and one whose `ccn_fetch_open` returned null (`handles_leaked`).
`allDestroyed_iff`: these are the only ones.
-/

set_option autoImplicit false

namespace Transport

open Xpcom Runs

variable {K : FetchCodes} {s s' : Sys} {a : Act} {l : Lease.State}

/-- The first `Read` comes before the first close with a failure. -/
def readsBeforeClose : List Act → Bool
  | [] => false
  | .readCheck _ _ _ :: _ => true
  | a :: acts => if a.reason?.any nsFailed then false else readsBeforeClose acts

theorem readsBeforeClose_cons {acts : List Act} (hc : ∀ t buf count, a ≠ .readCheck t buf count) :
    readsBeforeClose (a :: acts) =
      if a.reason?.any nsFailed then false else readsBeforeClose acts := by
  cases a <;> first | rfl | exact absurd rfl (hc _ _ _)

/-! ## Without a stream -/

theorem start_allDestroyed_iff (env : InitEnv) (ccnxName : String) (n : Nat) :
    (start env ccnxName n).world.lib.AllDestroyed ↔
      env.connect < 0 ∨ env.nameFromUri ccnxName < 0 := by
  rw [start]
  by_cases hc : env.connect < 0
  · simp only [World.init_connectFailed _ _ _ hc, World.initConnect, hc, ↓reduceIte, true_or,
      iff_true]
    exact (by decide : Libccn.AllDestroyed ⟨1, [0]⟩)
  · by_cases hn : env.nameFromUri ccnxName < 0
    · simp only [World.init_nameFailed _ _ _ hc hn, World.initConnect, World.initName, hc, hn,
        ↓reduceIte, or_true, iff_true]
      exact (by decide : Libccn.AllDestroyed ⟨2, [0, 1]⟩)
    · simp only [World.init_ok _ _ _ hc hn, World.initConnect, World.initName, World.initFetch,
        hc, hn, ↓reduceIte, or_self, iff_false]
      cases env.fetchOpen ccnxName with
      | false => exact (by decide : ¬ Libccn.AllDestroyed ⟨4, []⟩)
      | true => exact (by decide : ¬ Libccn.AllDestroyed ⟨5, []⟩)

/-- A transport without a stream keeps what it has. -/
theorem Leases.absent_next (hL : Leases s .absent) (h : step K s a = some s') :
    Leases s' .absent ∧ s'.world.lib = s.world.lib := by
  by_cases hc : ∃ t buf count, a = .readCheck t buf count
  · obtain ⟨t, buf, count, rfl⟩ := hc
    rcases hL.readCheck h with ⟨hL', hw, -⟩ | ⟨-, n, hn, -⟩
    · exact ⟨hL', by rw [hw]⟩
    · cases hn
  · by_cases hr : ∃ t answers, a = .readSection t answers
    · obtain ⟨t, answers, rfl⟩ := hr
      obtain ⟨l', hstep, -⟩ := hL.readSection h
      cases hstep
    · have hc' : ∀ t buf count, a ≠ .readCheck t buf count := fun t buf count he =>
        hc ⟨t, buf, count, he⟩
      have hr' : ∀ t answers, a ≠ .readSection t answers := fun t answers he => hr ⟨t, answers, he⟩
      exact ⟨hL.quiet hc' hr' h, congrArg Handles.lib (step_quiet hc' hr' h).1⟩

/-! ## Before the first read -/

/-- No thread is between two sections of `Read`, and nobody has ever held the stream. -/
structure Unread (s : Sys) : Prop where
  leases : Leases s (.held 0)
  passive : ∀ pc ∈ s.threads, pc.passive = true

theorem Unread.not_store (hU : Unread s) {t : Nat} : step K s (.readStore t) ≠ some s' := by
  intro h
  obtain ⟨res, st, ht, -⟩ := step_readStore h
  cases hU.passive _ (List.mem_of_getElem? ht)

theorem Unread.not_section (hU : Unread s) {t : Nat} {answers : List Answer} :
    step K s (.readSection t answers) ≠ some s' := by
  intro h
  obtain ⟨f, buf, count, st, res, ht, -, -⟩ := step_readSection h
  cases hU.passive _ (List.mem_of_getElem? ht)

theorem Unread.quiet (hU : Unread s) (hc : ∀ t buf count, a ≠ .readCheck t buf count)
    (h : step K s a = some s') : Unread s' := by
  refine ⟨hU.leases.quiet hc (fun t answers he => hU.not_section (he ▸ h)) h, fun pc hpc => ?_⟩
  rcases step_position h hpc with hpc | hp | ⟨-, t, buf, count, rfl⟩ | ⟨t, answers, rfl, -⟩
  · exact hU.passive pc hpc
  · exact hp
  · exact absurd rfl (hc t buf count)
  · exact absurd h hU.not_section

/-- The first `Read` of an open stream gets the stream. -/
theorem Unread.readCheck (hU : Unread s) (hopen : nsFailed s.mCondition = false) {t count : Nat}
    {buf : List UInt8} (h : step K s (.readCheck t buf count) = some s') :
    Leases s' (.held 1) := by
  rcases hU.leases.readCheck h with ⟨-, -, rv, hrv, -⟩ | ⟨-, n, hn, -, hL'⟩
  · have hh : s.world.handles = _ := hU.leases.handles
    simp only [World.handles, Handles.mk.injEq] at hh
    rw [readCheck_open hopen hh.2.2.2.2.2.2.1 hh.2.2.2.2.1] at hrv
    cases hrv
  · cases hn
    exact hL'

/-- A stream closed before its first `Read` is never read. -/
theorem Unread.closed (hU : Unread s) (hfail : nsFailed s.mCondition = true)
    (h : step K s a = some s') : Unread s' ∧ nsFailed s'.mCondition = true := by
  have hC : Closed K s.mCondition s := ⟨rfl, fun pc hpc => clearOf_passive (hU.passive pc hpc)⟩
  have hC' := hC.next hfail h
  refine ⟨?_, by rw [hC'.condition, hfail]⟩
  by_cases hc : ∃ t buf count, a = .readCheck t buf count
  · obtain ⟨t, buf, count, rfl⟩ := hc
    rcases hU.leases.readCheck h with ⟨hL', -, -⟩ | ⟨hopen, -⟩
    · refine ⟨hL', fun pc hpc => ?_⟩
      rcases step_position h hpc with hpc | hp | ⟨hopen, -⟩ | ⟨t, answers, ha, -⟩
      · exact hU.passive pc hpc
      · exact hp
      · rw [hfail] at hopen
        cases hopen
      · cases ha
    · rw [hfail] at hopen
      cases hopen
  · exact hU.quiet (fun t buf count he => hc ⟨t, buf, count, he⟩) h

/-! ## After the first read -/

/-- The handles were leased, and are held or have been given back. -/
def Used (s : Sys) : Prop := ∃ l, Leases s l ∧ l ≠ .held 0 ∧ l ≠ .absent

theorem Used.next (hU : Used s) (h : step K s a = some s') : Used s' := by
  obtain ⟨l, hL, hne⟩ := hU
  obtain ⟨l', hL', rfl | ⟨b, hb⟩⟩ := hL.next h
  · exact ⟨_, hL', hne⟩
  · exact ⟨l', hL', Lease.step_ne_unused hb⟩

/-- From an open stream that was never read, it is the first of the reads and the closes that
decides. -/
theorem run_unread {acts : List Act} (hU : Unread s) (hopen : nsFailed s.mCondition = false)
    (h : run (step K) s acts = some s') :
    if readsBeforeClose acts then Used s' else Unread s' := by
  induction acts generalizing s with
  | nil => cases h; exact hU
  | cons a acts ih =>
    obtain ⟨s₁, h₁, hrest⟩ := run_cons_some h
    by_cases hc : ∃ t buf count, a = .readCheck t buf count
    · obtain ⟨t, buf, count, rfl⟩ := hc
      rw [readsBeforeClose, if_pos rfl]
      have hused : Used s₁ := ⟨_, hU.readCheck hopen h₁, nofun, nofun⟩
      exact run_inv (fun _ _ _ => Used.next) hused hrest
    · have hc' : ∀ t buf count, a ≠ .readCheck t buf count := fun t buf count he =>
        hc ⟨t, buf, count, he⟩
      have hU₁ := hU.quiet hc' h₁
      have hcond := step_mCondition (fun t he => hU.not_store (he ▸ h₁)) h₁
      rw [readsBeforeClose_cons hc']
      cases hr : a.reason? with
      | none =>
        rw [hr] at hcond
        exact ih hU₁ (hcond ▸ hopen) hrest
      | some reason =>
        simp only [hr, hopen, Bool.false_eq_true, ↓reduceIte] at hcond
        cases hf : nsFailed reason with
        | false =>
          simp only [Option.any_some, hf, Bool.false_eq_true, ↓reduceIte]
          exact ih hU₁ (hcond ▸ hf) hrest
        | true =>
          simp only [Option.any_some, hf, Bool.false_eq_true, ↓reduceIte]
          have hI := run_inv (I := fun s => Unread s ∧ nsFailed s.mCondition = true)
            (fun _ _ _ hI => hI.1.closed hI.2) ⟨hU₁, hcond ▸ hf⟩ hrest
          exact hI.1

/-! ## At the end of the destructor -/

/-- A destructor that has run found no reader, and left the handles alone. -/
theorem destruct_unread {onMain : Bool} (h : step K s (.destruct onMain) = some s') :
    s.readers = 0 ∧ s'.world.lib = s.world.lib := by
  obtain ⟨hall, rfl⟩ := step_destruct h
  refine ⟨List.countP_eq_zero.2 fun pc hpc => ?_, congrArg Handles.lib (destruct_handles _ onMain)⟩
  rw [outside_not_reading (List.all_eq_true.1 hall pc hpc)]
  exact Bool.false_ne_true

theorem Used.allDestroyed (hU : Used s) (h0 : s.readers = 0) : s.world.lib.AllDestroyed := by
  obtain ⟨l, hL, hheld, habsent⟩ := hU
  have hh := hL.handles
  have hr : s.readers = l.holders := hL.readers
  cases l with
  | absent => exact absurd rfl habsent
  | held n =>
    cases h0.symm.trans hr
    exact absurd rfl hheld
  | spent n c k =>
    have hlib : s.world.lib = ⟨5, [4, 2, 0, 1, 3]⟩ := congrArg Handles.lib hh
    rw [hlib]
    decide

theorem Unread.not_allDestroyed (hU : Unread s) : ¬ s.world.lib.AllDestroyed := by
  have hlib : s.world.lib = ⟨5, []⟩ := congrArg Handles.lib hU.leases.handles
  rw [hlib]
  decide

theorem unread_start {env : InitEnv} {ccnxName : String} {n : Nat}
    (h : leaseAfterInit env ccnxName = .held 0) : Unread (start env ccnxName n) := by
  refine ⟨h ▸ leases_start env ccnxName n, fun pc hpc => ?_⟩
  obtain ⟨-, rfl⟩ := List.mem_replicate.1 hpc
  rfl

theorem start_open (env : InitEnv) (ccnxName : String) (n : Nat) :
    nsFailed (start env ccnxName n).mCondition = false := by
  rw [Sys.mCondition, start, (World.init_keeps _ _ _).1]
  rfl

/-- When the destructor has finished, every object that `Init` obtained from libccn has been
destroyed if and only if `Init` failed, or it opened a stream whose first `Read` came before the
first close. -/
theorem allDestroyed_iff (K : FetchCodes) (env : InitEnv) (ccnxName : String) (n : Nat)
    (acts : List Act) (onMain : Bool) (s : Sys)
    (h : run (step K) (start env ccnxName n) (acts ++ [.destruct onMain]) = some s) :
    s.world.lib.AllDestroyed ↔
      env.connect < 0 ∨ env.nameFromUri ccnxName < 0 ∨
        env.fetchOpen ccnxName = true ∧ readsBeforeClose acts = true := by
  obtain ⟨s₁, h₁, hd⟩ := run_concat_some h
  obtain ⟨h0, hlib⟩ := destruct_unread hd
  rw [hlib]
  by_cases hno : env.connect < 0 ∨ env.nameFromUri ccnxName < 0 ∨ env.fetchOpen ccnxName = false
  · have hL := leases_start env ccnxName n
    rw [leaseAfterInit, if_pos hno] at hL
    obtain ⟨-, hkept⟩ := run_inv
      (I := fun s => Leases s .absent ∧ s.world.lib = (start env ccnxName n).world.lib)
      (fun _ _ _ hI hs => ⟨(hI.1.absent_next hs).1, (hI.1.absent_next hs).2.trans hI.2⟩)
      ⟨hL, rfl⟩ h₁
    rw [hkept, start_allDestroyed_iff]
    rcases hno with hc | hn | ho
    · simp [hc]
    · simp [hn]
    · simp [ho]
  · have hU := unread_start (n := n) (if_neg hno)
    have hend := run_unread hU (start_open env ccnxName n) h₁
    simp only [not_or, Bool.not_eq_false] at hno
    simp only [hno, false_or, true_and]
    split at hend
    · rename_i hr
      simp [hr, hend.allDestroyed h0]
    · rename_i hr
      simp [hr, hend.not_allDestroyed]

def readOnce : List Act := [.readCheck 0 [0] 1, .readSection 0 [.ended], .readStore 0,
  .readReturn 0]

theorem allDestroyed_readOnce :
    ∃ s, run (step fetchCodes) (start {} "ccnx:/a" 1) (readOnce ++ [.destruct true]) = some s ∧
      s.world.lib.AllDestroyed :=
  ⟨_, rfl, (allDestroyed_iff fetchCodes {} "ccnx:/a" 1 readOnce true _ rfl).2
    (.inr (.inr ⟨rfl, rfl⟩))⟩

/-- A transport that is closed and destroyed without a `Read`. -/
theorem handles_leaked :
    ¬ ∀ (K : FetchCodes) (env : InitEnv) (ccnxName : String) (n : Nat) (acts : List Act)
        (onMain : Bool) (s : Sys),
        run (step K) (start env ccnxName n) (acts ++ [.destruct onMain]) = some s →
        s.world.lib.AllDestroyed := by
  intro hP
  exact absurd (hP fetchCodes {} "ccnx:/a" 1 [.close 0 nsOk] true _ rfl) (by decide)

end Transport
