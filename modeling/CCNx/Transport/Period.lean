import CCNx.Transport.Handles

/-!
# Which Reads get content

The last `Read` to release the stream closes it, and nothing opens it again. `one_period`: so over
any run there is at most one `Read` that gets the stream while no other one holds it, and those that
overlap it, one after the other, are all that ever get content. A reader that waits for each of its
calls to return, as a copier does, has content from one call at most (`one_read`).
-/

set_option autoImplicit false

namespace Transport

open Xpcom Runs

/-- The first section of a `Read`, on a thread that may call it, gets the stream. -/
def Gets (s : Sys) : Act → Prop
  | .readCheck t _ _ => (s.caller t).isSome = true ∧ (readCheck s.world.tr).1.toOption.isSome = true
  | _ => False

/-- It does so while no other `Read` holds the stream. -/
def GetsAlone (s : Sys) (a : Act) : Prop := Gets s a ∧ s.readers = 0

instance (s : Sys) : DecidablePred (Gets s) := fun a =>
  match a with
  | .readCheck _ _ _ => inferInstanceAs (Decidable (_ ∧ _))
  | .readSection _ _ | .readStore _ | .readReturn _ | .closeWithStatus _ _ | .close _ _
  | .asyncWait _ _ _ _ _ | .notify _ | .openInputStream _ _ _ | .destruct _ =>
    inferInstanceAs (Decidable False)

instance (s : Sys) (a : Act) : Decidable (GetsAlone s a) := inferInstanceAs (Decidable (_ ∧ _))

/-- A `Read` begins only when no other one holds the stream. -/
def ReadsAlone (s : Sys) : Act → Prop
  | .readCheck _ _ _ => s.readers = 0
  | _ => True

instance (s : Sys) : DecidablePred (ReadsAlone s) := fun a =>
  match a with
  | .readCheck _ _ _ => inferInstanceAs (Decidable (_ = 0))
  | .readSection _ _ | .readStore _ | .readReturn _ | .closeWithStatus _ _ | .close _ _
  | .asyncWait _ _ _ _ _ | .notify _ | .openInputStream _ _ _ | .destruct _ =>
    inferInstanceAs (Decidable True)

/-- There is a stream to be had, and nobody holds it. -/
def Unheld (s : Sys) : Prop := s.world.tr.mCCNxStream.isSome = true ∧ s.readers = 0

instance : DecidablePred Unheld := fun _ => inferInstanceAs (Decidable (_ ∧ _))

section
variable {K : FetchCodes} {s s' : Sys} {a : Act} {l : Lease.State}

/-- The stream to be had is the one leased to nobody. -/
theorem Leases.unheld_iff (hL : Leases s l) : Unheld s ↔ l = .held 0 := by
  constructor
  · rintro ⟨hs, hr⟩
    obtain ⟨f, hf⟩ := Option.isSome_iff_exists.1 hs
    obtain ⟨-, n, rfl⟩ := hL.handles.held_of_stream (h := s.world.handles) hf
    have hn : s.readers = n := hL.readers
    rw [hr] at hn
    rw [← hn]
  · rintro rfl
    have hh : s.world.handles = _ := hL.handles
    simp only [World.handles, Handles.mk.injEq] at hh
    exact ⟨by simp [hh], hL.readers⟩

theorem GetsAlone.unheld (h : GetsAlone s a) : Unheld s := by
  obtain ⟨hg, hr⟩ := h
  cases a with
  | readCheck t buf count =>
    obtain ⟨-, hok⟩ := hg
    cases hc : readCheck s.world.tr with
    | mk res tr =>
      rw [hc] at hok
      cases res with
      | error rv => cases hok
      | ok f => exact ⟨by rw [(readCheck_ok hc).2.2.1]; rfl, hr⟩
  | _ => cases hg

/-- A `Read` that gets the stream holds it. -/
theorem Gets.reads (hg : Gets s a) (h : step K s a = some s') : s'.readers = s.readers + 1 := by
  cases a with
  | readCheck t buf count =>
    obtain ⟨pc, hpc, ⟨rv, hrv, -⟩ | ⟨f, -, -, -, rfl⟩⟩ := step_readCheck h
    · rw [Gets, hrv] at hg
      cases hg.2
    · obtain ⟨ht, ho⟩ := caller_eq_some.1 hpc
      exact Pool.countP_set_enter ht (outside_not_reading ho) rfl
  | _ => cases hg

end

/-- A `Read` that finds the stream unheld uses it up: it is never had by nobody again. -/
theorem getsAlone_le (K : FetchCodes) (env : InitEnv) (ccnxName : String) (n : Nat)
    (acts : List Act) : countSteps (step K) GetsAlone (start env ccnxName n) acts ≤
      if Unheld (start env ccnxName n) then 1 else 0 := by
  refine countSteps_le_of_inv (I := fun s => ∃ l, Leases s l) (fun s a s' ⟨l, hL⟩ h => ?_)
    (fun s a hC => hC.unheld) (fun s a s' _ h hC hU => ?_) (fun s a s' ⟨l, hL⟩ h hno hU => ?_)
    ⟨_, leases_start env ccnxName n⟩ acts
  · obtain ⟨l', hL', -⟩ := hL.next h
    exact ⟨l', hL'⟩
  · have := hC.1.reads h
    rw [hU.2] at this
    cases this
  · -- no step of a lease leads to a resource that is there and unused
    obtain ⟨l', hL', rfl | ⟨b, hb⟩⟩ := hL.next h
    · exact hno (hL.unheld_iff.2 (hL'.unheld_iff.1 hU))
    · exact (Lease.step_ne_unused hb).1 (hL'.unheld_iff.1 hU)

/-- In every run, at most one `Read` gets the stream while no other one holds it. -/
theorem one_period (K : FetchCodes) (env : InitEnv) (ccnxName : String) (n : Nat)
    (acts : List Act) : countSteps (step K) GetsAlone (start env ccnxName n) acts ≤ 1 := by
  have hle := getsAlone_le K env ccnxName n acts
  split at hle <;> omega

/-- In every run in which no `Read` begins while another one holds the stream, at most one gets it:
all others return at once, without content. -/
theorem one_read (K : FetchCodes) (env : InitEnv) (ccnxName : String) (n : Nat) (acts : List Act)
    (hC : EachStep (step K) ReadsAlone (start env ccnxName n) acts) :
    countSteps (step K) Gets (start env ccnxName n) acts ≤ 1 := by
  have hgets : countSteps (step K) Gets (start env ccnxName n) acts ≤
      countSteps (step K) GetsAlone (start env ccnxName n) acts :=
    countSteps_mono (fun s a hR hg => ⟨hg, by
      cases a with
      | readCheck t buf count => exact hR
      | _ => cases hg⟩) hC
  have hle := getsAlone_le K env ccnxName n acts
  split at hle <;> omega

/-- Three calls one after the other, of which the first has content. -/
def readThrice : List Act :=
  [.readCheck 0 [0, 0] 2, .readSection 0 [.data [7], .ended], .readStore 0, .readReturn 0,
    .readCheck 0 [0, 0] 2, .readCheck 0 [0, 0] 2]

theorem one_read_readThrice :
    countSteps (step fetchCodes) Gets (start {} "ccnx:/a" 1) readThrice ≤ 1 :=
  one_read fetchCodes {} "ccnx:/a" 1 readThrice (by decide)

end Transport
