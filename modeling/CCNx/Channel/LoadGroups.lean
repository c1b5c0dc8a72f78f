import CCNx.Channel.System

/-!
# Is the channel's load group balanced?

`OnStopRequest` removes the channel from its load group; no code adds it to one (`removed_unadded`).
`balanced_iff`: the calls are balanced exactly if there is no load group to be removed from whenever
an `OnStopRequest` comes to that point.
-/

set_option autoImplicit false

namespace Channel

open Xpcom Runs

variable {s s' : Sys} {a : Act}

/-- A call of a load group. -/
inductive GroupCall
  | addRequest (group : LoadGroup)
  | removeRequest (group : LoadGroup) (status : NsResult)
  deriving DecidableEq, Repr

/-- The calls that a step makes. `AsyncOpen` and `SetLoadGroup` make none. -/
def groupCalls (s : Sys) : Act → List GroupCall
  | .listenerReturns =>
    match s.stack with
    | .stop :: _ =>
      (s.channel.mLoadGroup.map fun g => .removeRequest g s.channel.mStatus).toList
    | _ => []
  | _ => []

/-- The groups that the channel is a member of after such calls. -/
def members (calls : List GroupCall) : List LoadGroup :=
  calls.foldl (fun groups call =>
    match call with
    | .addRequest g => g :: groups
    | .removeRequest g _ => groups.erase g) []

/-- The end of an `OnStopRequest`, or an `AsyncOpen` that fails. -/
def Leaves (s : Sys) : Act → Prop
  | .listenerReturns => s.stack.head? = some .stop
  | .asyncOpen _ _ env => env.started = false
  | _ => False

/-- The calls of a run from a new channel. -/
def calls (acts : List Act) : List GroupCall := outputs step groupCalls {} acts

structure Balanced (acts : List Act) : Prop where
  /-- A group is asked to remove the channel only while it is a member. -/
  removes : ∀ before g status after, calls acts = before ++ .removeRequest g status :: after →
    g ∈ members before
  /-- From the end of a load to the next `AsyncOpen`, the channel is a member of no group. -/
  left : ∀ pre a mid post s, acts = pre ++ a :: mid ++ post → run step {} pre = some s →
    Leaves s a → (∀ b ∈ mid, b.opens = false) → members (calls (pre ++ a :: mid)) = []

/-- An `OnStopRequest` whose listener returns finds no load group. -/
def NoGroupAtStop (s : Sys) : Act → Prop
  | .listenerReturns => s.stack.head? = some .stop → s.channel.mLoadGroup = none
  | _ => True

instance : DecidablePred (NoGroupAtStop s) := fun a =>
  match a with
  | .listenerReturns => inferInstanceAs (Decidable (_ → _))
  | .asyncOpen _ _ _ | .cancel _ _ | .suspend | .resume | .setLoadGroup _
  | .setNotificationCallbacks _ | .onStartRequest _ _ | .onDataAvailable _ _ _
  | .onStopRequest _ _ => inferInstanceAs (Decidable True)

/-! ## The calls of a step -/

/-- Only `RemoveRequest` is ever called. -/
theorem groupCalls_remove {call : GroupCall} (h : call ∈ groupCalls s a) :
    ∃ g status, call = .removeRequest g status := by
  unfold groupCalls at h
  split at h
  · split at h
    · cases hg : s.channel.mLoadGroup with
      | none =>
        rw [hg] at h
        cases h
      | some g =>
        rw [hg] at h
        exact ⟨g, _, List.mem_singleton.1 h⟩
    · cases h
  · cases h

theorem groupCalls_nil_iff : groupCalls s a = [] ↔ NoGroupAtStop s a := by
  cases a with
  | listenerReturns =>
    simp only [groupCalls, NoGroupAtStop]
    split
    · rename_i hst
      simp [hst]
    · rename_i hst
      refine iff_of_true rfl fun hstop => ?_
      obtain ⟨stack, he⟩ := List.head?_eq_some_iff.1 hstop
      exact absurd he (hst stack)
  | _ => exact iff_of_true rfl trivial

/-- Nothing is left to a channel that only removes itself. -/
theorem members_removes {calls : List GroupCall}
    (h : ∀ call ∈ calls, ∃ g status, call = .removeRequest g status) : members calls = [] := by
  unfold members
  induction calls with
  | nil => rfl
  | cons call calls ih =>
    obtain ⟨g, status, rfl⟩ := h call List.mem_cons_self
    exact ih fun c hc => h c (List.mem_cons_of_mem _ hc)

theorem members_calls {acts : List Act} {before after : List GroupCall}
    (h : calls acts = before ++ after) : members before = [] := by
  apply members_removes
  intro call hc
  have hmem : call ∈ calls acts := by
    rw [h]
    exact List.mem_append_left _ hc
  obtain ⟨s, a, hout⟩ := mem_outputs hmem
  exact groupCalls_remove hout

/-! ## Runs -/

/-- In every run of a new channel, the calls of load groups are balanced if and only if no
`OnStopRequest` finds a load group. -/
theorem balanced_iff (acts : List Act) (s : Sys) (h : run step {} acts = some s) :
    Balanced acts ↔ EachStep step NoGroupAtStop {} acts := by
  have hsilent : calls acts = [] ↔ EachStep step NoGroupAtStop {} acts :=
    (outputs_eq_nil_iff h).trans (eachStep_congr (fun _ _ _ _ => groupCalls_nil_iff) h)
  rw [← hsilent]
  constructor
  · intro hB
    cases hcalls : calls acts with
    | nil => rfl
    | cons call after =>
      have hmem : call ∈ calls acts := by
        rw [hcalls]
        exact List.mem_cons_self
      obtain ⟨s', a, hout⟩ := mem_outputs hmem
      obtain ⟨g, status, rfl⟩ := groupCalls_remove hout
      cases hB.removes [] g status after hcalls
  · intro hnil
    refine ⟨fun before g status after hcalls => ?_, fun pre a mid post s _ _ _ _ => ?_⟩
    · rw [hnil] at hcalls
      exact absurd hcalls.symm (by simp)
    · exact members_calls (List.append_nil _).symm

/-- The open fails for one group; then a load without a group runs to its end. -/
def groupTakenBack : List Act :=
  [.setLoadGroup (some 3), .asyncOpen (some 1) none { create := nsErrorFailure },
    .setLoadGroup none, .asyncOpen (some 1) none {}, .onStartRequest 0 none, .listenerReturns,
    .onStopRequest 0 nsOk, .listenerReturns]

theorem groupTakenBack_balanced : Balanced groupTakenBack :=
  (balanced_iff groupTakenBack _ rfl).2 (by decide)

/-- A load in a group: the group is asked to remove a channel that it was never asked to add. -/
theorem removed_unadded :
    ¬ ∀ (acts : List Act) (s : Sys), run step {} acts = some s → Balanced acts := by
  intro hP
  have hB := hP [.setLoadGroup (some 3), .asyncOpen (some 1) none {}, .onStartRequest 0 none,
    .listenerReturns, .onStopRequest 0 nsOk, .listenerReturns] _ rfl
  have hmember := hB.removes [] 3 nsOk [] (by decide)
  exact absurd hmember (by decide)

end Channel
