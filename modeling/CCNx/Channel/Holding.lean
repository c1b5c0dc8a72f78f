import CCNx.Channel.Listening

/-!
# What a channel holds on to

`mPump`, `mListener` and `mListenerContext` keep other objects alive. `holds_while_working`: in no
run does the channel hold one of them without a pump at work or an `OnStopRequest` under way, and
the pump it holds is at work. With one load at a time, `IsPending` says exactly whether there is
such a pump.
-/

set_option autoImplicit false

namespace Channel

open Xpcom Runs

/-- Some pump has not delivered `OnStopRequest`. -/
def Sys.working (s : Sys) : Bool := s.pumps.any Pump.live

/-- The channel refers to a pump, a listener or its context. -/
def NsCCNxChannel.holds (c : NsCCNxChannel) : Bool :=
  c.mPump.isSome || c.mListener.isSome || c.mListenerContext.isSome

/-- What the channel holds on to, unless a call has gone through a null member. -/
structure HoldsWhileWorking (s : Sys) : Prop where
  pump : ∀ i, s.channel.mPump = some i → ∃ p, s.pumps[i]? = some p ∧ p.live = true
  holds : s.channel.holds = true → s.working = true ∨ Frame.stop ∈ s.stack

section
variable {s s' : Sys} {a : Act}

theorem working_iff :
    s.working = true ↔ ∃ (i : PumpId) (l : Option Listener) (ph : Phase),
      s.history[i]? = some (l, ph) ∧ ph ≠ .stopped := by
  simp only [Sys.working, List.any_eq_true]
  constructor
  · rintro ⟨p, hp, hlive⟩
    obtain ⟨i, hi⟩ := List.mem_iff_getElem?.1 hp
    exact ⟨i, p.listener, p.phase, by simp [Sys.history, hi], by simpa [Pump.live] using hlive⟩
  · rintro ⟨i, l, ph, hi, hne⟩
    obtain ⟨p, hp, -, rfl⟩ := mem_history hi
    exact ⟨p, List.mem_of_getElem? hp, by simpa [Pump.live] using hne⟩

theorem live_iff {i : PumpId} :
    (∃ p, s.pumps[i]? = some p ∧ p.live = true) ↔
      ∃ l ph, s.history[i]? = some (l, ph) ∧ ph ≠ .stopped := by
  constructor
  · rintro ⟨p, hp, hlive⟩
    exact ⟨p.listener, p.phase, by simp [Sys.history, hp], by simpa [Pump.live] using hlive⟩
  · rintro ⟨l, ph, hi, hne⟩
    obtain ⟨p, hp, -, rfl⟩ := mem_history hi
    exact ⟨p, hp, by simpa [Pump.live] using hne⟩

theorem onStartRequest_keeps {c c' : NsCCNxChannel} {sniffed : Option String} {call : Forward}
    (h : c.onStartRequest sniffed = some (call, c')) :
    c'.mPump = c.mPump ∧ c'.holds = c.holds := by
  unfold NsCCNxChannel.onStartRequest at h
  dsimp only at h
  split at h
  · cases h
  · obtain ⟨l, -, he⟩ := Option.map_eq_some_iff.1 h
    cases he
    split <;> exact ⟨rfl, rfl⟩

/-- An event other than a stop leaves every pump at work that was. -/
theorem HoldsWhileWorking.event (hH : HoldsWhileWorking s) {i : PumpId} {e : Event}
    (ha : a.forwards? s.channel = some (i, e)) (hne : ∀ st, e ≠ .stop st)
    (h : step s a = some s') (hpump : s'.channel.mPump = s.channel.mPump)
    (hholds : s'.channel.holds = s.channel.holds) (hstack : ∀ f ∈ s.stack, f ∈ s'.stack) :
    HoldsWhileWorking s' := by
  obtain ⟨l, ph, ph', hl, hnext, hist⟩ := event_history ha h
  have hph' : ph' ≠ .stopped := fun hs => by
    obtain ⟨st, hst⟩ := (next_stopped hnext).1 hs
    exact hne st hst
  have hkeep : ∀ j : PumpId, (∃ m qh, s.history[j]? = some (m, qh) ∧ qh ≠ .stopped) →
      ∃ m qh, s'.history[j]? = some (m, qh) ∧ qh ≠ .stopped := by
    rintro j ⟨m, qh, hj, hqh⟩
    rw [hist]
    by_cases hij : i = j
    · subst hij
      exact ⟨l, ph', Pool.getElem?_set_same hl, hph'⟩
    · exact ⟨m, qh, by rwa [List.getElem?_set_ne hij], hqh⟩
  refine ⟨fun j hj => live_iff.2 (hkeep j (live_iff.1 (hH.pump j (hpump ▸ hj)))), fun hh => ?_⟩
  rcases hH.holds (hholds ▸ hh) with hw | hst
  · obtain ⟨j, m, qh, hj⟩ := working_iff.1 hw
    obtain ⟨m', qh', hj'⟩ := hkeep j ⟨m, qh, hj⟩
    exact .inl (working_iff.2 ⟨j, m', qh', hj'⟩)
  · exact .inr (hstack _ hst)

/-- An `AsyncOpen` starts a pump or lets go of everything. -/
theorem holdsWhileWorking_opened {listener : Option Listener} {ctxt : Option Context}
    {env : OpenEnv} (h : step s (.asyncOpen listener ctxt env) = some s') :
    HoldsWhileWorking s' := by
  have hs' := step_asyncOpen h
  split at hs' <;> subst hs'
  · refine ⟨fun i hi => ?_, fun _ => .inl ?_⟩
    · cases hi
      exact ⟨{ listener }, List.getElem?_concat_length .., rfl⟩
    · simp [Sys.working, Pump.live]
  · refine ⟨fun i hi => ?_, fun hh => ?_⟩
    · cases hi
    · cases hh

/-- The other steps leave the pumps at work and the members alone, until the call of a listener's
`OnStopRequest` is over. -/
theorem step_keeps (hf : a.forwards? s.channel = none) (ho : a.opens = false)
    (h : step s a = some s') :
    s'.history = s.history ∧ s'.channel.mPump = s.channel.mPump ∧
      (s'.channel.holds = s.channel.holds ∧ (Frame.stop ∈ s.stack → Frame.stop ∈ s'.stack) ∨
        s'.channel.mListener = none ∧ s'.channel.mListenerContext = none) := by
  rcases step_quiet hf ho h with hQ | ⟨stack, -, rfl⟩
  · refine ⟨hQ.history, hQ.mPump, ?_⟩
    have hcr := not_crashed h
    unfold step at h
    rw [if_neg (by simp [hcr])] at h
    cases a with
    | asyncOpen listener ctxt env => cases ho
    | onStartRequest j sniffed => cases hf
    | onDataAvailable j offset count => cases hf
    | onStopRequest j status => cases hf
    | cancel status transport => cases h; exact .inl ⟨rfl, id⟩
    | suspend => cases h; exact .inl ⟨rfl, id⟩
    | resume => cases h; exact .inl ⟨rfl, id⟩
    | setLoadGroup group => cases h; exact .inl ⟨rfl, id⟩
    | setNotificationCallbacks callbacks => cases h; exact .inl ⟨rfl, id⟩
    | listenerReturns =>
      dsimp only at h
      split at h
      · cases h
      · rename_i stack hst
        cases h
        exact .inl ⟨rfl, fun hm => by simpa [hst] using hm⟩
      · rename_i i stack hst
        cases h
        exact .inl ⟨rfl, fun hm => by simpa [hst] using hm⟩
      · cases h
        exact .inr ⟨rfl, rfl⟩
  · exact ⟨rfl, rfl, .inr ⟨rfl, rfl⟩⟩

theorem HoldsWhileWorking.rest (hH : HoldsWhileWorking s) (hf : a.forwards? s.channel = none)
    (ho : a.opens = false) (h : step s a = some s') : HoldsWhileWorking s' := by
  obtain ⟨hist, hpump, hkeep⟩ := step_keeps hf ho h
  have hworking : s.working = true → s'.working = true := by
    rw [working_iff, working_iff, hist]
    exact id
  have hp : ∀ i, s'.channel.mPump = some i → ∃ p, s'.pumps[i]? = some p ∧ p.live = true := by
    intro i hi
    rw [live_iff, hist, ← live_iff]
    exact hH.pump i (hpump ▸ hi)
  refine ⟨hp, fun hh => ?_⟩
  rcases hkeep with ⟨hholds, hstop⟩ | ⟨hl, hc⟩
  · exact (hH.holds (hholds ▸ hh)).imp hworking hstop
  · -- the pump alone is left, and it is at work
    have hsome : s'.channel.mPump.isSome = true := by
      simpa [NsCCNxChannel.holds, hl, hc] using hh
    obtain ⟨i, hi⟩ := Option.isSome_iff_exists.1 hsome
    obtain ⟨p, hpi, hlive⟩ := hp i hi
    exact .inl (List.any_eq_true.2 ⟨p, List.mem_of_getElem? hpi, hlive⟩)

theorem HoldsWhileWorking.next (hH : HoldsWhileWorking s) (h : step s a = some s')
    (hcr : s'.crashed = false) : HoldsWhileWorking s' := by
  cases a with
  | asyncOpen listener ctxt env => exact holdsWhileWorking_opened h
  | onStartRequest i sniffed =>
    obtain ⟨-, ⟨-, rfl⟩ | ⟨call, channel, hsome, rfl⟩⟩ := step_onStartRequest h
    · cases hcr
    · obtain ⟨hpump, hholds⟩ := onStartRequest_keeps hsome
      exact hH.event rfl (fun st he => by cases he) h hpump hholds
        fun f hf => List.mem_cons_of_mem _ hf
  | onDataAvailable i offset count =>
    obtain ⟨-, ⟨-, rfl⟩ | ⟨l, -, rfl⟩⟩ := step_onDataAvailable h
    · cases hcr
    · exact hH.event rfl (fun st he => by cases he) h rfl rfl
        fun f hf => List.mem_cons_of_mem _ hf
  | onStopRequest i status =>
    obtain ⟨-, ⟨-, rfl⟩ | ⟨l, -, rfl⟩⟩ := step_onStopRequest h
    · cases hcr
    · refine ⟨fun j hj => ?_, fun _ => .inr List.mem_cons_self⟩
      cases hj
  | _ => exact hH.rest rfl rfl h

/-- Unless a call has gone through a null member, the channel holds no pump that has stopped, and
holds nothing at all once every pump has stopped and no `OnStopRequest` is under way: in every run,
whatever the listeners and the client do in between. -/
theorem holds_while_working (acts : List Act) (h : run step {} acts = some s)
    (hcr : s.crashed = false) : HoldsWhileWorking s := by
  have hI : s.crashed = false → HoldsWhileWorking s := by
    refine run_inv (I := fun s => s.crashed = false → HoldsWhileWorking s) ?_ ?_ h
    · exact fun s a s' hI hs hcr => (hI (not_crashed hs)).next hs hcr
    · refine fun _ => ⟨fun i hi => ?_, fun hh => ?_⟩
      · cases hi
      · cases hh
  exact hI hcr

end

/-- The client opens the channel a second time while the first pump is at work, and the first pump
stops: its `OnStopRequest` takes the second pump and the second listener with it. -/
def stoppedByFirst : List Act :=
  [.asyncOpen (some 1) none {}, .onStartRequest 0 none, .listenerReturns,
    .asyncOpen (some 2) none {}, .onStopRequest 0 nsOk, .listenerReturns]

theorem holds_while_working_stoppedByFirst :
    ∃ s, run step {} stoppedByFirst = some s ∧ s.working = true ∧ s.channel.holds = false ∧
      HoldsWhileWorking s :=
  ⟨_, rfl, by decide, by decide, holds_while_working stoppedByFirst rfl (by decide)⟩

/-! ## One load at a time -/

/-- In every run in which each `AsyncOpen` comes when no pump is at work, with a listener and not
inside an `OnStopRequest` if it starts one, `IsPending` says in every state whether a pump is at
work. -/
theorem pending_while_working (acts : List Act) (hC : EachStep step OpensAlone {} acts) :
    EachState step (fun s => s.channel.isPending = s.working) {} acts := by
  have hI : EachState step (fun s => OneLoad s ∧ HoldsWhileWorking s) {} acts := by
    refine eachState_of_inv (fun s a s' hI hC hs => ?_) ⟨⟨rfl, ?_⟩, ⟨?_, ?_⟩⟩ hC
    · have hO := hI.1.next hC hs
      exact ⟨hO, hI.2.next hs hO.crashed⟩
    · exact fun i l ph hi => by simp [Sys.history] at hi
    · exact fun i hi => by cases hi
    · exact fun hh => by cases hh
  refine hI.mono fun s hs => Bool.eq_iff_iff.2 ⟨fun hp => ?_, fun hw => ?_⟩
  all_goals obtain ⟨hO, hH⟩ := hs
  · obtain ⟨i, hi⟩ := Option.isSome_iff_exists.1 hp
    obtain ⟨p, hpi, hlive⟩ := hH.pump i hi
    exact List.any_eq_true.2 ⟨p, List.mem_of_getElem? hpi, hlive⟩
  · obtain ⟨i, l, ph, hi, hph⟩ := working_iff.1 hw
    rw [NsCCNxChannel.isPending, (hO.owner i l ph hi hph).1]
    rfl

theorem pending_while_working_twoLoads :
    EachState step (fun s => s.channel.isPending = s.working) {} twoLoads :=
  pending_while_working twoLoads (by decide)

end Channel
