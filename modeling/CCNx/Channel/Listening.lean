import CCNx.Channel.System

/-!
# Does every pump keep its listener?

The channel has one `mListener` and no flag that it was opened (`mWasOpened` is commented out): an
`AsyncOpen` while a pump is at work replaces that pump's listener, or clears it when it fails, and
the end of an `OnStopRequest` clears the listener of an `AsyncOpen` made inside it
(`listener_cleared`). `ownListener_of_alone`: if no `AsyncOpen` comes at such a time, every pump
reports to its own listener until it has stopped.
-/

set_option autoImplicit false

namespace Channel

open Xpcom Runs

variable {s s' : Sys} {a : Act}

def Event.isData : Event → Bool
  | .data _ _ => true
  | _ => false

/-- The events of a pump in the given phase: one start, then its data, then one stop. -/
def InOrder : Phase → List Event → Prop
  | .fresh, es => es = []
  | .started, es => ∃ ds, es = .start :: ds ∧ ∀ e ∈ ds, e.isData = true
  | .stopped, es => ∃ ds st, es = .start :: (ds ++ [.stop st]) ∧ ∀ e ∈ ds, e.isData = true

/-- The calls of a listener that the pump `i` caused. -/
def Sys.calls (s : Sys) (i : PumpId) : List Forward := (s.log.filter (·.1 == i)).map (·.2)

/-- Every pump reports to the listener of the `AsyncOpen` that started it. -/
structure OwnListener (s : Sys) : Prop where
  /-- No event has been forwarded through a null member. -/
  crashed : s.crashed = false
  live : ∀ (i : PumpId) p, s.pumps[i]? = some p → p.live = true →
    ∃ l, s.channel.mListener = some l ∧ p.listener = some l
  heard : ∀ (i : PumpId) p, s.pumps[i]? = some p →
    (∀ call ∈ s.calls i, some call.listener = p.listener) ∧
      InOrder p.phase ((s.calls i).map Forward.event)

/-- An `AsyncOpen` comes when no pump is at work, and one that starts a pump has a listener and is
not made inside an `OnStopRequest`. -/
def OpensAlone (s : Sys) : Act → Prop
  | .asyncOpen listener _ env =>
    (∀ p ∈ s.pumps, p.live = false) ∧
      (env.started = true → listener ≠ none ∧ Frame.stop ∉ s.stack)
  | _ => True

instance (s : Sys) : DecidablePred (OpensAlone s) := fun a =>
  match a with
  | .asyncOpen _ _ _ => inferInstanceAs (Decidable (_ ∧ (_ → _ ∧ _)))
  | .cancel _ _ | .suspend | .resume | .setLoadGroup _ | .setNotificationCallbacks _
  | .onStartRequest _ _ | .onDataAvailable _ _ _ | .onStopRequest _ _ | .listenerReturns =>
    inferInstanceAs (Decidable True)

/-! ## One load at a time -/

/-- A pump at work is `mPump`, and its listener is `mListener`. -/
structure OneLoad (s : Sys) : Prop where
  crashed : s.crashed = false
  owner : ∀ (i : PumpId) l ph, s.history[i]? = some (l, ph) → ph ≠ .stopped →
    s.channel.mPump = some i ∧ s.channel.mListener = l ∧ l ≠ none ∧ Frame.stop ∉ s.stack

theorem OneLoad.unique (hO : OneLoad s) {i j : PumpId} {l m : Option Listener} {ph qh : Phase}
    (hi : s.history[i]? = some (l, ph)) (hph : ph ≠ .stopped) (hj : s.history[j]? = some (m, qh))
    (hqh : qh ≠ .stopped) : i = j := by
  have h1 := (hO.owner i l ph hi hph).1
  have h2 := (hO.owner j m qh hj hqh).1
  rw [h1] at h2
  exact Option.some.inj h2

/-- The event of a pump is forwarded to the listener it was started for. -/
theorem OneLoad.forwards (hO : OneLoad s) {i : PumpId} {e : Event}
    (ha : a.forwards? s.channel = some (i, e)) (h : step s a = some s') :
    ∃ l ph ph', s.history[i]? = some (some l, ph) ∧ ph.next e = some ph' ∧
      s'.history = s.history.set i (some l, ph') ∧ Forwards s i l e s' := by
  obtain ⟨l, ph, ph', hist, hnext, hset⟩ := event_history ha h
  obtain ⟨hpump, hlistener, hl, -⟩ := hO.owner i l ph hist (next_live hnext)
  obtain ⟨l, rfl⟩ := Option.ne_none_iff_exists'.1 hl
  have hF := step_forwards ha hlistener (by rw [hpump]; simp) h
  exact ⟨l, ph, ph', hist, hnext, hset, hF⟩

/-- A new pump comes when the old ones have stopped. -/
theorem OneLoad.opened (hO : OneLoad s) {listener : Option Listener} {ctxt : Option Context}
    {env : OpenEnv} (hC : OpensAlone s (.asyncOpen listener ctxt env))
    (h : step s (.asyncOpen listener ctxt env) = some s') : OneLoad s' := by
  obtain ⟨hdone, hopen⟩ := hC
  have hold : ∀ {i : PumpId} {l ph}, s.history[i]? = some (l, ph) → ph = .stopped := by
    intro i l ph hi
    obtain ⟨p, hp, -, rfl⟩ := mem_history hi
    have := hdone p (List.mem_of_getElem? hp)
    simpa [Pump.live] using this
  have hs' := step_asyncOpen h
  cases hst : env.started with
  | true =>
    obtain ⟨hl, hstack⟩ := hopen hst
    rw [hst, if_pos rfl] at hs'
    subst hs'
    refine ⟨hO.crashed, fun i l ph hi hph => ?_⟩
    rw [Sys.history, List.map_append] at hi
    rcases Pool.getElem?_concat_cases hi with hi | ⟨rfl, he⟩
    · exact absurd (hold hi) hph
    · cases he
      exact ⟨by simp, rfl, hl, hstack⟩
  | false =>
    rw [hst, if_neg Bool.false_ne_true] at hs'
    subst hs'
    exact ⟨hO.crashed, fun i l ph hi hph => absurd (hold hi) hph⟩

/-- A pump that still delivers is the one in `mPump`. -/
theorem OneLoad.forwarded (hO : OneLoad s) {i : PumpId} {e : Event}
    (ha : a.forwards? s.channel = some (i, e)) (h : step s a = some s') : OneLoad s' := by
  obtain ⟨l, ph, ph', hist, hnext, hset, hF⟩ := hO.forwards ha h
  have howner := hO.owner i _ ph hist (next_live hnext)
  refine ⟨hF.crashed, fun j m qh hj hqh => ?_⟩
  rw [hset] at hj
  rcases Pool.getElem?_set_cases hj with ⟨rfl, he⟩ | ⟨hne, hj⟩
  · cases he
    have hstop : ∀ st, e ≠ .stop st := fun st hst => hqh ((next_stopped hnext).2 ⟨st, hst⟩)
    obtain ⟨hpump, -, p, hstack⟩ := hF.frame hstop
    refine ⟨hpump.trans howner.1, hF.listener, Option.some_ne_none _, ?_⟩
    rw [hstack]
    simpa using howner.2.2.2
  · exact absurd (hO.unique hj hqh hist (next_live hnext)) hne

theorem OneLoad.next (hO : OneLoad s) (hC : OpensAlone s a) (h : step s a = some s') :
    OneLoad s' := by
  cases ho : a.opens with
  | true =>
    obtain ⟨listener, ctxt, env, rfl⟩ := eq_asyncOpen ho
    exact hO.opened hC h
  | false =>
    cases ha : a.forwards? s.channel with
    | some ie =>
      obtain ⟨i, e⟩ := ie
      exact hO.forwarded ha h
    | none =>
      rcases step_quiet ha ho h with hQ | ⟨stack, hst, rfl⟩
      · refine ⟨hQ.crashed, fun i l ph hi hph => ?_⟩
        rw [hQ.history] at hi
        obtain ⟨h1, h2, h3, h4⟩ := hO.owner i l ph hi hph
        exact ⟨hQ.mPump.trans h1, hQ.mListener.trans h2, h3, fun hmem => h4 (hQ.stack _ hmem)⟩
      · -- an `OnStopRequest` ends: nothing is at work
        refine ⟨hO.crashed, fun i l ph hi hph => ?_⟩
        exact absurd (by rw [hst]; exact List.mem_cons_self) (hO.owner i l ph hi hph).2.2.2

/-! ## What the listeners hear -/

/-- The calls that a pump caused went to its listener, and their events lead to its phase. -/
structure Heard (s : Sys) : Prop where
  known : ∀ call ∈ s.log, call.1 < s.history.length
  calls : ∀ (i : PumpId) l ph, s.history[i]? = some (l, ph) →
    (∀ call ∈ s.calls i, some call.listener = l) ∧
      run Phase.next .fresh ((s.calls i).map Forward.event) = some ph

theorem calls_append {i : PumpId} {call : Forward} (h : s'.log = s.log ++ [(i, call)])
    (j : PumpId) :
    s'.calls j = s.calls j ++ if i = j then [call] else [] := by
  rw [Sys.calls, h, List.filter_append, List.map_append, Sys.calls]
  by_cases hij : i = j
  · simp [hij]
  · simp [hij]

theorem Heard.of_same (hH : Heard s) (hlog : s'.log = s.log) (hist : s'.history = s.history) :
    Heard s' := by
  have hcalls : ∀ i, s'.calls i = s.calls i := fun i => by rw [Sys.calls, hlog, Sys.calls]
  refine ⟨fun call hc => ?_, fun i l ph hi => ?_⟩
  · rw [hist]
    exact hH.known call (hlog ▸ hc)
  · rw [hcalls]
    exact hH.calls i l ph (hist ▸ hi)

/-- A new pump has caused no call. -/
theorem Heard.opened (hH : Heard s) {l : Option Listener} (hlog : s'.log = s.log)
    (hist : s'.history = s.history ++ [(l, .fresh)]) : Heard s' := by
  have hcalls : ∀ i, s'.calls i = s.calls i := fun i => by rw [Sys.calls, hlog, Sys.calls]
  refine ⟨fun call hc => ?_, fun i m ph hi => ?_⟩
  · rw [hist, List.length_append]
    exact Nat.lt_add_right _ (hH.known call (hlog ▸ hc))
  · rw [hist] at hi
    rw [hcalls]
    rcases Pool.getElem?_concat_cases hi with hi | ⟨rfl, he⟩
    · exact hH.calls i m ph hi
    · cases he
      have hnone : s.log.filter (·.1 == s.history.length) = [] :=
        List.filter_eq_nil_iff.2 fun call hc => by
          simpa using Nat.ne_of_lt (hH.known call hc)
      rw [Sys.calls, hnone]
      exact ⟨nofun, rfl⟩

theorem Heard.next (hO : OneLoad s) (hH : Heard s) (h : step s a = some s') : Heard s' := by
  cases ho : a.opens with
  | true =>
    obtain ⟨listener, ctxt, env, rfl⟩ := eq_asyncOpen ho
    have hs' := step_asyncOpen h
    split at hs'
    · subst hs'
      exact hH.opened rfl (by rw [Sys.history, List.map_append]; rfl)
    · subst hs'
      exact hH.of_same rfl rfl
  | false =>
    cases ha : a.forwards? s.channel with
    | some ie =>
      obtain ⟨i, e⟩ := ie
      obtain ⟨l, ph, ph', hist, hnext, hset, hF⟩ := hO.forwards ha h
      have hcalls := calls_append hF.log
      refine ⟨fun call hc => ?_, fun j m qh hj => ?_⟩
      · rw [hF.log] at hc
        rw [hset, List.length_set]
        rcases List.mem_append.1 hc with hc | hc
        · exact hH.known call hc
        · rw [List.mem_singleton.1 hc]
          exact (List.getElem?_eq_some_iff.1 hist).1
      · rw [hset] at hj
        rcases Pool.getElem?_set_cases hj with ⟨rfl, he⟩ | ⟨hne, hj⟩
        · cases he
          obtain ⟨hown, horder⟩ := hH.calls j _ _ hist
          rw [hcalls, if_pos rfl, List.map_append]
          refine ⟨fun call hc => ?_, ?_⟩
          · rcases List.mem_append.1 hc with hc | hc
            · exact hown call hc
            · rw [List.mem_singleton.1 hc]
          · exact run_trans horder (by simp [run_cons, hnext])
        · rw [hcalls, if_neg (Ne.symm hne), List.append_nil]
          exact hH.calls j m qh hj
    | none =>
      rcases step_quiet ha ho h with hQ | ⟨stack, -, rfl⟩
      · exact hH.of_same hQ.log hQ.history
      · exact hH.of_same rfl rfl

/-! ## The order of a pump's events -/

theorem run_started {es : List Event} {ph : Phase} (h : run Phase.next .started es = some ph) :
    (ph = .started ∧ ∀ e ∈ es, e.isData = true) ∨
      (ph = .stopped ∧ ∃ ds st, es = ds ++ [.stop st] ∧ ∀ e ∈ ds, e.isData = true) := by
  induction es with
  | nil =>
    cases h
    exact .inl ⟨rfl, nofun⟩
  | cons e es ih =>
    obtain ⟨ph₁, h₁, h₂⟩ := run_cons_some h
    cases e with
    | start => cases h₁
    | data offset count =>
      cases h₁
      rcases ih h₂ with ⟨rfl, hall⟩ | ⟨rfl, ds, st, rfl, hall⟩
      · exact .inl ⟨rfl, List.forall_mem_cons.2 ⟨rfl, hall⟩⟩
      · exact .inr ⟨rfl, .data offset count :: ds, st, rfl, List.forall_mem_cons.2 ⟨rfl, hall⟩⟩
    | stop st =>
      cases h₁
      -- nothing comes after a stop
      cases es with
      | nil =>
        cases h₂
        exact .inr ⟨rfl, [], st, rfl, nofun⟩
      | cons e es =>
        obtain ⟨ph₂, h₃, -⟩ := run_cons_some h₂
        exact absurd rfl (next_live h₃)

theorem run_inOrder {es : List Event} {ph : Phase} (h : run Phase.next .fresh es = some ph) :
    InOrder ph es := by
  cases es with
  | nil => cases h; rfl
  | cons e es =>
    obtain ⟨ph₁, h₁, h₂⟩ := run_cons_some h
    cases e with
    | start =>
      cases h₁
      rcases run_started h₂ with ⟨rfl, hall⟩ | ⟨rfl, ds, st, rfl, hall⟩
      · exact ⟨es, rfl, hall⟩
      · exact ⟨ds, st, rfl, hall⟩
    | data offset count => cases h₁
    | stop st => cases h₁

/-! ## Runs -/

theorem OneLoad.ownListener (hO : OneLoad s) (hH : Heard s) : OwnListener s := by
  have hist : ∀ {i : PumpId} {p : Pump}, s.pumps[i]? = some p →
      s.history[i]? = some (p.listener, p.phase) := fun hp => by simp [Sys.history, hp]
  refine ⟨hO.crashed, fun i p hp hlive => ?_, fun i p hp => ?_⟩
  · obtain ⟨-, hl, hne, -⟩ := hO.owner i _ _ (hist hp) (by simpa [Pump.live] using hlive)
    obtain ⟨l, he⟩ := Option.ne_none_iff_exists'.1 hne
    exact ⟨l, hl.trans he, he⟩
  · obtain ⟨hown, horder⟩ := hH.calls i _ _ (hist hp)
    exact ⟨hown, run_inOrder horder⟩

/-- In every run in which each `AsyncOpen` comes when no pump is at work, with a listener and not
inside an `OnStopRequest` if it starts one, every pump reports to its own listener in every
state. -/
theorem ownListener_of_alone (acts : List Act) (hC : EachStep step OpensAlone {} acts) :
    EachState step OwnListener {} acts := by
  have hI : EachState step (fun s => OneLoad s ∧ Heard s) {} acts :=
    eachState_of_inv (fun s a s' hI hC hs => ⟨hI.1.next hC hs, hI.2.next hI.1 hs⟩)
      ⟨⟨rfl, fun i l ph hi => by simp [Sys.history] at hi⟩,
        ⟨nofun, fun i l ph hi => by simp [Sys.history] at hi⟩⟩ hC
  exact hI.mono fun s hs => hs.1.ownListener hs.2

/-- Two loads, one after the other. -/
def twoLoads : List Act :=
  [.asyncOpen (some 1) none {}, .onStartRequest 0 none, .listenerReturns, .onDataAvailable 0 0 4,
    .listenerReturns, .onStopRequest 0 nsOk, .listenerReturns, .asyncOpen (some 2) none {},
    .onStartRequest 1 none, .listenerReturns]

theorem twoLoads_ownListener : EachState step OwnListener {} twoLoads :=
  ownListener_of_alone twoLoads (by decide)

/-- A listener opens the channel again from inside its `OnStopRequest`: the new pump's first event
goes through a null `mListener`. -/
theorem listener_cleared :
    ¬ ∀ (acts : List Act) (s : Sys), run step {} acts = some s → OwnListener s := by
  intro hP
  have hO := hP [.asyncOpen (some 1) none {}, .onStartRequest 0 none, .listenerReturns,
    .onStopRequest 0 nsOk, .asyncOpen (some 2) none {}, .listenerReturns, .onStartRequest 1 none]
    _ rfl
  exact absurd hO.crashed (by decide)

end Channel
