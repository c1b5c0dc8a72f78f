import CCNx.Channel.Defs
import CCNx.Lib.Pool
import CCNx.Lib.Runs

/-!
# A channel with its pumps, its client and its listeners

The pumps deliver `OnStartRequest`, `OnDataAvailable` any number of times, and `OnStopRequest`. A
listener that is being called is a frame on a stack: until it returns, it, the client and the other
pumps may go on calling the channel. A pump is asked for nothing but that order, so runs in which it
does not hold its events back while it is suspended are here too.
-/

set_option autoImplicit false

namespace Channel

open Xpcom

/-- Where a pump is in its sequence of events. -/
inductive Phase
  | fresh
  | started
  | stopped
  deriving DecidableEq, Repr

/-- The order of a pump's events. -/
def Phase.next : Phase → Event → Option Phase
  | .fresh, .start => some .started
  | .started, .data _ _ => some .started
  | .started, .stop _ => some .stopped
  | _, _ => none

theorem next_live {ph ph' : Phase} {e : Event} (h : ph.next e = some ph') : ph ≠ .stopped := by
  rintro rfl
  cases e <;> cases h

/-- Only a stop takes a pump to its last phase. -/
theorem next_stopped {ph ph' : Phase} {e : Event} (h : ph.next e = some ph') :
    ph' = .stopped ↔ ∃ st, e = .stop st := by
  cases ph <;> cases e <;> cases h <;> simp

structure Pump where
  /-- History: the listener of the `AsyncOpen` that started it. -/
  listener : Option Listener
  phase : Phase := .fresh
  suspends : Nat := 0
  deriving DecidableEq, Repr

namespace Pump

/-- Has not delivered `OnStopRequest`. -/
def live (p : Pump) : Bool := p.phase != .stopped

/-- `nsInputStreamPump::Suspend`, which an idle pump refuses. -/
def suspend (p : Pump) : Pump := if p.live then { p with suspends := p.suspends + 1 } else p

/-- `nsInputStreamPump::Resume`. -/
def resume (p : Pump) : Pump := if p.live then { p with suspends := p.suspends - 1 } else p

end Pump

/-- A handler whose listener has not returned: `OnStopRequest`, or one of the other two with the
pump that its `ScopedRequestSuspender` has to resume. -/
inductive Frame
  | scoped (suspended : Option PumpId)
  | stop
  deriving DecidableEq, Repr

structure Sys where
  channel : NsCCNxChannel := {}
  pumps : List Pump := []
  stack : List Frame := []
  /-- History: the calls of listeners, each with the pump that delivered the event. -/
  log : List (PumpId × Forward) := []
  /-- A call went through a null member. -/
  crashed : Bool := false
  deriving DecidableEq, Repr

inductive Act
  | asyncOpen (listener : Option Listener) (ctxt : Option Context) (env : OpenEnv)
  | cancel (status : NsResult) (transport : NsResult)
  | suspend
  | resume
  | setLoadGroup (group : Option LoadGroup)
  | setNotificationCallbacks (callbacks : Option Callbacks)
  | onStartRequest (pump : PumpId) (sniffed : Option String)
  | onDataAvailable (pump : PumpId) (offset count : Nat)
  | onStopRequest (pump : PumpId) (status : NsResult)
  /-- The listener called last returns. -/
  | listenerReturns

namespace Sys

/-- `SUSPEND_PUMP_FOR_SCOPE`: the frame to push, and the pumps. -/
def suspendPumpForScope (s : Sys) : Frame × List Pump :=
  match s.channel.mPump with
  | none => (.scoped none, s.pumps)
  | some i =>
    if (s.pumps[i]?).any Pump.live then (.scoped (some i), s.pumps.modify i Pump.suspend)
    else (.scoped none, s.pumps)

def crash (s : Sys) : Sys := { s with crashed := true }

/-- The pump `i` is in phase `ph`. -/
def inPhase (s : Sys) (i : PumpId) (ph : Phase) : Bool := (s.pumps[i]?).any (·.phase == ph)

/-- The pump `i` goes to phase `ph`. -/
def toPhase (s : Sys) (i : PumpId) (ph : Phase) : Sys :=
  { s with pumps := s.pumps.modify i fun p => { p with phase := ph } }

end Sys

def step (s : Sys) (a : Act) : Option Sys :=
  if s.crashed then none
  else
    match a with
    | .asyncOpen listener ctxt env =>
      let (rv, channel) := s.channel.asyncOpen listener ctxt env s.pumps.length
      some { s with channel, pumps := if nsFailed rv then s.pumps else s.pumps ++ [{ listener }] }
    | .cancel status transport => some { s with channel := (s.channel.cancel status transport).2 }
    | .suspend =>
      some { s with pumps := match s.channel.mPump with
        | none => s.pumps
        | some i => s.pumps.modify i Pump.suspend }
    | .resume =>
      some { s with pumps := match s.channel.mPump with
        | none => s.pumps
        | some i => s.pumps.modify i Pump.resume }
    | .setLoadGroup group => some { s with channel := s.channel.setLoadGroup group }
    | .setNotificationCallbacks callbacks =>
      some { s with channel := s.channel.setNotificationCallbacks callbacks }
    | .onStartRequest i sniffed =>
      if s.inPhase i .fresh then
        let s := s.toPhase i .started
        match s.channel.onStartRequest sniffed with
        | none => some s.crash
        | some (call, channel) =>
          let (frame, pumps) := s.suspendPumpForScope
          some { s with channel, pumps, stack := frame :: s.stack, log := s.log ++ [(i, call)] }
      else none
    | .onDataAvailable i offset count =>
      if s.inPhase i .started then
        match s.channel.onDataAvailable offset count with
        | none => some s.crash
        | some call =>
          let (frame, pumps) := s.suspendPumpForScope
          some { s with pumps, stack := frame :: s.stack, log := s.log ++ [(i, call)] }
      else none
    | .onStopRequest i status =>
      if s.inPhase i .started then
        let s := s.toPhase i .stopped
        match s.channel.onStopRequest status with
        | none => some s.crash
        | some (call, channel) =>
          some { s with channel, stack := .stop :: s.stack, log := s.log ++ [(i, call)] }
      else none
    | .listenerReturns =>
      match s.stack with
      | [] => none
      | .scoped none :: stack => some { s with stack }
      | .scoped (some i) :: stack => some { s with stack, pumps := s.pumps.modify i Pump.resume }
      | .stop :: stack => some { s with stack, channel := s.channel.onStopRequestEnd }

/-- A call of `AsyncOpen`. -/
def Act.opens : Act → Bool
  | .asyncOpen _ _ _ => true
  | _ => false

theorem eq_asyncOpen {a : Act} (h : a.opens = true) :
    ∃ listener ctxt env, a = .asyncOpen listener ctxt env := by
  cases a with
  | asyncOpen listener ctxt env => exact ⟨listener, ctxt, env, rfl⟩
  | _ => cases h

/-- A call of `AsyncOpen` that starts a pump. -/
def Act.startsPump : Act → Bool
  | .asyncOpen _ _ env => env.started
  | _ => false

/-- The event that the channel forwards in this step, if its pump has one to deliver. -/
def Act.forwards? (c : NsCCNxChannel) : Act → Option (PumpId × Event)
  | .onStartRequest i _ => some (i, .start)
  | .onDataAvailable i offset count => some (i, .data offset count)
  | .onStopRequest i status => some (i, .stop (if nsSucceeded c.mStatus then status else c.mStatus))
  | _ => none

/-! ## What a step does -/

/-- Of each pump, the listener it was started for, and its phase. -/
def Sys.history (s : Sys) : List (Option Listener × Phase) :=
  s.pumps.map fun p => (p.listener, p.phase)

section
variable {s s' : Sys} {a : Act}

theorem not_crashed (h : step s a = some s') : s.crashed = false := by
  unfold step at h
  split at h
  · cases h
  · rename_i hc
    simpa using hc

theorem step_asyncOpen {listener : Option Listener} {ctxt : Option Context} {env : OpenEnv}
    (h : step s (.asyncOpen listener ctxt env) = some s') :
    if env.started then
      s' = { s with
        channel := { s.channel with
          mPump := some s.pumps.length, mListener := listener, mListenerContext := ctxt }
        pumps := s.pumps ++ [{ listener }] }
    else
      s' = { s with channel := { s.channel with
        mPump := none, mListener := none, mListenerContext := none, mCallbacks := none } } := by
  have hcr := not_crashed h
  simp only [step, hcr, Bool.false_eq_true, ↓reduceIte, Option.some.injEq] at h
  subst h
  cases hs : env.started with
  | true =>
    rw [NsCCNxChannel.asyncOpen_started _ _ _ _ hs]
    simp [hcr]
  | false =>
    obtain ⟨hf, he⟩ := NsCCNxChannel.asyncOpen_failed s.channel listener ctxt s.pumps.length hs
    rw [he, hf]
    simp [hcr]

theorem suspend_history {ps : List Pump} {i : PumpId} :
    (ps.modify i Pump.suspend).map (fun p => (p.listener, p.phase)) =
      ps.map fun p => (p.listener, p.phase) :=
  Pool.map_modify_keep fun p => by unfold Pump.suspend; split <;> rfl

theorem resume_history {ps : List Pump} {i : PumpId} :
    (ps.modify i Pump.resume).map (fun p => (p.listener, p.phase)) =
      ps.map fun p => (p.listener, p.phase) :=
  Pool.map_modify_keep fun p => by unfold Pump.resume; split <;> rfl

/-- The scope of a handler suspends at most a pump. -/
theorem suspendPumpForScope_spec (s : Sys) :
    (∃ i, s.suspendPumpForScope.1 = .scoped i) ∧
      s.suspendPumpForScope.2.map (fun p => (p.listener, p.phase)) = s.history := by
  unfold Sys.suspendPumpForScope
  split
  · exact ⟨⟨_, rfl⟩, rfl⟩
  · split
    · exact ⟨⟨_, rfl⟩, suspend_history⟩
    · exact ⟨⟨_, rfl⟩, rfl⟩

theorem inPhase_history {i : PumpId} {ph : Phase} (h : s.inPhase i ph = true) :
    ∃ l, s.history[i]? = some (l, ph) := by
  unfold Sys.inPhase at h
  cases hp : s.pumps[i]? with
  | none => rw [hp] at h; cases h
  | some p =>
    rw [hp] at h
    have hph : p.phase = ph := by simpa using h
    exact ⟨p.listener, by simp [Sys.history, hp, hph]⟩

theorem mem_history {i : PumpId} {l : Option Listener} {ph : Phase}
    (h : s.history[i]? = some (l, ph)) :
    ∃ p, s.pumps[i]? = some p ∧ p.listener = l ∧ p.phase = ph := by
  rw [Sys.history, List.getElem?_map] at h
  obtain ⟨p, hp, he⟩ := Option.map_eq_some_iff.1 h
  cases he
  exact ⟨p, hp, rfl, rfl⟩

theorem toPhase_history {i : PumpId} {l : Option Listener} {ph : Phase}
    (h : s.history[i]? = some (l, ph)) (ph' : Phase) :
    (s.toPhase i ph').history = s.history.set i (l, ph') := by
  obtain ⟨p, hp, rfl, -⟩ := mem_history h
  exact Pool.map_modify_set hp

theorem step_onStartRequest {i : PumpId} {sniffed : Option String}
    (h : step s (.onStartRequest i sniffed) = some s') :
    s.inPhase i .fresh = true ∧
      let s₁ := s.toPhase i .started
      (s.channel.onStartRequest sniffed = none ∧ s' = s₁.crash ∨
        ∃ call channel, s.channel.onStartRequest sniffed = some (call, channel) ∧
          s' = { s₁ with
            channel
            pumps := s₁.suspendPumpForScope.2
            stack := s₁.suspendPumpForScope.1 :: s.stack
            log := s.log ++ [(i, call)] }) := by
  have hcr := not_crashed h
  unfold step at h
  rw [if_neg (by simp [hcr])] at h
  dsimp only at h
  split at h
  · rename_i hph
    refine ⟨hph, ?_⟩
    split at h
    · rename_i hnone
      cases h
      exact .inl ⟨hnone, rfl⟩
    · rename_i call channel hsome
      cases h
      exact .inr ⟨call, channel, hsome, rfl⟩
  · cases h

theorem step_onDataAvailable {i : PumpId} {offset count : Nat}
    (h : step s (.onDataAvailable i offset count) = some s') :
    s.inPhase i .started = true ∧
      (s.channel.mListener = none ∧ s' = s.crash ∨
        ∃ l, s.channel.mListener = some l ∧
          s' = { s with
            pumps := s.suspendPumpForScope.2
            stack := s.suspendPumpForScope.1 :: s.stack
            log := s.log ++ [(i, ⟨l, s.channel.mListenerContext, .data offset count⟩)] }) := by
  have hcr := not_crashed h
  unfold step at h
  rw [if_neg (by simp [hcr])] at h
  dsimp only at h
  split at h
  · rename_i hph
    refine ⟨hph, ?_⟩
    cases hl : s.channel.mListener with
    | none =>
      rw [NsCCNxChannel.onDataAvailable, hl] at h
      cases h
      exact .inl ⟨rfl, rfl⟩
    | some l =>
      rw [NsCCNxChannel.onDataAvailable_eq offset count hl] at h
      cases h
      exact .inr ⟨l, rfl, rfl⟩
  · cases h

theorem step_onStopRequest {i : PumpId} {status : NsResult}
    (h : step s (.onStopRequest i status) = some s') :
    s.inPhase i .started = true ∧
      let s₁ := s.toPhase i .stopped
      let st := if nsSucceeded s.channel.mStatus then status else s.channel.mStatus
      (s.channel.mListener = none ∧ s' = s₁.crash ∨
        ∃ l, s.channel.mListener = some l ∧
          s' = { s₁ with
            channel := { s.channel with mStatus := st, mPump := none }
            stack := .stop :: s.stack
            log := s.log ++ [(i, ⟨l, s.channel.mListenerContext, .stop st⟩)] }) := by
  have hcr := not_crashed h
  unfold step at h
  rw [if_neg (by simp [hcr])] at h
  dsimp only at h
  split at h
  · rename_i hph
    refine ⟨hph, ?_⟩
    have hchannel : (s.toPhase i .stopped).channel = s.channel := rfl
    rw [hchannel] at h
    cases hl : s.channel.mListener with
    | none =>
      rw [NsCCNxChannel.onStopRequest, hl] at h
      cases h
      exact .inl ⟨rfl, rfl⟩
    | some l =>
      rw [NsCCNxChannel.onStopRequest_eq status hl] at h
      cases h
      exact .inr ⟨l, rfl, rfl⟩
  · cases h

/-- A handler that pushes its frame and calls the listener. -/
structure Forwards (s : Sys) (i : PumpId) (l : Listener) (e : Event) (s' : Sys) : Prop where
  crashed : s'.crashed = false
  listener : s'.channel.mListener = some l
  log : s'.log = s.log ++ [(i, ⟨l, s.channel.mListenerContext, e⟩)]
  frame : (∀ st, e ≠ .stop st) → s'.channel.mPump = s.channel.mPump ∧
    s'.channel.mStatus = s.channel.mStatus ∧ ∃ p, s'.stack = .scoped p :: s.stack
  stop : ∀ st, e = .stop st → s'.channel.mPump = none ∧ s'.channel.mStatus = st ∧
    s'.stack = .stop :: s.stack

/-- A pump that delivers an event is in the phase for it, and goes on to the next. -/
theorem event_history {i : PumpId} {e : Event} (ha : a.forwards? s.channel = some (i, e))
    (h : step s a = some s') :
    ∃ l ph ph', s.history[i]? = some (l, ph) ∧ ph.next e = some ph' ∧
      s'.history = s.history.set i (l, ph') := by
  cases a with
  | onStartRequest j sniffed =>
    cases ha
    obtain ⟨hph, hs'⟩ := step_onStartRequest h
    obtain ⟨l, hl⟩ := inPhase_history hph
    refine ⟨l, _, .started, hl, rfl, ?_⟩
    rw [← toPhase_history hl]
    rcases hs' with ⟨-, rfl⟩ | ⟨call, channel, -, rfl⟩
    · rfl
    · exact (suspendPumpForScope_spec _).2
  | onDataAvailable j offset count =>
    cases ha
    obtain ⟨hph, hs'⟩ := step_onDataAvailable h
    obtain ⟨l, hl⟩ := inPhase_history hph
    refine ⟨l, _, .started, hl, rfl, ?_⟩
    rw [Pool.set_self hl]
    rcases hs' with ⟨-, rfl⟩ | ⟨l, -, rfl⟩
    · rfl
    · exact (suspendPumpForScope_spec s).2
  | onStopRequest j status =>
    cases ha
    obtain ⟨hph, hs'⟩ := step_onStopRequest h
    obtain ⟨l, hl⟩ := inPhase_history hph
    refine ⟨l, _, .stopped, hl, rfl, ?_⟩
    rw [← toPhase_history hl]
    rcases hs' with ⟨-, rfl⟩ | ⟨l, -, rfl⟩ <;> rfl
  | _ => cases ha

/-- With a listener and a pump, the event is forwarded. -/
theorem step_forwards {i : PumpId} {e : Event} {l : Listener}
    (ha : a.forwards? s.channel = some (i, e)) (hl : s.channel.mListener = some l)
    (hp : s.channel.mPump ≠ none) (h : step s a = some s') : Forwards s i l e s' := by
  have hcr := not_crashed h
  cases a with
  | onStartRequest j sniffed =>
    cases ha
    obtain ⟨-, ⟨hnone, -⟩ | ⟨call, channel, hsome, rfl⟩⟩ := step_onStartRequest h
    all_goals obtain ⟨type, hstart⟩ := NsCCNxChannel.onStartRequest_eq sniffed hl hp
    · rw [hstart] at hnone
      cases hnone
    · rw [hstart] at hsome
      cases hsome
      obtain ⟨j, hframe⟩ := (suspendPumpForScope_spec (s.toPhase i .started)).1
      exact ⟨hcr, hl, rfl, fun _ => ⟨rfl, rfl, j, by rw [← hframe]⟩, nofun⟩
  | onDataAvailable j offset count =>
    cases ha
    obtain ⟨-, ⟨hnone, -⟩ | ⟨l', hl', rfl⟩⟩ := step_onDataAvailable h
    · rw [hl] at hnone
      cases hnone
    · rw [hl] at hl'
      cases hl'
      obtain ⟨j, hframe⟩ := (suspendPumpForScope_spec s).1
      exact ⟨hcr, hl, rfl, fun _ => ⟨rfl, rfl, j, by rw [← hframe]⟩, nofun⟩
  | onStopRequest j status =>
    cases ha
    obtain ⟨-, ⟨hnone, -⟩ | ⟨l', hl', rfl⟩⟩ := step_onStopRequest h
    · rw [hl] at hnone
      cases hnone
    · rw [hl] at hl'
      cases hl'
      exact ⟨hcr, hl, rfl, fun hne => absurd rfl (hne _),
        fun st hst => ⟨rfl, by cases hst; rfl, rfl⟩⟩
  | _ => cases ha

/-- What the client's calls and the return of a listener leave alone. -/
structure Quiet (s : Sys) (a : Act) (s' : Sys) : Prop where
  crashed : s'.crashed = false
  log : s'.log = s.log
  history : s'.history = s.history
  mPump : s'.channel.mPump = s.channel.mPump
  mListener : s'.channel.mListener = s.channel.mListener
  mStatus : s'.channel.mStatus = match a with
    | .cancel status _ => status
    | _ => s.channel.mStatus
  stack : ∀ f ∈ s'.stack, f ∈ s.stack

/-- A step that opens nothing and forwards nothing is quiet, or is the end of an `OnStopRequest`. -/
theorem step_quiet (hf : a.forwards? s.channel = none)
    (ho : a.opens = false) (h : step s a = some s') :
    Quiet s a s' ∨ ∃ stack, s.stack = .stop :: stack ∧
      s' = { s with stack, channel := s.channel.onStopRequestEnd } := by
  have hcr := not_crashed h
  unfold step at h
  rw [if_neg (by simp [hcr])] at h
  dsimp only at h
  cases a with
  | asyncOpen listener ctxt env => cases ho
  | onStartRequest j sniffed => cases hf
  | onDataAvailable j offset count => cases hf
  | onStopRequest j status => cases hf
  | cancel status transport => cases h; exact .inl ⟨hcr, rfl, rfl, rfl, rfl, rfl, fun _ h => h⟩
  | setLoadGroup group => cases h; exact .inl ⟨hcr, rfl, rfl, rfl, rfl, rfl, fun _ h => h⟩
  | setNotificationCallbacks callbacks =>
    cases h
    exact .inl ⟨hcr, rfl, rfl, rfl, rfl, rfl, fun _ h => h⟩
  | suspend =>
    cases h
    refine .inl ⟨hcr, rfl, ?_, rfl, rfl, rfl, fun _ h => h⟩
    simp only [Sys.history]
    split
    · rfl
    · exact suspend_history
  | resume =>
    cases h
    refine .inl ⟨hcr, rfl, ?_, rfl, rfl, rfl, fun _ h => h⟩
    simp only [Sys.history]
    split
    · rfl
    · exact resume_history
  | listenerReturns =>
    simp only at h
    split at h
    · cases h
    · rename_i stack hst
      cases h
      exact .inl ⟨hcr, rfl, rfl, rfl, rfl, rfl,
        fun f hf => by rw [hst]; exact List.mem_cons_of_mem _ hf⟩
    · rename_i i stack hst
      cases h
      exact .inl ⟨hcr, rfl, resume_history, rfl, rfl, rfl,
        fun f hf => by rw [hst]; exact List.mem_cons_of_mem _ hf⟩
    · rename_i stack hst
      cases h
      exact .inr ⟨stack, hst, rfl⟩

/-- `Cancel` and `OnStopRequest` alone write `mStatus`. -/
def Act.writesStatus : Act → Bool
  | .cancel _ _ | .onStopRequest _ _ => true
  | _ => false

theorem step_mStatus (ha : a.writesStatus = false) (h : step s a = some s') :
    s'.channel.mStatus = s.channel.mStatus := by
  have hquiet : a.forwards? s.channel = none → a.opens = false →
      (∀ status t, a ≠ .cancel status t) → s'.channel.mStatus = s.channel.mStatus := by
    intro hf ho hc
    rcases step_quiet hf ho h with hQ | ⟨stack, -, rfl⟩
    · rw [hQ.mStatus]
      split
      · exact absurd rfl (hc _ _)
      · rfl
    · rfl
  cases a with
  | asyncOpen listener ctxt env =>
    have hs' := step_asyncOpen h
    split at hs' <;> rw [hs']
  | cancel status t => cases ha
  | onStartRequest i sniffed =>
    obtain ⟨-, ⟨-, rfl⟩ | ⟨call, channel, hsome, rfl⟩⟩ := step_onStartRequest h
    · rfl
    · exact NsCCNxChannel.onStartRequest_mStatus hsome
  | onDataAvailable i offset count =>
    obtain ⟨-, ⟨-, rfl⟩ | ⟨l, -, rfl⟩⟩ := step_onDataAvailable h <;> rfl
  | onStopRequest i status => cases ha
  | _ => exact hquiet rfl rfl nofun

/-- A step starts a pump, takes a pump that has not stopped to another phase, or leaves them all
where they are. -/
theorem step_history (h : step s a = some s') :
    s'.history = s.history ∨
      (a.startsPump = true ∧ ∃ l, s'.history = s.history ++ [(l, .fresh)]) ∨
      ∃ (i : PumpId) (l : Option Listener) (ph ph' : Phase), s.history[i]? = some (l, ph) ∧
        ph ≠ .stopped ∧ s'.history = s.history.set i (l, ph') := by
  cases ho : a.opens with
  | true =>
    obtain ⟨listener, ctxt, env, rfl⟩ := eq_asyncOpen ho
    have hs' := step_asyncOpen h
    split at hs'
    · rename_i hst
      subst hs'
      exact .inr (.inl ⟨hst, listener, by rw [Sys.history, List.map_append]; rfl⟩)
    · subst hs'
      exact .inl rfl
  | false =>
    cases ha : a.forwards? s.channel with
    | some ie =>
      obtain ⟨l, ph, ph', hl, hnext, hist⟩ := event_history ha h
      exact .inr (.inr ⟨_, l, ph, ph', hl, next_live hnext, hist⟩)
    | none =>
      rcases step_quiet ha ho h with hQ | ⟨stack, -, rfl⟩
      · exact .inl hQ.history
      · exact .inl rfl

/-- A listener is called only for the event of a pump. -/
theorem step_log (h : step s a = some s') :
    s'.log = s.log ∨ ∃ i e call, a.forwards? s.channel = some (i, e) ∧
      s'.log = s.log ++ [(i, call)] := by
  cases ho : a.opens with
  | true =>
    obtain ⟨listener, ctxt, env, rfl⟩ := eq_asyncOpen ho
    have hs' := step_asyncOpen h
    split at hs' <;> rw [hs'] <;> exact .inl rfl
  | false =>
    cases a with
    | onStartRequest i sniffed =>
      obtain ⟨-, ⟨-, rfl⟩ | ⟨call, channel, -, rfl⟩⟩ := step_onStartRequest h
      · exact .inl rfl
      · exact .inr ⟨i, _, call, rfl, rfl⟩
    | onDataAvailable i offset count =>
      obtain ⟨-, ⟨-, rfl⟩ | ⟨l, -, rfl⟩⟩ := step_onDataAvailable h
      · exact .inl rfl
      · exact .inr ⟨i, _, _, rfl, rfl⟩
    | onStopRequest i status =>
      obtain ⟨-, ⟨-, rfl⟩ | ⟨l, -, rfl⟩⟩ := step_onStopRequest h
      · exact .inl rfl
      · exact .inr ⟨i, _, _, rfl, rfl⟩
    | _ =>
      rcases step_quiet rfl ho h with hQ | ⟨stack, -, rfl⟩
      · exact .inl hQ.log
      · exact .inl rfl

end

end Channel
