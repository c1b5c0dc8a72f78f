import CCNx.Channel.System
import CCNx.Core.Closed

/-!
# A channel, its pumps and their content streams

`AsyncOpen` has a core made by `OpenContentStream` and a pump that reads it: `AsyncRead` calls the
core's `AsyncWait`, and there the core connects. From then on the channel and the cores have only
the pumps in common: a core calls its pump, at once or by an event posted to the pump's thread, and
a pump calls the channel. The pump is `nsInputStreamPump`, outside the repository, and its callback
on core `i` is number `i`; `Behaves` is what is asked of it.
-/

set_option autoImplicit false

namespace Load

open Xpcom Runs Core

/-- `OpenContentStream`; `spec` is what `GetAsciiSpec` returns and stores for the channel's URI. -/
def openContentStream (async : Bool) (spec : NsResult × String) : NsResult × Option NsCCNxCore :=
  if !async then (nsErrorNotImplemented, none)
  else
    let (rv, c) := ({} : NsCCNxCore).init spec
    if nsFailed rv then (rv, none) else (nsOk, some c)

/-- A content stream, and the calls of its pump: those that are posted, and those that have not
returned. -/
structure Stream where
  sys : Core.Sys
  posted : Nat := 0
  calls : Nat := 0
  /-- History: what answered the core in `AsyncOpen`. -/
  env : Env

/-- The callback that the method dispatched, if it is called in this step. -/
def dispatchOf (c : NsCCNxCore) : Core.Act → Option Dispatch
  | .asyncWait callback target env => (c.asyncWait callback target env).dispatch
  | .onInputStreamReady _ => c.onInputStreamReady.dispatch
  | .close env => (c.close env).dispatch
  | .closeWithStatus reason env => (c.closeWithStatus reason env).dispatch
  | .available _ | .readSegments _ | .transport _ => none

namespace Stream

def dispatched (st : Stream) : Option Dispatch → Stream
  | none => st
  | some (.called _) => { st with calls := st.calls + 1 }
  | some (.posted _ _) => { st with posted := st.posted + 1 }

/-- A call of the core. -/
def act (st : Stream) (a : Core.Act) : Option Stream :=
  (Core.step st.sys a).map fun sys => { st with sys }.dispatched (dispatchOf st.sys.core a)

end Stream

structure Sys where
  chan : Channel.Sys := {}
  /-- The stream that each pump reads. -/
  streams : List Stream := []

inductive Act
  /-- `AsyncOpen`, with what `nsInputStreamPump::Create` returns, the pump's thread, and what
  answers the core when it connects. -/
  | asyncOpen (listener : Option Channel.Listener) (ctxt : Option Channel.Context)
      (create : NsResult) (target : Transport.Target) (env : Env)
  /-- Any other call of the channel, or event of a pump. -/
  | channel (a : Channel.Act)
  | core (i : Channel.PumpId) (a : Core.Act)
  /-- A posted event calls the pump. -/
  | posted (i : Channel.PumpId)
  /-- A call of the pump returns. -/
  | pumpReturns (i : Channel.PumpId)

/-- The pump `i` and its stream, once `AsyncRead` has called `AsyncWait`. -/
def reading (c : NsCCNxCore) (i : Channel.PumpId) (target : Transport.Target) (env : Env) :
    Option Stream :=
  ({ sys := { core := c }, env } : Stream).act (.asyncWait (some i) (some target) env)

def step (spec : NsResult × String) (s : Sys) : Act → Option Sys
  | .asyncOpen listener ctxt create target env =>
    match openContentStream true spec with
    | (rv, none) =>
      (Channel.step s.chan (.asyncOpen listener ctxt { openContentStream := rv })).map fun chan =>
        { s with chan }
    | (_, some c) =>
      let i := s.streams.length
      let rv := (c.asyncWait (some i) (some target) env).rv
      (Channel.step s.chan (.asyncOpen listener ctxt { create, asyncRead := rv })).map fun chan =>
        { chan
          streams :=
            if nsFailed create || nsFailed rv then s.streams
            else s.streams ++ (reading c i target env).toList }
  | .channel a =>
    if a.opens then none else (Channel.step s.chan a).map fun chan => { s with chan }
  | .core i a =>
    (s.streams[i]?).bind fun st =>
      (st.act a).map fun st => { s with streams := s.streams.set i st }
  | .posted i =>
    (s.streams[i]?).bind fun st =>
      if st.posted = 0 then none
      else
        some { s with
          streams := s.streams.set i { st with posted := st.posted - 1, calls := st.calls + 1 } }
  | .pumpReturns i =>
    (s.streams[i]?).bind fun st =>
      if st.calls = 0 then none
      else some { s with streams := s.streams.set i { st with calls := st.calls - 1 } }

/-- The calls of the pump `i` that have not returned. -/
def Sys.calls (s : Sys) (i : Channel.PumpId) : Nat :=
  match s.streams[i]? with
  | some st => st.calls
  | none => 0

/-- A pump delivers its events, and closes its stream, while its stream calls it; nobody but
`mDataStream` calls the core back, and only if the core waits. -/
def Behaves (s : Sys) : Act → Prop
  | .channel a => ∀ e ∈ a.forwards? s.chan.channel, 0 < s.calls e.1
  | .core i (.close _) | .core i (.closeWithStatus _ _) => 0 < s.calls i
  | .core _ (.onInputStreamReady none) => False
  | _ => True

instance (s : Sys) : ∀ a, Decidable (Behaves s a)
  | .channel _ => Option.decidableForallMem _
  | .core i (.close _) | .core i (.closeWithStatus _ _) =>
    inferInstanceAs (Decidable (0 < s.calls i))
  | .core _ (.onInputStreamReady none) => isFalse id
  | .core _ (.onInputStreamReady (some _)) | .core _ (.asyncWait _ _ _) | .core _ (.available _)
  | .core _ (.readSegments _) | .core _ (.transport _) | .asyncOpen _ _ _ _ _ | .posted _
  | .pumpReturns _ => isTrue trivial

/-! ## What a step does -/

/-- The name that the content streams of the channel ask for. -/
def interestOf (spec : NsResult × String) : String := trimLeading "ccnx:" spec.2

theorem openContentStream_eq (spec : NsResult × String) :
    openContentStream true spec =
      if nsFailed spec.1 then (spec.1, none)
      else (nsOk, some (Core.start (interestOf spec)).core) := by
  cases hf : nsFailed spec.1 <;>
    simp [openContentStream, NsCCNxCore.init, Core.start, interestOf, hf]

/-- `AsyncWait` reports no failure. -/
theorem asyncWait_rv (c : NsCCNxCore) (callback : Option Transport.Callback)
    (target : Option Transport.Target) (env : Env) :
    (c.asyncWait callback target env).rv = nsOk := by
  unfold NsCCNxCore.asyncWait
  simp only
  split
  · rfl
  · split <;> rfl

theorem act_sys {st st' : Stream} {a : Core.Act} (h : st.act a = some st') :
    Core.step st.sys a = some st'.sys ∧ st'.env = st.env := by
  obtain ⟨sys, hsys, rfl⟩ := Option.map_eq_some_iff.1 h
  rw [hsys]
  unfold Stream.dispatched
  split <;> exact ⟨rfl, rfl⟩

/-- The calls that a call of the core brings about are those that it dispatches. -/
theorem act_calls {st st' : Stream} {a : Core.Act} (h : st.act a = some st')
    (hd : dispatchOf st.sys.core a = none) :
    st'.posted = st.posted ∧ st'.calls = st.calls := by
  obtain ⟨sys, -, rfl⟩ := Option.map_eq_some_iff.1 h
  rw [hd]
  exact ⟨rfl, rfl⟩

section
variable {spec : NsResult × String} {s s' : Sys}

/-- `AsyncOpen` starts a pump on a stream of its own, or leaves the streams alone. -/
theorem step_asyncOpen {listener : Option Channel.Listener} {ctxt : Option Channel.Context}
    {create : NsResult} {target : Transport.Target} {env : Env}
    (h : step spec s (.asyncOpen listener ctxt create target env) = some s') :
    ∃ openEnv : Channel.OpenEnv,
      Channel.step s.chan (.asyncOpen listener ctxt openEnv) = some s'.chan ∧
      (openEnv.started = false ∧ s'.streams = s.streams ∨
        openEnv.started = true ∧ ∃ st,
          reading (Core.start (interestOf spec)).core s.streams.length target env = some st ∧
            s'.streams = s.streams ++ [st]) := by
  simp only [step] at h
  rw [openContentStream_eq] at h
  cases hspec : nsFailed spec.1 with
  | true =>
    rw [hspec, if_pos rfl] at h
    obtain ⟨chan, hchan, rfl⟩ := Option.map_eq_some_iff.1 h
    exact ⟨_, hchan, .inl ⟨by simp [Channel.OpenEnv.started, nsSucceeded, hspec], rfl⟩⟩
  | false =>
    rw [hspec, if_neg Bool.false_ne_true] at h
    obtain ⟨chan, hchan, rfl⟩ := Option.map_eq_some_iff.1 h
    refine ⟨_, hchan, ?_⟩
    cases hcreate : nsFailed create with
    | true =>
      exact .inl ⟨by simp [Channel.OpenEnv.started, nsSucceeded, hcreate], by simp⟩
    | false =>
      refine .inr ⟨by simp [Channel.OpenEnv.started, nsSucceeded, hcreate, asyncWait_rv], _, rfl,
        ?_⟩
      simp only [asyncWait_rv, failed_ok, Bool.or_self, Bool.false_eq_true, ↓reduceIte]
      rfl

theorem step_channel {a : Channel.Act} (h : step spec s (.channel a) = some s') :
    a.opens = false ∧ Channel.step s.chan a = some s'.chan ∧ s'.streams = s.streams := by
  simp only [step] at h
  split at h
  · cases h
  · rename_i ho
    obtain ⟨chan, hchan, rfl⟩ := Option.map_eq_some_iff.1 h
    exact ⟨by simpa using ho, hchan, rfl⟩

theorem step_core {i : Channel.PumpId} {a : Core.Act} (h : step spec s (.core i a) = some s') :
    ∃ st st', s.streams[i]? = some st ∧ st.act a = some st' ∧
      s' = { s with streams := s.streams.set i st' } := by
  obtain ⟨st, hst, h⟩ := Option.bind_eq_some_iff.1 h
  obtain ⟨st', hact, rfl⟩ := Option.map_eq_some_iff.1 h
  exact ⟨st, st', hst, hact, rfl⟩

/-- The start and the end of a call of the pump leave the stream alone. -/
theorem step_call {i : Channel.PumpId} {a : Act} (ha : a = .posted i ∨ a = .pumpReturns i)
    (h : step spec s a = some s') :
    ∃ st st', s.streams[i]? = some st ∧ (0 < st.posted ∨ 0 < st.calls) ∧ st'.sys = st.sys ∧
      st'.env = st.env ∧ s' = { s with streams := s.streams.set i st' } := by
  rcases ha with rfl | rfl <;>
    obtain ⟨st, hst, h⟩ := Option.bind_eq_some_iff.1 h <;> split at h <;> cases h
  · exact ⟨st, { st with posted := st.posted - 1, calls := st.calls + 1 }, hst, .inl (by omega),
      rfl, rfl, rfl⟩
  · exact ⟨st, { st with calls := st.calls - 1 }, hst, .inr (by omega), rfl, rfl, rfl⟩

end

/-! ## The parties by themselves -/

/-- The channel is in a state of `Channel/System.lean`, each core in one of `Core/System.lean`. -/
structure RunsApart (spec : NsResult × String) (s : Sys) : Prop where
  channel : ∃ acts, run Channel.step {} acts = some s.chan
  core : ∀ (i : Channel.PumpId) st, s.streams[i]? = some st →
    ∃ acts, run Core.step (Core.start (interestOf spec)) acts = some st.sys

section
variable {spec : NsResult × String} {s s' : Sys}

theorem RunsApart.channel_next (hR : RunsApart spec s) {a : Channel.Act} {chan : Channel.Sys}
    (h : Channel.step s.chan a = some chan) : ∃ acts, run Channel.step {} acts = some chan := by
  obtain ⟨acts, hrun⟩ := hR.channel
  exact ⟨acts ++ [a], run_trans hrun (run_single h)⟩

theorem RunsApart.next (hR : RunsApart spec s) {a : Act} (h : step spec s a = some s') :
    RunsApart spec s' := by
  have hkept : ∀ {i : Channel.PumpId} {st st' : Stream}, s.streams[i]? = some st →
      st'.sys = st.sys → ∀ (j : Channel.PumpId) x, (s.streams.set i st')[j]? = some x →
      ∃ acts, run Core.step (Core.start (interestOf spec)) acts = some x.sys := by
    intro i st st' hst hsys j x hj
    rcases Pool.getElem?_set_cases hj with ⟨-, rfl⟩ | ⟨-, hj⟩
    · rw [hsys]
      exact hR.core i st hst
    · exact hR.core j x hj
  cases a with
  | asyncOpen listener ctxt create target env =>
    obtain ⟨openEnv, hchan, ⟨-, hst⟩ | ⟨-, st, hread, hst⟩⟩ := step_asyncOpen h
    · exact ⟨hR.channel_next hchan, fun i st hi => hR.core i st (hst ▸ hi)⟩
    · refine ⟨hR.channel_next hchan, fun i x hi => ?_⟩
      rw [hst] at hi
      rcases Pool.getElem?_concat_cases hi with hi | ⟨-, rfl⟩
      · exact hR.core i x hi
      · exact ⟨_, run_single (act_sys hread).1⟩
  | channel a =>
    obtain ⟨-, hchan, hst⟩ := step_channel h
    exact ⟨hR.channel_next hchan, fun i st hi => hR.core i st (hst ▸ hi)⟩
  | core i a =>
    obtain ⟨st, st', hst, hact, rfl⟩ := step_core h
    refine ⟨hR.channel, fun j x hj => ?_⟩
    rcases Pool.getElem?_set_cases hj with ⟨-, rfl⟩ | ⟨-, hj⟩
    · obtain ⟨acts, hrun⟩ := hR.core i st hst
      exact ⟨acts ++ [a], run_trans hrun (run_single (act_sys hact).1)⟩
    · exact hR.core j x hj
  | posted i =>
    obtain ⟨st, st', hst, -, hsys, -, rfl⟩ := step_call (.inl rfl) h
    exact ⟨hR.channel, hkept hst hsys⟩
  | pumpReturns i =>
    obtain ⟨st, st', hst, -, hsys, -, rfl⟩ := step_call (.inr rfl) h
    exact ⟨hR.channel, hkept hst hsys⟩

/-- What holds of a channel in all its runs, and of a core in all runs that start with the name of
the channel's URI, holds of them together: every load of a channel asks for the same name. -/
theorem runs_apart (spec : NsResult × String) (acts : List Act) (s : Sys)
    (h : run (step spec) {} acts = some s) : RunsApart spec s :=
  run_inv (fun _ _ _ hR h => hR.next h) ⟨⟨[], rfl⟩, fun i st hi => by cases hi⟩ h

end

/-- A channel is opened twice, and both of its pumps are at work. -/
def openedTwice : List Act :=
  [.asyncOpen (some 1) none nsOk 0 {}, .asyncOpen (some 2) none nsOk 0 {},
    .core 0 (.onInputStreamReady (some (.pipe 0, 1))), .channel (.onStartRequest 0 none)]

theorem runs_apart_openedTwice :
    ∃ s, run (step (nsOk, "ccnx:/a")) {} openedTwice = some s ∧ s.streams.length = 2 ∧
      RunsApart (nsOk, "ccnx:/a") s :=
  ⟨_, rfl, rfl, runs_apart (nsOk, "ccnx:/a") openedTwice _ rfl⟩

end Load
