import CCNx.Core.Connect
import CCNx.Core.Session
import CCNx.Load.System

/-!
# What a listener hears of a load that does not connect

`AsyncOpen` returns before anybody knows whether the core connects, and `Connect` tells nobody: a
core in `CCNX_ERROR` keeps the pump's callback and calls nobody. `heard_connected`: so a listener
hears events of those loads only whose connection was made, and a load without one hangs with
nothing under way that could end it, whatever the client does.
-/

set_option autoImplicit false

namespace Load

open Xpcom Runs Core

/-- The core has failed to connect, is open, and waits for nothing; its pump has not been called. -/
structure Dead (st : Stream) : Prop where
  state : st.sys.core.mState = .error
  isOpen : st.sys.core.isClosed = false
  waits : st.sys.waits = []
  posted : st.posted = 0
  calls : st.calls = 0

/-- The stream is connected exactly if its connection could be made, and dead otherwise. -/
def Settled (interest : String) (st : Stream) : Prop :=
  (Connects st.env interest ∧ st.sys.core.mState = .connect) ∨
    (¬ Connects st.env interest ∧ Dead st)

/-- The first `AsyncWait` settles the stream. -/
theorem reading_settled {interest : String} {i : Channel.PumpId} {target : Transport.Target}
    {env : Env} {st : Stream}
    (h : reading (Core.start interest).core i target env = some st) : Settled interest st := by
  have hopen : (Core.start interest).core.isClosed = false := failed_ok
  unfold reading Stream.act at h
  obtain ⟨sys, hsys, rfl⟩ := Option.map_eq_some_iff.1 h
  have hdis : dispatchOf (Core.start interest).core (.asyncWait (some i) (some target) env) =
      none := by
    simp only [dispatchOf, NsCCNxCore.asyncWait_open _ _ hopen]
  have hinit : ((Core.start interest).core.registered i (some target)).mState = .init := rfl
  cases hsys
  simp only [hdis, NsCCNxCore.asyncWait_open _ _ hopen, NsCCNxCore.onCallbackPending_wait,
    NsCCNxCore.onCallbackPending_core, if_pos hinit]
  by_cases hC : Connects env interest
  · exact .inl ⟨hC, (connect_success hC.1 hC.2).1⟩
  · refine .inr ⟨hC, ?_⟩
    have herr : (((Core.start interest).core.registered i (some target)).connect env).1 =
        .error := by
      rw [NsCCNxCore.connect_eq]
      split
      · rfl
      · rename_i hc
        dsimp only
        rw [if_pos (by
          have hp := fun hp => hC ⟨hc, hp⟩
          simpa using hp)]
    obtain ⟨transport, stream, hkeep⟩ :=
      NsCCNxCore.connect_keeps ((Core.start interest).core.registered i (some target)) env
    refine ⟨herr, ?_, ?_, rfl, rfl⟩
    · show NsCCNxCore.isClosed
        (((Core.start interest).core.registered i (some target)).connect env).2 = false
      rw [hkeep]
      exact failed_ok
    · show [] ++ accepted _ (if _ ∧ _ then _ else none) _ = []
      rw [if_neg fun hw => by rw [herr] at hw; cases hw.1]
      rfl

/-! ## Nothing wakes a dead stream -/

/-- What `Behaves` asks of a call of the core. -/
theorem behaves_core {s : Sys} {i : Channel.PumpId} {st : Stream} (hst : s.streams[i]? = some st)
    {a : Core.Act} (hB : Behaves s (.core i a)) :
    (0 < st.calls ∨ ∀ env, a ≠ .close env) ∧ (0 < st.calls ∨ ∀ reason env,
      a ≠ .closeWithStatus reason env) ∧ a ≠ .onInputStreamReady none := by
  have hcalls : s.calls i = st.calls := by rw [Sys.calls, hst]
  cases a with
  | close env => exact ⟨.inl (hcalls ▸ hB), .inl (hcalls ▸ hB), nofun⟩
  | closeWithStatus reason env => exact ⟨.inl (hcalls ▸ hB), .inl (hcalls ▸ hB), nofun⟩
  | onInputStreamReady wait =>
    cases wait with
    | none => exact hB.elim
    | some w => exact ⟨.inr nofun, .inr nofun, nofun⟩
  | _ => exact ⟨.inr nofun, .inr nofun, nofun⟩

theorem Dead.act {st st' : Stream} {a : Core.Act} (hD : Dead st)
    (hclose : ∀ env, a ≠ .close env) (hstatus : ∀ reason env, a ≠ .closeWithStatus reason env)
    (hready : a ≠ .onInputStreamReady none) (h : st.act a = some st') : Dead st' := by
  -- a call that dispatches nothing, keeps the core's state and adds no wait keeps it dead
  have hkeep : dispatchOf st.sys.core a = none → st'.sys.core.mState = st.sys.core.mState →
      st'.sys.core.isClosed = st.sys.core.isClosed → st'.sys.waits = [] → Dead st' := by
    intro hd hs hc hw
    obtain ⟨hp, hcalls⟩ := act_calls h hd
    exact ⟨hs.trans hD.state, hc.trans hD.isOpen, hw, hp.trans hD.posted, hcalls.trans hD.calls⟩
  obtain ⟨hsys, -⟩ := act_sys h
  generalize st'.sys = sys' at hsys hkeep
  cases a with
  | asyncWait callback target env =>
    cases hsys
    cases callback with
    | none => exact hkeep rfl rfl rfl (by rw [hD.waits]; rfl)
    | some cb =>
      have hne : ¬ (st.sys.core.registered cb target).mState = .init := by
        rw [show (st.sys.core.registered cb target).mState = .error from hD.state]
        decide
      have hcore : ((st.sys.core.registered cb target).onCallbackPending env).2 =
          st.sys.core.registered cb target := by
        rw [NsCCNxCore.onCallbackPending_core, if_neg hne]
      have hout : st.sys.core.asyncWait (some cb) target env = _ :=
        NsCCNxCore.asyncWait_open cb target hD.isOpen
      have hwait := (st.sys.core.registered cb target).onCallbackPending_wait env
      rw [hcore, if_neg fun hw => by
        rw [show (st.sys.core.registered cb target).mState = .error from hD.state] at hw
        cases hw.1] at hwait
      refine hkeep (by simp only [dispatchOf, hout]) ?_ ?_ ?_
      · rw [hout, hcore]
        rfl
      · rw [hout, hcore]
        rfl
      · rw [hout, hwait, hD.waits]
        rfl
  | onInputStreamReady wait =>
    cases wait with
    | none => exact absurd rfl hready
    | some w =>
      simp only [Core.step, hD.waits] at hsys
      cases hsys
  | available data => cases hsys; exact hkeep rfl rfl rfl hD.waits
  | readSegments data => cases hsys; exact hkeep rfl rfl rfl hD.waits
  | transport w => cases hsys; exact hkeep rfl rfl rfl hD.waits
  | close env => exact absurd rfl (hclose env)
  | closeWithStatus reason env => exact absurd rfl (hstatus reason env)

theorem Settled.act {interest : String} {s : Sys} {i : Channel.PumpId} {st st' : Stream}
    {a : Core.Act} (hS : Settled interest st) (hst : s.streams[i]? = some st)
    (hB : Behaves s (.core i a)) (h : st.act a = some st') : Settled interest st' := by
  obtain ⟨hsys, henv⟩ := act_sys h
  rw [Settled, henv]
  rcases hS with ⟨hC, hconn⟩ | ⟨hC, hD⟩
  · refine .inl ⟨hC, ?_⟩
    rcases step_mState hsys with ⟨hcr, -⟩ | ⟨-, hst'⟩
    · -- `CreateTransport` comes once, and the core has connected
      cases a with
      | asyncWait callback target env =>
        cases callback with
        | none => cases hcr
        | some cb => cases hconn.symm.trans hcr.2
      | _ => cases hcr
    · exact hst'.trans hconn
  · obtain ⟨hclose, hstatus, hready⟩ := behaves_core hst hB
    have hno : ¬ 0 < st.calls := by
      rw [hD.calls]
      exact Nat.lt_irrefl 0
    exact .inr ⟨hC, hD.act (hclose.resolve_left hno) (hstatus.resolve_left hno) hready h⟩

/-! ## Whole runs -/

/-- The listener has heard of connected loads alone, and the pumps of the others are where
`AsyncOpen` left them. -/
structure ConnectedHeard (interest : String) (s : Sys) : Prop where
  length : s.streams.length = s.chan.pumps.length
  settled : ∀ (i : Channel.PumpId) st, s.streams[i]? = some st → Settled interest st
  log : ∀ call ∈ s.chan.log, ∃ st, s.streams[call.1]? = some st ∧ Connects st.env interest
  fresh : ∀ (i : Channel.PumpId) l ph, s.chan.history[i]? = some (l, ph) → ph ≠ .fresh →
    ∃ st, s.streams[i]? = some st ∧ Connects st.env interest

section
variable {interest : String} {spec : NsResult × String} {s s' : Sys}

/-- The channel goes on with the same streams, of which those that a pump has told of connect. -/
theorem ConnectedHeard.channel (hI : ConnectedHeard interest s) {a : Channel.Act}
    (ho : a.opens = false) (hB : Behaves s (.channel a)) {chan : Channel.Sys}
    (h : Channel.step s.chan a = some chan) : ConnectedHeard interest { s with chan } := by
  cases ha : a.forwards? s.chan.channel with
  | none =>
    have hsame : chan.log = s.chan.log ∧ chan.history = s.chan.history := by
      rcases Channel.step_quiet ha ho h with hQ | ⟨stack, -, rfl⟩
      · exact ⟨hQ.log, hQ.history⟩
      · exact ⟨rfl, rfl⟩
    refine ⟨?_, hI.settled, by rw [hsame.1]; exact hI.log, by rw [hsame.2]; exact hI.fresh⟩
    have hlen := congrArg List.length hsame.2
    simp only [Channel.Sys.history, List.length_map] at hlen
    exact hI.length.trans hlen.symm
  | some ie =>
    obtain ⟨i, e⟩ := ie
    have hcalls : 0 < s.calls i := hB _ ha
    unfold Sys.calls at hcalls
    split at hcalls
    · rename_i st hst
      have hconn : Connects st.env interest := by
        rcases hI.settled i st hst with ⟨hC, -⟩ | ⟨-, hD⟩
        · exact hC
        · rw [hD.calls] at hcalls
          exact absurd hcalls (Nat.lt_irrefl 0)
      obtain ⟨l, ph, ph', hl, -, hist⟩ := Channel.event_history ha h
      refine ⟨?_, hI.settled, fun call hc => ?_, fun j m qh hj hne => ?_⟩
      · have hlen := congrArg List.length hist
        simp only [Channel.Sys.history, List.length_map, List.length_set] at hlen
        exact hI.length.trans hlen.symm
      · rcases Channel.step_log h with hlog | ⟨j, e', c, hj, hlog⟩
        · exact hI.log call (hlog ▸ hc)
        · rw [ha] at hj
          cases hj
          rw [hlog] at hc
          rcases List.mem_append.1 hc with hc | hc
          · exact hI.log call hc
          · obtain rfl := List.mem_singleton.1 hc
            exact ⟨st, hst, hconn⟩
      · rw [hist] at hj
        rcases Pool.getElem?_set_cases hj with ⟨rfl, -⟩ | ⟨-, hj⟩
        · exact ⟨st, hst, hconn⟩
        · exact hI.fresh j m qh hj hne
    · cases hcalls

/-- A stream goes on by itself, and stays what it was settled to be. -/
theorem ConnectedHeard.stream (hI : ConnectedHeard interest s) {i : Channel.PumpId}
    {st st' : Stream} (hst : s.streams[i]? = some st) (henv : st'.env = st.env)
    (hS : Settled interest st') :
    ConnectedHeard interest { s with streams := s.streams.set i st' } := by
  have hconn : ∀ j : Channel.PumpId, (∃ x, s.streams[j]? = some x ∧ Connects x.env interest) →
      ∃ x, (s.streams.set i st')[j]? = some x ∧ Connects x.env interest := by
    rintro j ⟨x, hx, hC⟩
    by_cases hij : i = j
    · subst hij
      rw [hst] at hx
      cases hx
      exact ⟨st', Pool.getElem?_set_same hst, henv ▸ hC⟩
    · exact ⟨x, by rwa [List.getElem?_set_ne hij], hC⟩
  refine ⟨by rw [List.length_set]; exact hI.length, fun j x hj => ?_,
    fun call hc => hconn _ (hI.log call hc), fun j m ph hj hne => hconn _ (hI.fresh j m ph hj hne)⟩
  rcases Pool.getElem?_set_cases hj with ⟨-, rfl⟩ | ⟨-, hj⟩
  · exact hS
  · exact hI.settled j x hj

theorem ConnectedHeard.next (hI : ConnectedHeard (interestOf spec) s) {a : Act}
    (hB : Behaves s a) (h : step spec s a = some s') : ConnectedHeard (interestOf spec) s' := by
  cases a with
  | asyncOpen listener ctxt create target env =>
    obtain ⟨openEnv, hchan, hst⟩ := step_asyncOpen h
    have hopen := Channel.step_asyncOpen hchan
    rcases hst with ⟨hno, hst⟩ | ⟨hyes, st, hread, hst⟩
    · rw [hno, if_neg Bool.false_ne_true] at hopen
      refine ⟨?_, hst ▸ hI.settled, ?_, ?_⟩ <;> rw [hopen, hst]
      · exact hI.length
      · exact hI.log
      · exact hI.fresh
    · rw [hyes, if_pos rfl] at hopen
      have hold : ∀ j : Channel.PumpId,
          (∃ x, s.streams[j]? = some x ∧ Connects x.env (interestOf spec)) →
          ∃ x, s'.streams[j]? = some x ∧ Connects x.env (interestOf spec) := by
        rintro j ⟨x, hx, hC⟩
        rw [hst, List.getElem?_append_left (List.getElem?_eq_some_iff.1 hx).1]
        exact ⟨x, hx, hC⟩
      refine ⟨?_, fun j x hj => ?_, fun call hc => hold _ (hI.log call ?_), fun j m ph hj hne => ?_⟩
      · rw [hst, hopen]
        simp [hI.length]
      · rw [hst] at hj
        rcases Pool.getElem?_concat_cases hj with hj | ⟨-, rfl⟩
        · exact hI.settled j x hj
        · exact reading_settled hread
      · rw [hopen] at hc
        exact hc
      · rw [hopen, Channel.Sys.history, List.map_append] at hj
        rcases Pool.getElem?_concat_cases hj with hj | ⟨-, he⟩
        · exact hold _ (hI.fresh j m ph hj hne)
        · cases he
          exact absurd rfl hne
  | channel a =>
    obtain ⟨ho, hchan, hst⟩ := step_channel h
    have := hI.channel ho hB hchan
    rw [← hst] at this
    exact this
  | core i a =>
    obtain ⟨st, st', hst, hact, rfl⟩ := step_core h
    exact hI.stream hst (act_sys hact).2 ((hI.settled i st hst).act hst hB hact)
  | posted i | pumpReturns i =>
    obtain ⟨st, st', hst, hcalled, hsys, henv, rfl⟩ := step_call (i := i) (by simp) h
    refine hI.stream hst henv ?_
    rcases hI.settled i st hst with ⟨hC, hconn⟩ | ⟨-, hD⟩
    · exact .inl ⟨henv ▸ hC, by rw [hsys]; exact hconn⟩
    · rw [hD.posted, hD.calls] at hcalled
      rcases hcalled with hlt | hlt <;> exact absurd hlt (Nat.lt_irrefl 0)

theorem connectedHeard_start (interest : String) : ConnectedHeard interest {} := by
  refine ⟨rfl, fun i st hi => ?_, fun call hc => ?_, fun i l ph hi => ?_⟩
  · cases hi
  · cases hc
  · cases hi

/-- In every run, whatever the client and the listeners call and however often the channel is
opened: each call of a listener is for the event of a load that has connected; a load that has not
stays without an event, and nothing that could bring one is posted, called or waited for. -/
theorem heard_connected (spec : NsResult × String) (acts : List Act) (s : Sys)
    (h : run (step spec) {} acts = some s) (hB : EachStep (step spec) Behaves {} acts) :
    (∀ call ∈ s.chan.log, ∃ st, s.streams[call.1]? = some st ∧
      Connects st.env (interestOf spec)) ∧
    ∀ (i : Channel.PumpId) st, s.streams[i]? = some st → ¬ Connects st.env (interestOf spec) →
      Dead st ∧ ∃ p, s.chan.pumps[i]? = some p ∧ p.phase = .fresh := by
  have hI : ConnectedHeard (interestOf spec) s :=
    (eachState_of_inv (fun s a s' hI hB h => ConnectedHeard.next hI hB h)
      (connectedHeard_start _) hB).last h
  refine ⟨hI.log, fun i st hst hno => ?_⟩
  have hlt : i < s.chan.pumps.length := hI.length ▸ (List.getElem?_eq_some_iff.1 hst).1
  refine ⟨(hI.settled i st hst).elim (fun hC => absurd hC.1 hno) And.right, s.chan.pumps[i],
    List.getElem?_eq_getElem hlt, ?_⟩
  have hist : s.chan.history[i]? = some (s.chan.pumps[i].listener, s.chan.pumps[i].phase) := by
    simp [Channel.Sys.history, hlt]
  apply Classical.byContradiction
  intro hne
  obtain ⟨x, hx, hC⟩ := hI.fresh i _ _ hist hne
  rw [hst] at hx
  cases hx
  exact hno hC

/-- A load that cannot connect, and one that does and whose listener is told so. -/
def secondConnects : List Act :=
  [.asyncOpen (some 1) none nsOk 0 { init := { connect := -1 } },
    .channel (.cancel nsErrorAbort nsOk), .asyncOpen (some 2) none nsOk 0 {},
    .core 1 (.onInputStreamReady (some (.pipe 0, 1))),
    .channel (.onStartRequest 1 none), .channel .listenerReturns, .pumpReturns 1]

theorem heard_connected_second :
    ∃ s, run (step (nsOk, "ccnx:/a")) {} secondConnects = some s ∧ s.chan.log ≠ [] ∧
      ∀ (i : Channel.PumpId) st, s.streams[i]? = some st → ¬ Connects st.env "/a" →
        Dead st ∧ ∃ p, s.chan.pumps[i]? = some p ∧ p.phase = .fresh := by
  refine ⟨_, rfl, by decide, ?_⟩
  exact (heard_connected (nsOk, "ccnx:/a") secondConnects _ rfl (by decide)).2

end

end Load
