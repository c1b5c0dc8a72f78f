import CCNx.Core.System
import CCNx.Lib.Slot

/-!
# Callbacks that call back

`OnInputStreamReady` calls the callback itself, and the callback may call the methods of this object
in turn; so may `mDataStream`, when `AsyncWait` asks it to wait. A run is then a list of trees: each
call with the calls made from inside it. `exec` runs a tree, and logs each `AsyncWait` and each
dispatch. `mCallback` with `mCallbackTarget` is a slot for one registration, because a dispatch
clears both before it calls out: over any tree the two fields follow the log (`Call.follows`), and
what the log has to show (`dispatched_ok`) is what the logs of slots show.
-/

set_option autoImplicit false

namespace Core

open Xpcom Runs Transport

/-- A call of a method, with the calls made on the same object before it returns. -/
inductive Call
  /-- `inner`: made by `mDataStream->AsyncWait`. -/
  | asyncWait (callback : Option Callback) (target : Option Target) (env : Env) (inner : List Call)
  /-- `inner`: made by the callback. -/
  | onInputStreamReady (inner : List Call)
  | close (env : Env)
  | closeWithStatus (reason : NsResult) (env : Env)

/-- What `AsyncWait` is given. -/
abbrev Registration := Option Callback × Option Target

/-- What the log records: a registration that `AsyncWait` puts, a dispatch that takes it. -/
abbrev Entry := Slot.Op Registration Dispatch

structure Nested where
  core : NsCCNxCore
  log : List Entry := []

def Nested.start (interest : String) : Nested := { core := { mInterest := interest } }

def takes (dispatch : Option Dispatch) : List Entry := dispatch.toList.map .take

/-- After a method, with what it dispatched behind what it put. -/
def Nested.after (s : Nested) (puts : List Entry) (out : NsCCNxCore.Out) : Nested where
  core := out.core
  log := s.log ++ (puts ++ takes out.dispatch)

mutual

def Call.exec : Call → Nested → Nested
  | .asyncWait callback target env inner, s =>
    let out := s.core.asyncWait callback target env
    let s := s.after [.put (callback, target)] out
    if out.wait.isSome then execAll inner s else s
  | .onInputStreamReady inner, s =>
    let out := s.core.onInputStreamReady
    let s := s.after [] out
    if out.dispatch.isSome then execAll inner s else s
  | .close env, s => s.after [] (s.core.close env)
  | .closeWithStatus reason env, s => s.after [] (s.core.closeWithStatus reason env)

def execAll : List Call → Nested → Nested
  | [], s => s
  | c :: cs, s => execAll cs (c.exec s)

end

/-- `mCallback` and `mCallbackTarget`. -/
def NsCCNxCore.registration (c : NsCCNxCore) : Registration := (c.mCallback, c.mCallbackTarget)

/-- The dispatch is one of this registration: of its callback, and if through an event, to its
target. -/
def fits : Registration → Dispatch → Bool
  | (some cb, _), .called cb' => cb = cb'
  | (some cb, target), .posted cb' target' => cb = cb' && target = target'
  | (none, _), _ => false

/-- The core when it calls `cb`. -/
def Nested.callOut (s : Nested) (cb : Callback) : Nested where
  core := { s.core with mCallback := none, mCallbackTarget := none }
  log := s.log ++ [.take (.called cb)]

/-- What `OnInputStreamReady` leaves in the two fields, with `cb` pending and calling `inner`. -/
structure LeftByCallback (s : Nested) (cb : Callback) (inner : List Call) : Prop where
  /-- Nothing happens after the calls of the callback. -/
  after : (Call.onInputStreamReady inner).exec s = execAll inner (s.callOut cb)
  /-- They leave the last registration they made, if it has not been dispatched. -/
  left : ∃ ops, (execAll inner (s.callOut cb)).log = (s.callOut cb).log ++ ops ∧
    ((Call.onInputStreamReady inner).exec s).core.registration =
      Slot.content (none, none) (none, none) ops
  null : inner = [] →
    ((Call.onInputStreamReady inner).exec s).core.registration = (none, none)

/-- What a run has to show. -/
structure DispatchedOk (interest : String) (calls : List Call) : Prop where
  /-- Up to the next `AsyncWait`, a registration is dispatched at most once. -/
  once : ∀ pre reg mid post,
    (execAll calls (.start interest)).log = pre ++ .put reg :: (mid ++ post) →
      (∀ op ∈ mid, op.isTake = true) → mid.length ≤ 1
  /-- What is dispatched is the registration made by the last `AsyncWait`, with its target. -/
  own : ∀ pre d post, (execAll calls (.start interest)).log = pre ++ .take d :: post →
    ∃ pre' cb target, pre = pre' ++ [.put (some cb, target)] ∧
      (d = .called cb ∨ d = .posted cb target)
  /-- What is dispatched after an `AsyncWait` was registered by it or later. -/
  since : ∀ pre reg post d, (execAll calls (.start interest)).log = pre ++ .put reg :: post →
    .take d ∈ post → ∃ reg', .put reg' ∈ .put reg :: post ∧ fits reg' d = true
  left : ∀ s cb inner, s.core.mCallback = some cb → LeftByCallback s cb inner

/-! ## The two fields are a slot -/

abbrev slotStep : Registration → Entry → Option Registration := Slot.step (none, none) fits

theorem fits_none (d : Dispatch) : fits (none, none) d = false := by
  cases d <;> rfl

theorem fits_own {reg : Registration} {d : Dispatch} (h : fits reg d = true) :
    ∃ cb, reg.1 = some cb ∧ (d = .called cb ∨ d = .posted cb reg.2) := by
  obtain ⟨callback, target⟩ := reg
  cases callback with
  | none => cases d <;> cases h
  | some cb =>
    cases d with
    | called cb' =>
      obtain rfl := of_decide_eq_true h
      exact ⟨cb, rfl, .inl rfl⟩
    | posted cb' target' =>
      obtain ⟨hcb, htarget⟩ := Bool.and_eq_true_iff.1 h
      obtain rfl := of_decide_eq_true hcb
      obtain rfl := of_decide_eq_true htarget
      exact ⟨cb, rfl, .inr rfl⟩

theorem dispatchCallback_slot (c : NsCCNxCore) (async event : Bool) :
    run slotStep c.registration (takes (c.dispatchCallback async event).1) =
      some (c.dispatchCallback async event).2.registration := by
  unfold NsCCNxCore.dispatchCallback
  cases hcb : c.mCallback with
  | none => rfl
  | some cb =>
    dsimp only
    split
    · rfl
    · cases async <;>
        simp [takes, run_cons, slotStep, Slot.step, fits, NsCCNxCore.registration, hcb]

theorem onCallbackPending_registration (c : NsCCNxCore) (env : Env) :
    (c.onCallbackPending env).2.registration = c.registration := by
  rw [NsCCNxCore.onCallbackPending_core]
  split
  · obtain ⟨transport, stream, he⟩ := c.connect_keeps env
    rw [he]
    rfl
  · rfl

theorem asyncWait_slot (c : NsCCNxCore) (callback : Option Callback) (target : Option Target)
    (env : Env) :
    run slotStep c.registration
        ([.put (callback, target)] ++ takes (c.asyncWait callback target env).dispatch) =
      some (c.asyncWait callback target env).core.registration := by
  cases callback with
  | none => rfl
  | some cb =>
    cases hc : c.isClosed with
    | true =>
      rw [NsCCNxCore.asyncWait_closed _ _ hc]
      exact dispatchCallback_slot (c.registered cb target) true env.event
    | false =>
      rw [NsCCNxCore.asyncWait_open _ _ hc]
      exact congrArg some (onCallbackPending_registration (c.registered cb target) env).symm

theorem onInputStreamReady_slot (c : NsCCNxCore) :
    run slotStep c.registration (takes c.onInputStreamReady.dispatch) =
      some c.onInputStreamReady.core.registration := by
  unfold NsCCNxCore.onInputStreamReady
  split
  · exact dispatchCallback_slot c false true
  · rfl

theorem closeWithStatus_slot (c : NsCCNxCore) (reason : NsResult) (env : Env) :
    run slotStep c.registration (takes (c.closeWithStatus reason env).dispatch) =
      some (c.closeWithStatus reason env).core.registration := by
  unfold NsCCNxCore.closeWithStatus
  dsimp only
  split
  · rfl
  · split
    · rfl
    · exact dispatchCallback_slot { c.letGo with mStatus := reason } true env.event

theorem close_slot (c : NsCCNxCore) (env : Env) :
    run slotStep c.registration (takes (c.close env).dispatch) =
      some (c.close env).core.registration := by
  unfold NsCCNxCore.close
  split
  · rfl
  · exact closeWithStatus_slot c nsBaseStreamClosed env

/-! ## Over trees -/

/-- The log has grown, and the two fields have followed it. -/
def Follows (s s' : Nested) : Prop :=
  ∃ ops, s'.log = s.log ++ ops ∧ run slotStep s.core.registration ops = some s'.core.registration

theorem Follows.refl (s : Nested) : Follows s s := ⟨[], (List.append_nil _).symm, rfl⟩

theorem Follows.trans {s s' s'' : Nested} (h₁ : Follows s s') (h₂ : Follows s' s'') :
    Follows s s'' := by
  obtain ⟨ops₁, hlog₁, hrun₁⟩ := h₁
  obtain ⟨ops₂, hlog₂, hrun₂⟩ := h₂
  exact ⟨ops₁ ++ ops₂, by rw [hlog₂, hlog₁, List.append_assoc], run_trans hrun₁ hrun₂⟩

theorem Follows.after {s : Nested} {puts : List Entry} {out : NsCCNxCore.Out}
    (h : run slotStep s.core.registration (puts ++ takes out.dispatch) =
      some out.core.registration) : Follows s (s.after puts out) :=
  ⟨_, rfl, h⟩

mutual

theorem Call.follows : ∀ (c : Call) (s : Nested), Follows s (c.exec s)
  | .asyncWait callback target env inner, s => by
    have hout := Follows.after (asyncWait_slot s.core callback target env)
    rw [Call.exec]
    split
    · exact hout.trans (execAll_follows inner _)
    · exact hout
  | .onInputStreamReady inner, s => by
    have hout : Follows s (s.after [] s.core.onInputStreamReady) :=
      .after (onInputStreamReady_slot s.core)
    rw [Call.exec]
    split
    · exact hout.trans (execAll_follows inner _)
    · exact hout
  | .close env, s => .after (close_slot s.core env)
  | .closeWithStatus reason env, s => .after (closeWithStatus_slot s.core reason env)

theorem execAll_follows : ∀ (cs : List Call) (s : Nested), Follows s (execAll cs s)
  | [], s => .refl s
  | c :: cs, s => (c.follows s).trans (execAll_follows cs (c.exec s))

end

/-- The log of a run is one of a slot that was empty at the start. -/
theorem execAll_log (interest : String) (calls : List Call) :
    ∃ reg, run slotStep (none, none) (execAll calls (.start interest)).log = some reg := by
  obtain ⟨ops, hlog, hrun⟩ := execAll_follows calls (.start interest)
  rw [hlog]
  exact ⟨_, hrun⟩

/-! ## The callback -/

theorem onInputStreamReady_calls {s : Nested} {cb : Callback} (hcb : s.core.mCallback = some cb)
    (inner : List Call) :
    (Call.onInputStreamReady inner).exec s = execAll inner (s.callOut cb) := by
  rw [Call.exec]
  simp only [NsCCNxCore.onInputStreamReady, NsCCNxCore.hasPendingCallback,
    NsCCNxCore.dispatchCallback, hcb, Nested.after, Nested.callOut]
  rfl

theorem leftByCallback {s : Nested} {cb : Callback} (hcb : s.core.mCallback = some cb)
    (inner : List Call) : LeftByCallback s cb inner := by
  have hafter := onInputStreamReady_calls hcb inner
  obtain ⟨ops, hlog, hrun⟩ := execAll_follows inner (s.callOut cb)
  refine ⟨hafter, ⟨ops, hlog, ?_⟩, ?_⟩
  · rw [hafter]
    exact Slot.run_content hrun
  · rintro rfl
    rw [hafter]
    rfl

/-- Over any run of nested calls, whether or not the ready events can be created, a registration is
dispatched at most once and by its own target, a replaced one is not dispatched any more, and what a
callback registers while it is called stays. -/
theorem dispatched_ok (interest : String) (calls : List Call) : DispatchedOk interest calls := by
  obtain ⟨reg, hslot⟩ := execAll_log interest calls
  refine ⟨fun pre reg mid post hlog hmid => ?_, fun pre d post hlog => ?_,
    fun pre reg post d hlog hd => ?_, fun s cb inner hcb => leftByCallback hcb inner⟩
  · rw [hlog] at hslot
    exact Slot.takes_le_one fits_none hslot hmid
  · rw [hlog] at hslot
    obtain ⟨pre', reg', hpre, hfits⟩ := Slot.take_after_put fits_none hslot
    obtain ⟨cb, hcb, hd⟩ := fits_own hfits
    refine ⟨pre', cb, reg'.2, ?_, hd⟩
    rw [hpre, ← hcb]
  · rw [hlog] at hslot
    exact Slot.taken_since fits_none hslot hd

/-- Called back on the first wait, the callback waits again; it is called back, and then closes. -/
example :
    (execAll [.asyncWait (some 1) (some 0) {} [], .onInputStreamReady
        [.asyncWait (some 1) (some 2) {} [.onInputStreamReady [.asyncWait (some 3) (some 4) {} [],
          .close {}]]]] (.start "/a")).log =
      [.put (some 1, some 0), .take (.called 1), .put (some 1, some 2), .take (.called 1),
        .put (some 3, some 4), .take (.posted 3 (some 4))] := rfl

/-! ## Trees and runs -/

/-- Calls made one after the other lead from `t` to a state with this core. -/
def Reaches (t : Sys) (c : NsCCNxCore) : Prop :=
  ∃ acts t', run step t acts = some t' ∧ t'.core = c

theorem Reaches.refl (t : Sys) : Reaches t t.core := ⟨[], t, rfl, rfl⟩

theorem Reaches.step {t t₁ : Sys} {a : Act} {c : NsCCNxCore} (h : step t a = some t₁)
    (hr : Reaches t₁ c) : Reaches t c := by
  obtain ⟨acts, t', hrun, ht'⟩ := hr
  refine ⟨a :: acts, t', ?_, ht'⟩
  rw [run_cons, h]
  exact hrun

theorem Reaches.trans {t : Sys} {c c' : NsCCNxCore} (h : Reaches t c)
    (hnext : ∀ t', t'.core = c → Reaches t' c') : Reaches t c' := by
  obtain ⟨acts, t₁, hrun, ht₁⟩ := h
  obtain ⟨acts', t', hrun', ht'⟩ := hnext t₁ ht₁
  exact ⟨acts ++ acts', t', run_trans hrun hrun', ht'⟩

mutual

/-- A tree does to the core what a run of the same calls, one after the other, does. -/
theorem Call.exec_flat : ∀ (c : Call) (s : Nested) (t : Sys), t.core = s.core →
    Reaches t (c.exec s).core
  | .asyncWait callback target env inner, s, t, ht => by
    rw [Call.exec]
    split
    · apply Reaches.step (a := .asyncWait callback target env) rfl
      exact execAll_flat inner (s.after _ _) _ (by rw [ht]; rfl)
    · apply Reaches.step (a := .asyncWait callback target env) rfl
      rw [ht]
      exact .refl _
  | .onInputStreamReady inner, s, t, ht => by
    rw [Call.exec]
    split
    · apply Reaches.step (a := .onInputStreamReady none) rfl
      exact execAll_flat inner (s.after _ _) _ (by rw [ht]; rfl)
    · apply Reaches.step (a := .onInputStreamReady none) rfl
      rw [ht]
      exact .refl _
  | .close env, s, t, ht => by
    apply Reaches.step (a := .close env) rfl
    rw [ht]
    exact .refl _
  | .closeWithStatus reason env, s, t, ht => by
    apply Reaches.step (a := .closeWithStatus reason env) rfl
    rw [ht]
    exact .refl _

theorem execAll_flat : ∀ (cs : List Call) (s : Nested) (t : Sys), t.core = s.core →
    Reaches t (execAll cs s).core
  | [], _, t, ht => ht ▸ .refl t
  | c :: cs, s, t, ht => (c.exec_flat s t ht).trans fun t' ht' => execAll_flat cs (c.exec s) t' ht'

end

/-- Nested calls lead to no state that calls one after the other do not reach. -/
theorem execAll_reachable (interest : String) (calls : List Call) :
    Reaches (start interest) (execAll calls (.start interest)).core :=
  execAll_flat calls (.start interest) (start interest) rfl

end Core
