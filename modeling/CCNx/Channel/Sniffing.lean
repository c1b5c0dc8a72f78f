import CCNx.Channel.Listening

/-!
# Whose content is sniffed

A channel whose content type is unknown has a sniffer look at the first data of a load:
`OnStartRequest` peeks at the stream of `mPump`, whichever pump it was that started. Nothing makes
the type unknown again when the channel is opened for another load. `sniffs_own_once`: with one load
at a time the stream is that of the load, and once a type was found no later load is looked at.
-/

set_option autoImplicit false

namespace Channel.Typed

open Xpcom Runs

/-- `net_ParseContentType`: the type and the charset that a raw value leaves, given those that it
may overwrite. -/
abbrev ParseContentType := String → String × String → String × String

/-- What `GetMIMETypeFromContent` returns and detects; `none` if no sniffer can be created or there
is nothing to peek at. -/
abbrev Sniffed := Option (NsResult × String)

structure Sys where
  chan : Channel.Sys := {}
  mContentCharset : String := ""

inductive Act
  /-- Any event or call but `OnStartRequest`. -/
  | channel (a : Channel.Act)
  | onStartRequest (pump : PumpId) (sniffed : Sniffed)
  | setContentType (aContentType : String)
  | setContentCharset (aContentCharset : String)

variable (parse : ParseContentType)

namespace Sys

/-- `GetContentType`. -/
def getContentType (s : Sys) : String := s.chan.channel.mContentType

/-- `SetContentType`. -/
def setContentType (s : Sys) (aContentType : String) : Sys :=
  let (type, charset) := parse aContentType (s.chan.channel.mContentType, s.mContentCharset)
  { chan := { s.chan with channel := { s.chan.channel with mContentType := type } }
    mContentCharset := charset }

/-- `CallUnknownTypeSniffer`. -/
def callUnknownTypeSniffer (s : Sys) : Sniffed → Sys
  | none => s
  | some (rv, detected) => if nsSucceeded rv then s.setContentType parse detected else s

/-- The pump on which `OnStartRequest` calls `PeekStream`, if it does. -/
def peeks (s : Sys) : Option PumpId :=
  if nsSucceeded s.chan.channel.mStatus && s.chan.channel.mContentType == unknownContentType then
    s.chan.channel.mPump
  else none

/-- The channel when `OnStartRequest` is past `PeekStream`. -/
def peeked (s : Sys) (sniffed : Sniffed) : Sys :=
  if s.peeks.isSome then s.callUnknownTypeSniffer parse sniffed else s

end Sys

def step (s : Sys) : Act → Option Sys
  | .channel (.onStartRequest _ _) => none
  | .channel a => (Channel.step s.chan a).map fun chan => { s with chan }
  | .onStartRequest i sniffed =>
    let t := s.peeked parse sniffed
    (Channel.step s.chan (.onStartRequest i (some t.getContentType))).map fun chan =>
      { chan, mContentCharset := t.mContentCharset }
  | .setContentType aContentType =>
    if s.chan.crashed then none else some (s.setContentType parse aContentType)
  | .setContentCharset aContentCharset =>
    if s.chan.crashed then none else some { s with mContentCharset := aContentCharset }

/-- `OnStartRequest` peeks at the stream of a pump. -/
def Peeks (s : Sys) : Act → Prop
  | .onStartRequest i _ =>
    s.chan.crashed = false ∧ s.chan.inPhase i .fresh = true ∧ s.peeks.isSome = true
  | _ => False

/-- It peeks at the stream of the pump that has started. -/
def PeeksOwn (s : Sys) : Act → Prop
  | .onStartRequest i _ => s.peeks = some i
  | _ => False

/-- It peeks, and the sniffer finds a type. -/
def FindsType (s : Sys) : Act → Prop
  | .onStartRequest i sniffed =>
    Peeks s (.onStartRequest i sniffed) ∧
      (s.peeked parse sniffed).getContentType ≠ unknownContentType
  | _ => False

/-- The channel is opened when no pump is at work, and the client does not set the content type to
the unknown one. -/
def Plain (s : Sys) : Act → Prop
  | .channel a => OpensAlone s.chan a
  | .setContentType aContentType =>
    (s.setContentType parse aContentType).getContentType ≠ unknownContentType
  | _ => True

instance (s : Sys) : DecidablePred (Plain parse s) := fun a =>
  match a with
  | .channel a => inferInstanceAs (Decidable (OpensAlone s.chan a))
  | .setContentType _ => inferInstanceAs (Decidable (_ ≠ _))
  | .onStartRequest _ _ | .setContentCharset _ => inferInstanceAs (Decidable True)

variable {parse : ParseContentType} {s s' : Sys} {a : Act}

/-! ## The type over a step -/

theorem step_channel {a : Channel.Act} (h : step parse s (.channel a) = some s') :
    ∃ chan, Channel.step s.chan a = some chan ∧ s' = { s with chan } ∧
      ∀ i sniffed, a ≠ .onStartRequest i sniffed := by
  cases a with
  | onStartRequest i sniffed => cases h
  | _ =>
    obtain ⟨chan, hchan, rfl⟩ := Option.map_eq_some_iff.1 h
    exact ⟨chan, hchan, rfl, by simp⟩

/-- Of the events and calls of the channel, `OnStartRequest` alone writes the type. -/
theorem step_mContentType {s s' : Channel.Sys} {a : Channel.Act}
    (ha : ∀ i sniffed, a ≠ .onStartRequest i sniffed) (h : Channel.step s a = some s') :
    s'.channel.mContentType = s.channel.mContentType := by
  cases a with
  | onStartRequest i sniffed => exact absurd rfl (ha i sniffed)
  | asyncOpen listener ctxt env =>
    have hs' := step_asyncOpen h
    split at hs' <;> rw [hs']
  | onDataAvailable i offset count =>
    obtain ⟨-, ⟨-, rfl⟩ | ⟨l, -, rfl⟩⟩ := step_onDataAvailable h <;> rfl
  | onStopRequest i status =>
    obtain ⟨-, ⟨-, rfl⟩ | ⟨l, -, rfl⟩⟩ := step_onStopRequest h <;> rfl
  | listenerReturns =>
    have hcr := not_crashed h
    unfold Channel.step at h
    rw [if_neg (by simp [hcr])] at h
    dsimp only at h
    split at h <;> cases h <;> rfl
  | _ =>
    have hcr := not_crashed h
    unfold Channel.step at h
    rw [if_neg (by simp [hcr])] at h
    cases h
    rfl

/-- `OnStartRequest` leaves the type that it has after `PeekStream`, unless it goes through a null
member. -/
theorem step_started {i : PumpId} {sniffed : Sniffed}
    (h : step parse s (.onStartRequest i sniffed) = some s') :
    s'.chan.crashed = true ∨
      s'.getContentType = (s.peeked parse sniffed).getContentType := by
  obtain ⟨chan, hchan, rfl⟩ := Option.map_eq_some_iff.1 h
  obtain ⟨-, ⟨-, rfl⟩ | ⟨call, channel, hsome, rfl⟩⟩ := step_onStartRequest hchan
  · exact .inl rfl
  · refine .inr ?_
    unfold NsCCNxChannel.onStartRequest at hsome
    dsimp only at hsome
    split at hsome
    · cases hsome
    · rename_i hpump
      obtain ⟨l, -, he⟩ := Option.map_eq_some_iff.1 hsome
      cases he
      simp only [Sys.getContentType]
      split
      · rfl
      · rename_i hno
        rw [Sys.peeked, Sys.peeks, if_neg hno]
        rfl

/-- A type is known, or a call has gone through a null member. -/
def Known (s : Sys) : Prop :=
  s.chan.crashed = true ∨ s.getContentType ≠ unknownContentType

theorem Known.peeks (hK : Known s) : ¬ Peeks s a := by
  intro hP
  cases a with
  | onStartRequest i sniffed =>
    obtain ⟨hcr, -, hpeek⟩ := hP
    rcases hK with hK | hK
    · rw [hcr] at hK
      cases hK
    · rw [Sys.peeks, if_neg (by simpa [Sys.getContentType] using fun _ => hK)] at hpeek
      cases hpeek
  | _ => exact hP

/-- Once known, the type stays known. -/
theorem Known.next (hK : Known s) (hC : Plain parse s a) (h : step parse s a = some s') :
    Known s' := by
  have hno := fun a => hK.peeks (a := a)
  cases a with
  | channel a =>
    obtain ⟨chan, hchan, rfl, hne⟩ := step_channel h
    rcases hK with hK | hK
    · rw [not_crashed hchan] at hK
      cases hK
    · exact .inr fun he => hK ((step_mContentType hne hchan).symm.trans he)
  | onStartRequest i sniffed =>
    obtain ⟨chan, hchan, -⟩ := Option.map_eq_some_iff.1 h
    have hcr := not_crashed hchan
    have hnone : s.peeks.isSome = false :=
      Bool.eq_false_iff.2 fun hp => hno (.onStartRequest i sniffed)
        ⟨hcr, (step_onStartRequest hchan).1, hp⟩
    rcases step_started h with hs' | hs'
    · exact .inl hs'
    · rw [Sys.peeked, if_neg (by simp [hnone])] at hs'
      rcases hK with hK | hK
      · rw [hcr] at hK
        cases hK
      · exact .inr (hs' ▸ hK)
  | setContentType aContentType =>
    simp only [step] at h
    split at h
    · cases h
    · cases h
      exact .inr hC
  | setContentCharset aContentCharset =>
    simp only [step] at h
    split at h
    · cases h
    · cases h
      exact hK

theorem FindsType.known (hF : FindsType parse s a) (h : step parse s a = some s') : Known s' := by
  cases a with
  | onStartRequest i sniffed =>
    rcases step_started h with hs' | hs'
    · exact .inl hs'
    · exact .inr (hs' ▸ hF.2)
  | _ => cases hF

/-! ## Whose stream it is -/

/-- The calls of the client that are not the channel's leave the loads alone. -/
theorem oneLoad_next (hO : OneLoad s.chan) (hC : Plain parse s a) (h : step parse s a = some s') :
    OneLoad s'.chan := by
  cases a with
  | channel a =>
    obtain ⟨chan, hchan, rfl, -⟩ := step_channel h
    have hopens : OpensAlone s.chan a := hC
    exact hO.next hopens hchan
  | onStartRequest i sniffed =>
    obtain ⟨chan, hchan, rfl⟩ := Option.map_eq_some_iff.1 h
    have hopens : OpensAlone s.chan
        (.onStartRequest i (some (s.peeked parse sniffed).getContentType)) := trivial
    exact hO.next hopens hchan
  | setContentType aContentType =>
    simp only [step] at h
    split at h
    · cases h
    · cases h
      exact ⟨hO.crashed, hO.owner⟩
  | setContentCharset aContentCharset =>
    simp only [step] at h
    split at h
    · cases h
    · cases h
      exact hO

theorem peeksOwn_of_oneLoad (hO : OneLoad s.chan) (hP : Peeks s a) : PeeksOwn s a := by
  cases a with
  | onStartRequest i sniffed =>
    obtain ⟨-, hph, hpeek⟩ := hP
    obtain ⟨l, hl⟩ := inPhase_history hph
    obtain ⟨hpump, -⟩ := hO.owner i l .fresh hl (by simp)
    rw [Sys.peeks] at hpeek
    split at hpeek
    · rename_i hc
      rw [PeeksOwn, Sys.peeks, if_pos hc, hpump]
    · cases hpeek
  | _ => exact hP

/-- In every run in which the channel is opened when no pump is at work, and the client does not set
the unknown type: each `OnStartRequest` that peeks at a stream peeks at that of its own load, and
once one has found a type, none peeks again. -/
theorem sniffs_own_once (parse : ParseContentType) (acts : List Act)
    (hC : EachStep (step parse) (Plain parse) {} acts) :
    EachStep (step parse) (fun s a => Peeks s a → PeeksOwn s a) {} acts ∧
      AfterEach (step parse) (FindsType parse)
        (EachStep (step parse) fun s a => ¬ Peeks s a) {} acts := by
  have hO : EachState (step parse) (fun s => OneLoad s.chan) {} acts :=
    eachState_of_inv (fun _ _ _ hO hC h => oneLoad_next hO hC h)
      ⟨rfl, fun i l ph hi => by simp [Channel.Sys.history] at hi⟩ hC
  have hK : AfterEach (step parse) (FindsType parse) (EachState (step parse) Known) {} acts :=
    afterEach_of_inv (fun _ _ _ hF h => hF.known h) (fun _ _ _ hK hC h => hK.next hC h) hC
  exact ⟨hO.steps.mono fun _ _ hO => peeksOwn_of_oneLoad hO,
    hK.mono fun _ _ hK => hK.steps.mono fun _ _ hK => hK.peeks⟩

/-- A raw value that is a type and nothing else. -/
def plainType : ParseContentType := fun raw old => (raw, old.2)

/-- Two loads of one channel, with content of different types. -/
def twoTypes : List Act :=
  [.channel (.asyncOpen (some 1) none {}), .onStartRequest 0 (some (nsOk, "text/html")),
    .channel .listenerReturns, .channel (.onStopRequest 0 nsOk), .channel .listenerReturns,
    .channel (.asyncOpen (some 2) none {}), .onStartRequest 1 (some (nsOk, "text/plain"))]

theorem sniffs_own_once_twoTypes :
    AfterEach (step plainType) (FindsType plainType)
      (EachStep (step plainType) fun s a => ¬ Peeks s a) {} twoTypes :=
  (sniffs_own_once plainType twoTypes (by decide)).2

/-- Of two loads at a time, the first to start is sniffed in the stream of the second. -/
example :
    (run (step plainType) {} [.channel (.asyncOpen (some 1) none {}),
      .channel (.asyncOpen (some 2) none {})]).map (fun s => (s.chan.inPhase 0 .fresh, s.peeks)) =
        some (true, some 1) := by
  decide

end Channel.Typed
