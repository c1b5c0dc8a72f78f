import CCNx.Channel.Listening

/-!
# The pump is suspended while its listener is called

`OnStartRequest` and `OnDataAvailable` suspend the pump with a `ScopedRequestSuspender` until the
listener returns. `suspends_balanced`: in every run the pump has been suspended and resumed exactly
as the client asked, but for the calls that have not returned. `one_call`: when the pump holds its
events back while it is suspended, no listener is called inside another call.
-/

set_option autoImplicit false

namespace Channel

open Xpcom Runs

/-! ## How often a pump is suspended -/

/-- How often a pump that has not stopped is suspended. -/
def Pump.depth? (p : Pump) : Option Nat := if p.live then some p.suspends else none

def Sys.depth? (s : Sys) (i : PumpId) : Option Nat := (s.pumps[i]?).bind Pump.depth?

/-- The calls under way for which the pump `i` is suspended. -/
def Sys.scopes (s : Sys) (i : PumpId) : Nat := s.stack.count (.scoped (some i))

/-- The client suspends the pump `i`. -/
def ClientSuspends (i : PumpId) (s : Sys) : Act → Prop
  | .suspend => s.channel.mPump = some i ∧ (s.depth? i).isSome = true
  | _ => False

/-- The client resumes the pump `i`. -/
def ClientResumes (i : PumpId) (s : Sys) : Act → Prop
  | .resume => s.channel.mPump = some i ∧ (s.depth? i).isSome = true
  | _ => False

/-- The client resumes the pump only after a `Suspend` of its own. -/
def OwnResume (s : Sys) : Act → Prop
  | .resume => ∀ i ∈ s.channel.mPump, ∀ n ∈ s.depth? i, s.scopes i < n
  | _ => True

instance (i : PumpId) (s : Sys) (a : Act) : Decidable (ClientSuspends i s a) :=
  match a with
  | .suspend => inferInstanceAs (Decidable (_ ∧ _))
  | .asyncOpen _ _ _ | .cancel _ _ | .resume | .setLoadGroup _ | .setNotificationCallbacks _
  | .onStartRequest _ _ | .onDataAvailable _ _ _ | .onStopRequest _ _ | .listenerReturns =>
    inferInstanceAs (Decidable False)

instance (i : PumpId) (s : Sys) (a : Act) : Decidable (ClientResumes i s a) :=
  match a with
  | .resume => inferInstanceAs (Decidable (_ ∧ _))
  | .asyncOpen _ _ _ | .cancel _ _ | .suspend | .setLoadGroup _ | .setNotificationCallbacks _
  | .onStartRequest _ _ | .onDataAvailable _ _ _ | .onStopRequest _ _ | .listenerReturns =>
    inferInstanceAs (Decidable False)

instance (s : Sys) : DecidablePred (OwnResume s) := fun a =>
  match a with
  | .resume =>
    have : ∀ i, Decidable (∀ n ∈ s.depth? i, s.scopes i < n) := fun i =>
      Option.decidableForallMem (s.depth? i)
    Option.decidableForallMem s.channel.mPump
  | .asyncOpen _ _ _ | .cancel _ _ | .suspend | .setLoadGroup _ | .setNotificationCallbacks _
  | .onStartRequest _ _ | .onDataAvailable _ _ _ | .onStopRequest _ _ | .listenerReturns =>
    inferInstanceAs (Decidable True)

section
variable {s s' : Sys} {a : Act} {i j : PumpId}

theorem depth?_suspend (p : Pump) : p.suspend.depth? = p.depth?.map (· + 1) := by
  cases h : p.live
  · simp [Pump.suspend, Pump.depth?, h]
  · simp [Pump.suspend, Pump.depth?, Pump.live] at h ⊢
    simp [h]

theorem depth?_resume (p : Pump) : p.resume.depth? = p.depth?.map (· - 1) := by
  cases h : p.live
  · simp [Pump.resume, Pump.depth?, h]
  · simp [Pump.resume, Pump.depth?, Pump.live] at h ⊢
    simp [h]

/-- A change of one pump, seen in the depths. -/
theorem depth?_modify (ps : List Pump) {f : Pump → Pump} {g : Nat → Nat}
    (hf : ∀ p : Pump, (f p).depth? = p.depth?.map g) :
    ((ps.modify j f)[i]?).bind Pump.depth? =
      if j = i then ((ps[i]?).bind Pump.depth?).map g else (ps[i]?).bind Pump.depth? := by
  rw [List.getElem?_modify]
  cases ps[i]? with
  | none => simp
  | some p => by_cases h : j = i <;> simp [h, hf]

theorem depth?_isSome : (s.depth? i).isSome = (s.pumps[i]?).any Pump.live := by
  unfold Sys.depth?
  cases s.pumps[i]? with
  | none => rfl
  | some p => cases h : p.live <;> simp [Pump.depth?, h]

/-- A handler suspends the pump in `mPump` and pushes the frame that will resume it. -/
theorem suspendPumpForScope_depth? (s : Sys) (i : PumpId) :
    (s.suspendPumpForScope.1 = .scoped (some i) ∧ ∃ n, s.depth? i = some n ∧
        (s.suspendPumpForScope.2[i]?).bind Pump.depth? = some (n + 1)) ∨
      s.suspendPumpForScope.1 ≠ .scoped (some i) ∧
        (s.suspendPumpForScope.2[i]?).bind Pump.depth? = s.depth? i := by
  unfold Sys.suspendPumpForScope
  split
  · exact .inr ⟨by simp, rfl⟩
  · rename_i j hj
    split
    · rename_i hlive
      dsimp only
      rw [depth?_modify s.pumps depth?_suspend]
      by_cases hij : j = i
      · subst hij
        obtain ⟨n, hn⟩ := Option.isSome_iff_exists.1 (depth?_isSome.trans hlive)
        rw [← Sys.depth?, hn]
        exact .inl ⟨rfl, n, rfl, by simp⟩
      · rw [if_neg hij]
        exact .inr ⟨by simp [hij], rfl⟩
    · exact .inr ⟨by simp, rfl⟩

/-- A pump that starts keeps its depth. -/
theorem toPhase_started_depth? (h : s.inPhase i .fresh = true) :
    (s.toPhase i .started).depth? j = s.depth? j := by
  obtain ⟨p, hp, hph⟩ := mem_history (inPhase_history h).choose_spec
  unfold Sys.depth? Sys.toPhase
  rw [List.getElem?_modify]
  by_cases hij : i = j
  · subst hij
    simp [hp, Pump.depth?, Pump.live, hph.2]
  · simp [hij]

theorem toPhase_stopped_depth? :
    (s.toPhase i .stopped).depth? j = if i = j then none else s.depth? j := by
  unfold Sys.depth? Sys.toPhase
  rw [List.getElem?_modify]
  cases s.pumps[j]? with
  | none => simp
  | some p => by_cases hij : i = j <;> simp [hij, Pump.depth?, Pump.live]

/-! ## What a step does to the depth of a pump -/

/-- The depth of a pump before and after a step that is no call of the client: a handler suspends
the pump and pushes the frame that resumes it. -/
inductive Scoped (s : Sys) (i : PumpId) (s' : Sys) : Prop
  | keeps (depth : s'.depth? i = none ∨ s'.depth? i = s.depth? i)
      (scopes : s'.scopes i = s.scopes i)
  | enters (n : Nat) (before : s.depth? i = some n) (after : s'.depth? i = some (n + 1))
      (scopes : s'.scopes i = s.scopes i + 1)
  | leaves (depth : s'.depth? i = (s.depth? i).map (· - 1)) (scopes : s'.scopes i + 1 = s.scopes i)

/-- Pushing the frame of a handler. -/
theorem scoped_enter {s₁ : Sys} (hdepth : s₁.depth? i = s.depth? i)
    (hpumps : s'.pumps = s₁.suspendPumpForScope.2)
    (hs' : s'.stack = s₁.suspendPumpForScope.1 :: s.stack) : Scoped s i s' := by
  have hd : s'.depth? i = (s₁.suspendPumpForScope.2[i]?).bind Pump.depth? := by
    rw [Sys.depth?, hpumps]
  have hscopes : s'.scopes i = s.scopes i +
      if s₁.suspendPumpForScope.1 = .scoped (some i) then 1 else 0 := by
    rw [Sys.scopes, hs', List.count_cons, Sys.scopes]
    simp
  rcases suspendPumpForScope_depth? s₁ i with ⟨hf, n, hn, hn'⟩ | ⟨hf, hn'⟩
  · rw [if_pos hf] at hscopes
    exact .enters n (hdepth ▸ hn) (hd.trans hn') hscopes
  · rw [if_neg hf] at hscopes
    exact .keeps (.inr (hd.trans (hn'.trans hdepth))) hscopes

theorem step_scoped (ho : a.opens = false) (hs : a ≠ .suspend) (hr : a ≠ .resume)
    (h : step s a = some s') (i : PumpId) : Scoped s i s' := by
  cases a with
  | asyncOpen listener ctxt env => cases ho
  | suspend => exact absurd rfl hs
  | resume => exact absurd rfl hr
  | onStartRequest j sniffed =>
    obtain ⟨hph, ⟨-, rfl⟩ | ⟨call, channel, -, rfl⟩⟩ := step_onStartRequest h
    · exact .keeps (.inr (toPhase_started_depth? hph)) rfl
    · exact scoped_enter (toPhase_started_depth? hph) rfl rfl
  | onDataAvailable j offset count =>
    obtain ⟨-, ⟨-, rfl⟩ | ⟨l, -, rfl⟩⟩ := step_onDataAvailable h
    · exact .keeps (.inr rfl) rfl
    · exact scoped_enter rfl rfl rfl
  | onStopRequest j status =>
    obtain ⟨-, ⟨-, rfl⟩ | ⟨l, -, rfl⟩⟩ := step_onStopRequest h
    all_goals
      refine .keeps ?_ ?_
      · have hd := toPhase_stopped_depth? (s := s) (i := j) (j := i)
        by_cases hij : j = i
        · exact .inl (hd.trans (if_pos hij))
        · exact .inr (hd.trans (if_neg hij))
      · simp [Sys.scopes, Sys.crash, Sys.toPhase]
  | listenerReturns =>
    have hcr := not_crashed h
    unfold step at h
    rw [if_neg (by simp [hcr])] at h
    dsimp only at h
    split at h
    · cases h
    · rename_i stack hst
      cases h
      exact .keeps (.inr rfl) (by simp [Sys.scopes, hst])
    · rename_i j stack hst
      cases h
      have hd := depth?_modify (j := j) (i := i) s.pumps depth?_resume
      by_cases hij : j = i
      · subst hij
        rw [if_pos rfl] at hd
        exact .leaves hd (by simp [Sys.scopes, hst])
      · rw [if_neg hij] at hd
        exact .keeps (.inr hd) (by simp [Sys.scopes, hst, hij])
    · rename_i stack hst
      cases h
      exact .keeps (.inr rfl) (by simp [Sys.scopes, hst])
  | _ =>
    simp only [step, not_crashed h, Bool.false_eq_true, ↓reduceIte, Option.some.injEq] at h
    subst h
    exact .keeps (.inr rfl) rfl

/-- The client's `Suspend` and `Resume`, of the pump in `mPump`. -/
theorem step_suspend (h : step s .suspend = some s') (i : PumpId) :
    s'.stack = s.stack ∧
      s'.depth? i = if s.channel.mPump = some i then (s.depth? i).map (· + 1) else s.depth? i := by
  simp only [step, not_crashed h, Bool.false_eq_true, ↓reduceIte, Option.some.injEq] at h
  subst h
  cases hp : s.channel.mPump with
  | none => simp [Sys.depth?]
  | some j =>
    refine ⟨rfl, ?_⟩
    simp only [Option.some.injEq]
    exact depth?_modify s.pumps depth?_suspend

theorem step_resume (h : step s .resume = some s') (i : PumpId) :
    s'.stack = s.stack ∧
      s'.depth? i = if s.channel.mPump = some i then (s.depth? i).map (· - 1) else s.depth? i := by
  simp only [step, not_crashed h, Bool.false_eq_true, ↓reduceIte, Option.some.injEq] at h
  subst h
  cases hp : s.channel.mPump with
  | none => simp [Sys.depth?]
  | some j =>
    refine ⟨rfl, ?_⟩
    simp only [Option.some.injEq]
    exact depth?_modify s.pumps depth?_resume

/-- An `AsyncOpen` that starts a pump adds one that is not suspended. -/
theorem step_asyncOpen_depth? {listener : Option Listener} {ctxt : Option Context} {env : OpenEnv}
    (h : step s (.asyncOpen listener ctxt env) = some s') (i : PumpId) :
    s'.stack = s.stack ∧ s.pumps.length ≤ s'.pumps.length ∧
      (s'.depth? i = s.depth? i ∨ s.pumps[i]? = none ∧ s'.depth? i = some 0) := by
  have hs' := step_asyncOpen h
  split at hs' <;> subst hs'
  · refine ⟨rfl, by simp, ?_⟩
    rcases Nat.lt_trichotomy i s.pumps.length with hlt | rfl | hgt
    · exact .inl (by simp [Sys.depth?, List.getElem?_append_left hlt])
    · exact .inr (by simp [Sys.depth?, Pump.depth?, Pump.live])
    · have hnew : (s.pumps ++ [({ listener := listener } : Pump)])[i]? = none :=
        List.getElem?_eq_none (by simp; omega)
      exact .inl (by simp [Sys.depth?, hnew, List.getElem?_eq_none (Nat.le_of_lt hgt)])
  · exact ⟨rfl, Nat.le_refl _, .inl rfl⟩

/-! ## The calls of the client and the scopes of the handlers add up -/

/-- The pump `i` has been suspended and resumed as the client asked, but for the calls under way. -/
structure Ledger (i : PumpId) (pre : List Act) (s : Sys) : Prop where
  run : run step {} pre = some s
  balance : ∀ n, s.depth? i = some n → s.scopes i ≤ n ∧
    n + countSteps step (ClientResumes i) {} pre =
      s.scopes i + countSteps step (ClientSuspends i) {} pre
  unborn : s.pumps[i]? = none → s.scopes i = 0 ∧
    countSteps step (ClientResumes i) {} pre = 0 ∧ countSteps step (ClientSuspends i) {} pre = 0

theorem depth?_none (h : s.pumps[i]? = none) : s.depth? i = none := by simp [Sys.depth?, h]

/-- Pumps are never taken away. -/
theorem step_pumps_none (h : step s a = some s') (hi : s'.pumps[i]? = none) :
    s.pumps[i]? = none := by
  have hlen : s.history.length ≤ s'.history.length := by
    rcases step_history h with hh | ⟨-, l, hh⟩ | ⟨j, l, ph, ph', -, -, hh⟩ <;> simp [hh]
  rw [List.getElem?_eq_none_iff] at hi ⊢
  simp only [Sys.history, List.length_map] at hlen
  omega

theorem Ledger.scoped {pre : List Act} (hL : Ledger i pre s) (hsc : Scoped s i s')
    (hs : ¬ ClientSuspends i s a) (hr : ¬ ClientResumes i s a) (h : step s a = some s') :
    Ledger i (pre ++ [a]) s' := by
  have hS := countSteps_concat (C := ClientSuspends i) a hL.run
  have hR := countSteps_concat (C := ClientResumes i) a hL.run
  rw [if_neg hs, Nat.add_zero] at hS
  rw [if_neg hr, Nat.add_zero] at hR
  refine ⟨run_trans hL.run (run_single h), fun n hn => ?_, fun hi => ?_⟩
  · rw [hS, hR]
    cases hsc with
    | keeps depth scopes =>
      rw [scopes]
      rcases depth with depth | depth
      · rw [depth] at hn; cases hn
      · exact hL.balance n (depth ▸ hn)
    | enters m before after scopes =>
      obtain ⟨hle, hb⟩ := hL.balance m before
      rw [after] at hn
      cases hn
      omega
    | leaves depth scopes =>
      rw [depth] at hn
      obtain ⟨m, hm, rfl⟩ := Option.map_eq_some_iff.1 hn
      obtain ⟨hle, hb⟩ := hL.balance m hm
      omega
  · have hi₀ := step_pumps_none h hi
    obtain ⟨hu, hu₁, hu₂⟩ := hL.unborn hi₀
    rw [hS, hR]
    refine ⟨?_, hu₁, hu₂⟩
    cases hsc with
    | keeps depth scopes => rw [scopes, hu]
    | enters m before after scopes => rw [depth?_none hi₀] at before; cases before
    | leaves depth scopes => omega

/-- A step of the client that changes the depth of the pump. -/
theorem Ledger.client {pre : List Act} (hL : Ledger i pre s) {m n : Nat}
    (hm : s.depth? i = some m) (hn : s'.depth? i = some n) (hstack : s'.stack = s.stack)
    (hle : s.scopes i ≤ n)
    (hsum : n + (if ClientResumes i s a then 1 else 0) =
      m + if ClientSuspends i s a then 1 else 0)
    (h : step s a = some s') : Ledger i (pre ++ [a]) s' := by
  have hscopes : s'.scopes i = s.scopes i := by rw [Sys.scopes, hstack, Sys.scopes]
  refine ⟨run_trans hL.run (run_single h), fun k hk => ?_, fun hi => ?_⟩
  · rw [hn] at hk
    cases hk
    obtain ⟨-, hb⟩ := hL.balance m hm
    rw [countSteps_concat a hL.run, countSteps_concat a hL.run, hscopes]
    omega
  · rw [depth?_none hi] at hn
    cases hn

theorem Ledger.next {pre : List Act} (hL : Ledger i pre s) (hC : OwnResume s a)
    (h : step s a = some s') : Ledger i (pre ++ [a]) s' := by
  cases a with
  | asyncOpen listener ctxt env =>
    obtain ⟨hstack, -, hd | ⟨hnew, hd⟩⟩ := step_asyncOpen_depth? h i
    · exact hL.scoped (.keeps (.inr hd) (by rw [Sys.scopes, hstack, Sys.scopes])) id id h
    · obtain ⟨hu, hu₁, hu₂⟩ := hL.unborn hnew
      refine ⟨run_trans hL.run (run_single h), fun n hn => ?_, fun hi => ?_⟩
      · rw [hd] at hn
        cases hn
        have hscopes : s'.scopes i = 0 := by rw [Sys.scopes, hstack, ← Sys.scopes, hu]
        rw [countSteps_concat _ hL.run, countSteps_concat _ hL.run, hscopes, hu₁, hu₂]
        simp [ClientSuspends, ClientResumes]
      · rw [depth?_none hi] at hd
        cases hd
  | suspend =>
    obtain ⟨hstack, hd⟩ := step_suspend h i
    have hscopes : s'.scopes i = s.scopes i := by rw [Sys.scopes, hstack, Sys.scopes]
    by_cases hp : s.channel.mPump = some i
    · rw [if_pos hp] at hd
      cases hm : s.depth? i with
      | none =>
        rw [hm] at hd
        exact hL.scoped (.keeps (.inl hd) hscopes) (by simp [ClientSuspends, hm]) id h
      | some m =>
        rw [hm, Option.map_some] at hd
        have hle := (hL.balance m hm).1
        exact hL.client hm hd hstack (by omega) (by simp [ClientSuspends, ClientResumes, hp, hm]) h
    · rw [if_neg hp] at hd
      exact hL.scoped (.keeps (.inr hd) hscopes) (by simp [ClientSuspends, hp]) id h
  | resume =>
    obtain ⟨hstack, hd⟩ := step_resume h i
    have hscopes : s'.scopes i = s.scopes i := by rw [Sys.scopes, hstack, Sys.scopes]
    by_cases hp : s.channel.mPump = some i
    · rw [if_pos hp] at hd
      cases hm : s.depth? i with
      | none =>
        rw [hm] at hd
        exact hL.scoped (.keeps (.inl hd) hscopes) id (by simp [ClientResumes, hm]) h
      | some m =>
        rw [hm, Option.map_some] at hd
        have hlt : s.scopes i < m := hC i hp m hm
        refine hL.client hm hd hstack (by omega) ?_ h
        simp [ClientSuspends, ClientResumes, hp, hm]
        omega
    · rw [if_neg hp] at hd
      exact hL.scoped (.keeps (.inr hd) hscopes) id (by simp [ClientResumes, hp]) h
  | _ => exact hL.scoped (step_scoped rfl (by simp) (by simp) h i) id id h

/-- In every run in which the client resumes the pump only after a `Suspend` of its own, whatever
the listeners do in between: a pump that has not stopped is suspended as often as the client has
suspended and not resumed it, and once more for every call under way that suspended it. When no
call is under way, the handlers have left no suspension behind. -/
theorem suspends_balanced (i : PumpId) (acts : List Act) (hC : EachStep step OwnResume {} acts)
    {s : Sys} (h : run step {} acts = some s) {n : Nat} (hn : s.depth? i = some n) :
    n + countSteps step (ClientResumes i) {} acts =
      s.scopes i + countSteps step (ClientSuspends i) {} acts := by
  have h0 : Ledger i [] {} := by
    refine ⟨rfl, fun n hn => ?_, fun _ => ⟨rfl, rfl, rfl⟩⟩
    cases hn
  have hL : Ledger i ([] ++ acts) s :=
    run_inv_acts (fun pre s a s' hL hC hs => hL.next hC hs) h0 hC h
  exact (hL.balance n hn).2

end

/-- The client suspends the pump in the listener's `OnDataAvailable`, and resumes it when that has
returned. -/
def suspendedInside : List Act :=
  [.asyncOpen (some 1) none {}, .onStartRequest 0 none, .listenerReturns, .onDataAvailable 0 0 4,
    .suspend, .listenerReturns, .resume]

theorem suspends_balanced_suspendedInside :
    0 + countSteps step (ClientResumes 0) {} suspendedInside =
      0 + countSteps step (ClientSuspends 0) {} suspendedInside :=
  suspends_balanced 0 suspendedInside (by decide) rfl rfl

/-! ## One call at a time -/

/-- The pump holds its events back while it is suspended, the client resumes it only after a
`Suspend` of its own, and opens the channel when no pump is at work. -/
def Orderly (s : Sys) (a : Act) : Prop :=
  OpensAlone s a ∧ OwnResume s a ∧ ∀ ie ∈ a.forwards? s.channel, s.depth? ie.1 = some 0

instance (s : Sys) : DecidablePred (Orderly s) := fun a =>
  have : Decidable (∀ ie ∈ a.forwards? s.channel, s.depth? ie.1 = some 0) :=
    Option.decidableForallMem _
  inferInstanceAs (Decidable (_ ∧ _ ∧ _))

/-- No call of a listener is under way, or one, during which its pump is suspended or stopped. -/
def OneCall (s : Sys) : Prop :=
  s.stack = [] ∨ (∃ i n, s.stack = [.scoped (some i)] ∧ s.depth? i = some (n + 1)) ∨
    s.stack = [.stop] ∧ ∀ i, s.depth? i = none

section
variable {s s' : Sys} {a : Act} {i j : PumpId}

theorem depth?_history {n : Nat} (h : s.depth? i = some n) :
    ∃ l ph, s.history[i]? = some (l, ph) ∧ ph ≠ .stopped := by
  obtain ⟨p, hp, hn⟩ := Option.bind_eq_some_iff.1 h
  refine ⟨p.listener, p.phase, by simp [Sys.history, hp], fun hph => ?_⟩
  simp [Pump.depth?, Pump.live, hph] at hn

theorem OneLoad.depth?_unique (hO : OneLoad s) {m n : Nat} (hi : s.depth? i = some m)
    (hj : s.depth? j = some n) : i = j := by
  obtain ⟨l, ph, hl, hph⟩ := depth?_history hi
  obtain ⟨m, qh, hm, hqh⟩ := depth?_history hj
  exact hO.unique hl hph hm hqh

/-- The scope of the pump in `mPump`. -/
theorem suspendPumpForScope_mPump {n : Nat} (hp : s.channel.mPump = some i)
    (hn : s.depth? i = some n) :
    s.suspendPumpForScope.1 = .scoped (some i) ∧
      (s.suspendPumpForScope.2[i]?).bind Pump.depth? = some (n + 1) := by
  have hlive : (s.pumps[i]?).any Pump.live = true := by rw [← depth?_isSome, hn]; rfl
  have hframe : s.suspendPumpForScope.1 = .scoped (some i) := by
    simp [Sys.suspendPumpForScope, hp, hlive]
  rcases suspendPumpForScope_depth? s i with ⟨-, m, hm, hd⟩ | ⟨hne, -⟩
  · rw [hn] at hm
    cases hm
    exact ⟨hframe, hd⟩
  · exact absurd hframe hne

/-- A pump that delivers finds no call under way. -/
theorem OneCall.idle (hI : OneCall s) (hO : OneLoad s) (hd : s.depth? i = some 0) :
    s.stack = [] := by
  rcases hI with hnil | ⟨j, n, -, hj⟩ | ⟨-, hnone⟩
  · exact hnil
  · have hij := hO.depth?_unique hd hj
    subst hij
    rw [hd] at hj
    cases hj
  · rw [hnone] at hd
    cases hd

theorem step_listenerReturns (h : step s .listenerReturns = some s') :
    ∃ f, s.stack = f :: s'.stack := by
  have hcr := not_crashed h
  unfold step at h
  rw [if_neg (by simp [hcr])] at h
  dsimp only at h
  split at h
  · cases h
  · cases h; exact ⟨_, by assumption⟩
  · cases h; exact ⟨_, by assumption⟩
  · cases h; exact ⟨_, by assumption⟩

theorem OneCall.opened (hI : OneCall s) {listener : Option Listener} {ctxt : Option Context}
    {env : OpenEnv} (hC : OpensAlone s (.asyncOpen listener ctxt env))
    (h : step s (.asyncOpen listener ctxt env) = some s') : OneCall s' := by
  have hs' := step_asyncOpen h
  have hnone : ∀ i, s.depth? i = none := by
    intro i
    cases hp : s.pumps[i]? with
    | none => exact depth?_none hp
    | some p => simp [Sys.depth?, hp, Pump.depth?, hC.1 p (List.mem_of_getElem? hp)]
  rcases hI with hnil | ⟨j, n, -, hj⟩ | ⟨hstop, -⟩
  · split at hs' <;> subst hs' <;> exact .inl hnil
  · rw [hnone] at hj
    cases hj
  · split at hs'
    · rename_i hst
      exact absurd (by rw [hstop]; exact List.mem_cons_self) (hC.2 hst).2
    · subst hs'
      exact .inr (.inr ⟨hstop, hnone⟩)

theorem OneCall.next (hI : OneCall s) (hO : OneLoad s) (hC : Orderly s a)
    (h : step s a = some s') : OneCall s' := by
  obtain ⟨halone, hown, hheld⟩ := hC
  have hO' := hO.next halone h
  have hmPump : ∀ {i e}, a.forwards? s.channel = some (i, e) → s.depth? i = some 0 ∧
      s.channel.mPump = some i ∧ s.stack = [] := by
    intro i e ha
    have hd := hheld (i, e) ha
    obtain ⟨l, ph, hl, hph⟩ := depth?_history hd
    exact ⟨hd, (hO.owner i l ph hl hph).1, hI.idle hO hd⟩
  cases a with
  | asyncOpen listener ctxt env => exact hI.opened halone h
  | suspend =>
    obtain ⟨hstack, -⟩ := step_suspend h 0
    have hd := fun i => (step_suspend h i).2
    rw [OneCall, hstack]
    rcases hI with hnil | ⟨i, n, hi, hn⟩ | ⟨hstop, hnone⟩
    · exact .inl hnil
    · have hdi := hd i
      rw [hn] at hdi
      split at hdi
      · exact .inr (.inl ⟨i, n + 1, hi, hdi⟩)
      · exact .inr (.inl ⟨i, n, hi, hdi⟩)
    · exact .inr (.inr ⟨hstop, fun i => by simp [hd, hnone]⟩)
  | resume =>
    obtain ⟨hstack, -⟩ := step_resume h 0
    have hd := fun i => (step_resume h i).2
    rw [OneCall, hstack]
    rcases hI with hnil | ⟨i, n, hi, hn⟩ | ⟨hstop, hnone⟩
    · exact .inl hnil
    · have hdi := hd i
      rw [hn] at hdi
      split at hdi
      · -- the client has suspended the pump itself
        rename_i hp
        have hlt : s.scopes i < n + 1 := hown i hp _ hn
        obtain ⟨n, rfl⟩ : ∃ m, n = m + 1 := ⟨n - 1, by simp [Sys.scopes, hi] at hlt; omega⟩
        exact .inr (.inl ⟨i, n, hi, hdi⟩)
      · exact .inr (.inl ⟨i, n, hi, hdi⟩)
    · exact .inr (.inr ⟨hstop, fun i => by simp [hd, hnone]⟩)
  | onStartRequest i sniffed =>
    obtain ⟨hd, hp, hnil⟩ := hmPump rfl
    obtain ⟨hph, ⟨-, rfl⟩ | ⟨call, channel, -, rfl⟩⟩ := step_onStartRequest h
    · cases hO'.crashed
    · obtain ⟨hframe, hdepth⟩ := suspendPumpForScope_mPump (s := s.toPhase i .started) hp
        ((toPhase_started_depth? hph).trans hd)
      exact .inr (.inl ⟨i, 0, by rw [hframe, hnil], hdepth⟩)
  | onDataAvailable i offset count =>
    obtain ⟨hd, hp, hnil⟩ := hmPump rfl
    obtain ⟨-, ⟨-, rfl⟩ | ⟨l, -, rfl⟩⟩ := step_onDataAvailable h
    · cases hO'.crashed
    · obtain ⟨hframe, hdepth⟩ := suspendPumpForScope_mPump hp hd
      exact .inr (.inl ⟨i, 0, by rw [hframe, hnil], hdepth⟩)
  | onStopRequest i status =>
    obtain ⟨hd, -, hnil⟩ := hmPump rfl
    obtain ⟨-, ⟨-, rfl⟩ | ⟨l, -, rfl⟩⟩ := step_onStopRequest h
    · cases hO'.crashed
    · refine .inr (.inr ⟨by rw [hnil], fun j => ?_⟩)
      -- the pump that stops was the only one at work
      have hdj := toPhase_stopped_depth? (s := s) (i := i) (j := j)
      by_cases hij : i = j
      · exact hdj.trans (if_pos hij)
      · refine (hdj.trans (if_neg hij)).trans ?_
        cases hj : s.depth? j with
        | none => rfl
        | some n => exact absurd (hO.depth?_unique hd hj) hij
  | listenerReturns =>
    obtain ⟨f, hf⟩ := step_listenerReturns h
    refine .inl ?_
    rcases hI with hnil | ⟨i, n, hi, -⟩ | ⟨hstop, -⟩
    · rw [hnil] at hf; cases hf
    · rw [hi] at hf; exact (List.cons.inj hf).2.symm
    · rw [hstop] at hf; exact (List.cons.inj hf).2.symm
  | _ =>
    simp only [step, not_crashed h, Bool.false_eq_true, ↓reduceIte, Option.some.injEq] at h
    subst h
    exact hI

end

/-- In every run in which the pump holds its events back while it is suspended, the client resumes
it only after a `Suspend` of its own, and opens the channel when no pump is at work: no listener is
called while another call is under way, and while `OnStartRequest` or `OnDataAvailable` is under way
its pump stays suspended. -/
theorem one_call (acts : List Act) (hC : EachStep step Orderly {} acts) :
    EachState step OneCall {} acts := by
  have hI : EachState step (fun s => OneLoad s ∧ OneCall s) {} acts := by
    refine eachState_of_inv (fun s a s' hI hC hs => ?_) ⟨⟨rfl, ?_⟩, .inl rfl⟩ hC
    · exact ⟨hI.1.next hC.1 hs, hI.2.next hI.1 hC hs⟩
    · exact fun i l ph hi => by simp [Sys.history] at hi
  exact hI.mono fun s hs => hs.2

theorem one_call_suspendedInside : EachState step OneCall {} suspendedInside :=
  one_call suspendedInside (by decide)

end Channel
