/-!
# Runs of a partial transition system

`step s a = some s'`: the action `a` is enabled in `s` and leads to `s'`. `run` executes a list of
actions; `EachStep C` and `EachState P` say that every step of the run meets `C`, and that every
state it visits satisfies `P`. The rules: an invariant kept by every step that meets `C` holds in
every state of a run whose steps meet `C` (`eachState_of_inv`), and a system that refines another
one step by step refines it over whole runs (`Refines.run`).
-/

set_option autoImplicit false

namespace Runs

section
variable {σ α : Type _} (step : σ → α → Option σ)

/-- The state after the actions, if each of them was enabled in its turn. -/
def run : σ → List α → Option σ
  | s, [] => some s
  | s, a :: as => (step s a).bind fun s' => run s' as

/-- Every step of the run meets `C`. -/
def EachStep (C : σ → α → Prop) : σ → List α → Prop
  | _, [] => True
  | s, a :: as => C s a ∧ ∀ s', step s a = some s' → EachStep C s' as

/-- Every state the run visits, both ends included, satisfies `P`. -/
def EachState (P : σ → Prop) : σ → List α → Prop
  | s, [] => P s
  | s, a :: as => P s ∧ ∀ s', step s a = some s' → EachState P s' as

/-- After each step of the run that meets `A`, the rest of the run meets `Q`. -/
def AfterEach (A : σ → α → Prop) (Q : σ → List α → Prop) : σ → List α → Prop
  | _, [] => True
  | s, a :: as => ∀ s', step s a = some s' → (A s a → Q s' as) ∧ AfterEach A Q s' as

end

section
variable {σ α : Type _} {step : σ → α → Option σ}

/-! ## Splitting a run -/

@[simp] theorem run_nil (s : σ) : run step s [] = some s := rfl

theorem run_cons (s : σ) (a : α) (as : List α) :
    run step s (a :: as) = (step s a).bind fun s' => run step s' as := rfl

theorem run_cons_some {s s'' : σ} {a : α} {as : List α} (h : run step s (a :: as) = some s'') :
    ∃ s', step s a = some s' ∧ run step s' as = some s'' := by
  rw [run_cons] at h
  cases hs : step s a with
  | none => rw [hs] at h; cases h
  | some s' => rw [hs] at h; exact ⟨s', rfl, h⟩

theorem run_append (s : σ) (as bs : List α) :
    run step s (as ++ bs) = (run step s as).bind fun s' => run step s' bs := by
  induction as generalizing s with
  | nil => rfl
  | cons a as ih =>
    rw [List.cons_append, run_cons, run_cons]
    cases step s a with
    | none => rfl
    | some s' => exact ih s'

theorem run_append_some {s s'' : σ} {as bs : List α} (h : run step s (as ++ bs) = some s'') :
    ∃ s', run step s as = some s' ∧ run step s' bs = some s'' := by
  rw [run_append] at h
  cases hs : run step s as with
  | none => rw [hs] at h; cases h
  | some s' => rw [hs] at h; exact ⟨s', rfl, h⟩

theorem run_concat_some {s s'' : σ} {as : List α} {a : α} (h : run step s (as ++ [a]) = some s'') :
    ∃ s', run step s as = some s' ∧ step s' a = some s'' := by
  obtain ⟨s', h1, h2⟩ := run_append_some h
  obtain ⟨s3, h3, h4⟩ := run_cons_some h2
  cases h4
  exact ⟨s', h1, h3⟩

theorem run_single {s s' : σ} {a : α} (h : step s a = some s') : run step s [a] = some s' := by
  rw [run_cons, h]; rfl

theorem run_trans {s s' s'' : σ} {as bs : List α} (h1 : run step s as = some s')
    (h2 : run step s' bs = some s'') : run step s (as ++ bs) = some s'' := by
  rw [run_append, h1]; exact h2

/-! ## Invariants -/

/-- An invariant of every step is an invariant of every run. -/
theorem run_inv {I : σ → Prop} (hstep : ∀ s a s', I s → step s a = some s' → I s') {s s' : σ}
    {as : List α} (h0 : I s) (h : run step s as = some s') : I s' := by
  induction as generalizing s with
  | nil => cases h; exact h0
  | cons a as ih =>
    obtain ⟨s1, h1, h2⟩ := run_cons_some h
    exact ih (hstep s a s1 h0 h1) h2

/-- The states of a run whose steps meet `C` satisfy what steps meeting `C` keep. -/
theorem eachState_of_inv {I : σ → Prop} {C : σ → α → Prop}
    (hstep : ∀ s a s', I s → C s a → step s a = some s' → I s') {s : σ} {as : List α} (h0 : I s)
    (hC : EachStep step C s as) : EachState step I s as := by
  induction as generalizing s with
  | nil => exact h0
  | cons a as ih => exact ⟨h0, fun s' hs => ih (hstep s a s' h0 hC.1 hs) (hC.2 s' hs)⟩

theorem EachState.mono {P Q : σ → Prop} (hPQ : ∀ s, P s → Q s) {s : σ} {as : List α}
    (h : EachState step P s as) : EachState step Q s as := by
  induction as generalizing s with
  | nil => exact hPQ s h
  | cons a as ih => exact ⟨hPQ s h.1, fun s' hs => ih (h.2 s' hs)⟩

/-- What holds in every state holds before every step. -/
theorem EachState.steps {P : σ → Prop} {s : σ} {as : List α} (h : EachState step P s as) :
    EachStep step (fun s _ => P s) s as := by
  induction as generalizing s with
  | nil => trivial
  | cons a as ih => exact ⟨h.1, fun s' hs => ih (h.2 s' hs)⟩

/-- `EachState` at a prefix of the run. -/
theorem EachState.at {P : σ → Prop} {s s' : σ} {as bs : List α}
    (h : EachState step P s (as ++ bs)) (hr : run step s as = some s') :
    EachState step P s' bs := by
  induction as generalizing s with
  | nil => cases hr; exact h
  | cons a as ih =>
    obtain ⟨s1, h1, h2⟩ := run_cons_some hr
    exact ih (h.2 s1 h1) h2

theorem EachState.head {P : σ → Prop} {s : σ} {as : List α} (h : EachState step P s as) : P s := by
  cases as with
  | nil => exact h
  | cons a as => exact h.1

theorem EachState.last {P : σ → Prop} {s s' : σ} {as : List α} (h : EachState step P s as)
    (hr : run step s as = some s') : P s' := by
  have h' : EachState step P s (as ++ []) := by simpa using h
  exact (h'.at hr).head

theorem eachStep_of_forall {C : σ → α → Prop} (hC : ∀ s a, C s a) (s : σ) (as : List α) :
    EachStep step C s as := by
  induction as generalizing s with
  | nil => trivial
  | cons a as ih => exact ⟨hC s a, fun s' _ => ih s'⟩

theorem EachStep.mono {C D : σ → α → Prop} (hCD : ∀ s a, C s a → D s a) {s : σ} {as : List α}
    (h : EachStep step C s as) : EachStep step D s as := by
  induction as generalizing s with
  | nil => trivial
  | cons a as ih => exact ⟨hCD s a h.1, fun s' hs => ih (h.2 s' hs)⟩

/-- `EachStep` at a prefix of the run. -/
theorem EachStep.at {C : σ → α → Prop} {s s' : σ} {as bs : List α}
    (h : EachStep step C s (as ++ bs)) (hr : run step s as = some s') : EachStep step C s' bs := by
  induction as generalizing s with
  | nil => cases hr; exact h
  | cons a as ih =>
    obtain ⟨s1, h1, h2⟩ := run_cons_some hr
    exact ih (h.2 s1 h1) h2

theorem EachStep.of_append {C : σ → α → Prop} {s : σ} {as bs : List α}
    (h : EachStep step C s (as ++ bs)) : EachStep step C s as := by
  induction as generalizing s with
  | nil => trivial
  | cons a as ih => exact ⟨h.1, fun s' hs => ih (h.2 s' hs)⟩

/-- What every step that meets `C` keeps of the state and the actions so far. -/
theorem run_inv_acts {J : List α → σ → Prop} {C : σ → α → Prop}
    (hstep : ∀ pre s a s', J pre s → C s a → step s a = some s' → J (pre ++ [a]) s') {s s' : σ}
    {pre as : List α} (h0 : J pre s) (hC : EachStep step C s as) (h : run step s as = some s') :
    J (pre ++ as) s' := by
  induction as generalizing s pre with
  | nil =>
    cases h
    rwa [List.append_nil]
  | cons a as ih =>
    obtain ⟨s₁, h₁, h₂⟩ := run_cons_some h
    have hrest := ih (hstep pre s a s₁ h0 hC.1 h₁) (hC.2 s₁ h₁) h₂
    rwa [List.append_assoc, List.singleton_append] at hrest

/-- `EachStep` read off the prefixes of the run. -/
theorem eachStep_iff {C : σ → α → Prop} {s : σ} {as : List α} :
    EachStep step C s as ↔
      ∀ pre a post s', as = pre ++ a :: post → run step s pre = some s' → C s' a := by
  constructor
  · rintro h pre a post s' rfl hr
    exact (h.at hr).1
  · intro h
    induction as generalizing s with
    | nil => trivial
    | cons a as ih =>
      refine ⟨h [] a as s rfl rfl, fun s' hs => ih fun pre b post s'' he hr => ?_⟩
      refine h (a :: pre) b post s'' (by rw [he]; rfl) ?_
      rw [run_cons, hs]
      exact hr

/-- What one step decides decides the run: if, from a state that satisfies `P`, a step leads to
one that does exactly if it meets `C`, then all states of a run satisfy `P` exactly if all its
steps meet `C`. -/
theorem eachState_iff_eachStep {I P : σ → Prop} {A : α → Prop} {C : σ → α → Prop}
    (hkeep : ∀ s a s', I s → A a → step s a = some s' → I s')
    (hstep : ∀ s a s', I s → P s → A a → step s a = some s' → (P s' ↔ C s a)) {s s' : σ}
    {as : List α} (hI : I s) (hP : P s) (hA : ∀ a ∈ as, A a) (h : run step s as = some s') :
    EachState step P s as ↔ EachStep step C s as := by
  induction as generalizing s with
  | nil => exact iff_of_true hP trivial
  | cons a as ih =>
    obtain ⟨s₁, h₁, hrest⟩ := run_cons_some h
    have ha := hA a List.mem_cons_self
    have hiff := hstep s a s₁ hI hP ha h₁
    have hrest := fun hP₁ : P s₁ =>
      ih (hkeep s a s₁ hI ha h₁) hP₁ (fun b hb => hA b (List.mem_cons_of_mem _ hb)) hrest
    constructor
    · intro hall
      have hP₁ := (hall.2 s₁ h₁).head
      refine ⟨hiff.1 hP₁, fun s₂ h₂ => ?_⟩
      rw [h₁] at h₂
      cases h₂
      exact (hrest hP₁).1 (hall.2 s₁ h₁)
    · intro hall
      have hP₁ := hiff.2 hall.1
      refine ⟨hP, fun s₂ h₂ => ?_⟩
      rw [h₁] at h₂
      cases h₂
      exact (hrest hP₁).2 (hall.2 s₁ h₁)

end

/-! ## The first step of a run -/

section
variable {σ α : Type _} {step : σ → α → Option σ}

theorem eachStep_cons {C : σ → α → Prop} {s s' : σ} {a : α} {as : List α}
    (h : step s a = some s') :
    EachStep step C s (a :: as) ↔ C s a ∧ EachStep step C s' as :=
  ⟨fun hC => ⟨hC.1, hC.2 s' h⟩, fun hC => ⟨hC.1, fun s₁ h₁ => by
    rw [h] at h₁
    cases h₁
    exact hC.2⟩⟩

theorem eachState_cons {P : σ → Prop} {s s' : σ} {a : α} {as : List α}
    (h : step s a = some s') :
    EachState step P s (a :: as) ↔ P s ∧ EachState step P s' as :=
  ⟨fun hP => ⟨hP.1, hP.2 s' h⟩, fun hP => ⟨hP.1, fun s₁ h₁ => by
    rw [h] at h₁
    cases h₁
    exact hP.2⟩⟩

/-- On a run, what is equivalent of every step may be exchanged. -/
theorem eachStep_congr {C D : σ → α → Prop} {s s' : σ} {as : List α}
    (hCD : ∀ s a s', step s a = some s' → (C s a ↔ D s a)) (h : run step s as = some s') :
    EachStep step C s as ↔ EachStep step D s as := by
  induction as generalizing s with
  | nil => exact Iff.rfl
  | cons a as ih =>
    obtain ⟨s₁, h₁, h₂⟩ := run_cons_some h
    rw [eachStep_cons h₁, eachStep_cons h₁, hCD s a s₁ h₁, ih h₂]

end

/-! ## The rest of a run -/

section
variable {σ α : Type _} {step : σ → α → Option σ} {A : σ → α → Prop} {Q Q' : σ → List α → Prop}

theorem afterEach_cons {s s' : σ} {a : α} {as : List α} (h : step s a = some s') :
    AfterEach step A Q s (a :: as) ↔ (A s a → Q s' as) ∧ AfterEach step A Q s' as :=
  ⟨fun hA => hA s' h, fun hA s₁ h₁ => by
    rw [h] at h₁
    cases h₁
    exact hA⟩

/-- On a run, what is equivalent of every rest of a run may be exchanged. -/
theorem afterEach_congr {s s' : σ} {as : List α}
    (hQ : ∀ s as s', run step s as = some s' → (Q s as ↔ Q' s as)) (h : run step s as = some s') :
    AfterEach step A Q s as ↔ AfterEach step A Q' s as := by
  induction as generalizing s with
  | nil => exact Iff.rfl
  | cons a as ih =>
    obtain ⟨s₁, h₁, h₂⟩ := run_cons_some h
    rw [afterEach_cons h₁, afterEach_cons h₁, hQ s₁ as s' h₂, ih h₂]

/-- Where the steps in `A` lead to an invariant, it holds in all the rest of the run. -/
theorem afterEach_of_inv {J : σ → Prop} {C : σ → α → Prop}
    (hA : ∀ s a s', A s a → step s a = some s' → J s')
    (hstep : ∀ s a s', J s → C s a → step s a = some s' → J s') {s : σ} {as : List α}
    (hC : EachStep step C s as) : AfterEach step A (EachState step J) s as := by
  induction as generalizing s with
  | nil => trivial
  | cons a as ih =>
    exact fun s' hs => ⟨fun ha => eachState_of_inv hstep (hA s a s' ha hs) (hC.2 s' hs),
      ih (hC.2 s' hs)⟩

theorem AfterEach.mono (hQ : ∀ s as, Q s as → Q' s as) {s : σ} {as : List α}
    (h : AfterEach step A Q s as) : AfterEach step A Q' s as := by
  induction as generalizing s with
  | nil => trivial
  | cons a as ih =>
    exact fun s' hs => ⟨fun ha => hQ s' as ((h s' hs).1 ha), ih (h s' hs).2⟩

end

/-! ## Counting steps -/

section
variable {σ α : Type _} (step : σ → α → Option σ)

/-- How many steps of the run meet `C`. -/
def countSteps (C : σ → α → Prop) [∀ s a, Decidable (C s a)] : σ → List α → Nat
  | _, [] => 0
  | s, a :: as =>
    (if C s a then 1 else 0) +
      match step s a with
      | none => 0
      | some s' => countSteps C s' as

variable {step} {C : σ → α → Prop} [∀ s a, Decidable (C s a)]

@[simp] theorem countSteps_nil (s : σ) : countSteps step C s [] = 0 := rfl

theorem countSteps_cons {s s' : σ} {a : α} (as : List α) (h : step s a = some s') :
    countSteps step C s (a :: as) = (if C s a then 1 else 0) + countSteps step C s' as := by
  simp only [countSteps, h]

theorem countSteps_stuck {s : σ} {a : α} (as : List α) (h : step s a = none) :
    countSteps step C s (a :: as) = if C s a then 1 else 0 := by
  simp only [countSteps, h, Nat.add_zero]

theorem countSteps_concat {s s' : σ} {as : List α} (a : α) (h : run step s as = some s') :
    countSteps step C s (as ++ [a]) = countSteps step C s as + if C s' a then 1 else 0 := by
  induction as generalizing s with
  | nil =>
    cases h
    rw [List.nil_append, countSteps_nil, Nat.zero_add]
    cases hs : step s' a with
    | none => exact countSteps_stuck [] hs
    | some s₁ => rw [countSteps_cons [] hs, countSteps_nil, Nat.add_zero]
  | cons b as ih =>
    obtain ⟨s₁, h₁, h₂⟩ := run_cons_some h
    rw [List.cons_append, countSteps_cons _ h₁, countSteps_cons _ h₁, ih h₂, Nat.add_assoc]

/-- On a run whose steps meet `E`, what is counted for `C` is counted for `D`. -/
theorem countSteps_mono {D E : σ → α → Prop} [∀ s a, Decidable (D s a)]
    (hCD : ∀ s a, E s a → C s a → D s a) {s : σ} {as : List α} (hE : EachStep step E s as) :
    countSteps step C s as ≤ countSteps step D s as := by
  induction as generalizing s with
  | nil => exact Nat.le_refl 0
  | cons a as ih =>
    have hhead : (if C s a then 1 else 0) ≤ if D s a then 1 else 0 := by
      by_cases hC : C s a
      · simp only [if_pos hC, if_pos (hCD s a hE.1 hC), Nat.le_refl]
      · rw [if_neg hC]
        exact Nat.zero_le _
    cases hs : step s a with
    | none =>
      rw [countSteps_stuck as hs, countSteps_stuck as hs]
      exact hhead
    | some s' =>
      rw [countSteps_cons as hs, countSteps_cons as hs]
      exact Nat.add_le_add hhead (ih (hE.2 s' hs))

/-- Steps that need what no step brings back are made at most once, if each takes it away: here is
`P` what they need, on the states that satisfy an invariant of every step, and the count is at most
one, or zero without it. -/
theorem countSteps_le_of_inv {I P : σ → Prop} [DecidablePred P]
    (hinv : ∀ s a s', I s → step s a = some s' → I s') (hneed : ∀ s a, C s a → P s)
    (htake : ∀ s a s', I s → step s a = some s' → C s a → ¬ P s')
    (hgone : ∀ s a s', I s → step s a = some s' → ¬ P s → ¬ P s') {s : σ} (hI : I s)
    (as : List α) : countSteps step C s as ≤ if P s then 1 else 0 := by
  induction as generalizing s with
  | nil => exact Nat.zero_le _
  | cons a as ih =>
    cases hs : step s a with
    | none =>
      rw [countSteps_stuck as hs]
      by_cases hC : C s a
      · simp [hC, hneed s a hC]
      · simp [hC]
    | some s' =>
      rw [countSteps_cons as hs]
      have hrest := ih (hinv s a s' hI hs)
      by_cases hC : C s a
      · rw [if_neg (htake s a s' hI hs hC)] at hrest
        rw [if_pos hC, if_pos (hneed s a hC)]
        omega
      · rw [if_neg hC, Nat.zero_add]
        by_cases hP : P s
        · rw [if_pos hP]
          split at hrest <;> omega
        · rw [if_neg (hgone s a s' hI hs hP)] at hrest
          rw [if_neg hP]
          exact hrest

/-- The same with no invariant to rest on. -/
theorem countSteps_le {P : σ → Prop} [DecidablePred P] (hneed : ∀ s a, C s a → P s)
    (htake : ∀ s a s', step s a = some s' → C s a → ¬ P s')
    (hgone : ∀ s a s', step s a = some s' → ¬ P s → ¬ P s') (s : σ) (as : List α) :
    countSteps step C s as ≤ if P s then 1 else 0 :=
  countSteps_le_of_inv (I := fun _ => True) (fun _ _ _ _ _ => trivial) hneed
    (fun s a s' _ => htake s a s') (fun s a s' _ => hgone s a s') trivial as

end

/-! ## What a run puts out -/

section
variable {σ α β : Type _} (step : σ → α → Option σ) (out : σ → α → List β)

/-- What the steps of the run put out, in order. -/
def outputs : σ → List α → List β
  | _, [] => []
  | s, a :: as =>
    out s a ++
      match step s a with
      | none => []
      | some s' => outputs s' as

variable {step out}

theorem outputs_cons {s s' : σ} {a : α} (as : List α) (h : step s a = some s') :
    outputs step out s (a :: as) = out s a ++ outputs step out s' as := by
  simp only [outputs, h]

theorem outputs_stuck {s : σ} {a : α} (as : List α) (h : step s a = none) :
    outputs step out s (a :: as) = out s a := by
  simp only [outputs, h, List.append_nil]

/-- What is put out in a run is put out by one of its steps. -/
theorem mem_outputs {s : σ} {as : List α} {o : β} (h : o ∈ outputs step out s as) :
    ∃ s' a, o ∈ out s' a := by
  induction as generalizing s with
  | nil => cases h
  | cons a as ih =>
    cases hs : step s a with
    | none =>
      rw [outputs_stuck as hs] at h
      exact ⟨s, a, h⟩
    | some s' =>
      rw [outputs_cons as hs] at h
      rcases List.mem_append.1 h with h | h
      · exact ⟨s, a, h⟩
      · exact ih h

/-- A run is silent if and only if each of its steps is. -/
theorem outputs_eq_nil_iff {s s' : σ} {as : List α} (h : run step s as = some s') :
    outputs step out s as = [] ↔ EachStep step (fun s a => out s a = []) s as := by
  induction as generalizing s with
  | nil => exact iff_of_true rfl trivial
  | cons a as ih =>
    obtain ⟨s₁, h₁, h₂⟩ := run_cons_some h
    rw [outputs_cons as h₁, eachStep_cons h₁, List.append_eq_nil_iff, ih h₂]

end

/-! ## Deciding conditions on a run -/

section
variable {σ α : Type _} {step : σ → α → Option σ}

instance decidableEachStep {C : σ → α → Prop} [∀ s a, Decidable (C s a)] :
    ∀ (s : σ) (as : List α), Decidable (EachStep step C s as)
  | _, [] => isTrue trivial
  | s, a :: as =>
    match h : step s a with
    | none => decidable_of_iff (C s a) ⟨fun hC => ⟨hC, fun _ h' => by rw [h] at h'; cases h'⟩,
        And.left⟩
    | some s' =>
      have := decidableEachStep (C := C) s' as
      decidable_of_iff _ (eachStep_cons h).symm

instance decidableEachState {P : σ → Prop} [∀ s, Decidable (P s)] :
    ∀ (s : σ) (as : List α), Decidable (EachState step P s as)
  | s, [] => inferInstanceAs (Decidable (P s))
  | s, a :: as =>
    match h : step s a with
    | none => decidable_of_iff (P s) ⟨fun hP => ⟨hP, fun _ h' => by rw [h] at h'; cases h'⟩,
        And.left⟩
    | some s' =>
      have := decidableEachState (P := P) s' as
      decidable_of_iff _ (eachState_cons h).symm

instance decidableAfterEach {A : σ → α → Prop} {Q : σ → List α → Prop}
    [∀ s a, Decidable (A s a)] [∀ s as, Decidable (Q s as)] :
    ∀ (s : σ) (as : List α), Decidable (AfterEach step A Q s as)
  | _, [] => isTrue trivial
  | s, a :: as =>
    match h : step s a with
    | none => isTrue fun _ h' => by rw [h] at h'; cases h'
    | some s' =>
      have := decidableAfterEach (A := A) (Q := Q) s' as
      decidable_of_iff _ (afterEach_cons h).symm

end

/-! ## Refinement -/

/-- Every step of `step` from a state related to an abstract one is matched by a run of the
abstract system (possibly an empty one) into a related state. -/
def Refines {σ α τ β : Type _} (step : σ → α → Option σ) (astep : τ → β → Option τ)
    (R : σ → τ → Prop) : Prop :=
  ∀ s a s' t, R s t → step s a = some s' → ∃ bs t', run astep t bs = some t' ∧ R s' t'

theorem Refines.run {σ α τ β : Type _} {step : σ → α → Option σ} {astep : τ → β → Option τ}
    {R : σ → τ → Prop} (h : Refines step astep R) {s s' : σ} {t : τ} {as : List α} (hR : R s t)
    (hr : Runs.run step s as = some s') : ∃ bs t', Runs.run astep t bs = some t' ∧ R s' t' := by
  induction as generalizing s t with
  | nil => cases hr; exact ⟨[], t, rfl, hR⟩
  | cons a as ih =>
    obtain ⟨s1, h1, h2⟩ := run_cons_some hr
    obtain ⟨bs, t1, hb, hR1⟩ := h s a s1 t hR h1
    obtain ⟨cs, t', hc, hR'⟩ := ih hR1 h2
    exact ⟨bs ++ cs, t', run_trans hb hc, hR'⟩

/-- `Refines` for the steps that meet `C`. -/
def RefinesWhen {σ α τ β : Type _} (step : σ → α → Option σ) (astep : τ → β → Option τ)
    (C : σ → α → Prop) (R : σ → τ → Prop) : Prop :=
  ∀ s a s' t, R s t → C s a → step s a = some s' → ∃ bs t', run astep t bs = some t' ∧ R s' t'

theorem RefinesWhen.run {σ α τ β : Type _} {step : σ → α → Option σ} {astep : τ → β → Option τ}
    {C : σ → α → Prop} {R : σ → τ → Prop} (h : RefinesWhen step astep C R) {s s' : σ} {t : τ}
    {as : List α} (hR : R s t) (hC : EachStep step C s as) (hr : Runs.run step s as = some s') :
    ∃ bs t', Runs.run astep t bs = some t' ∧ R s' t' := by
  induction as generalizing s t with
  | nil => cases hr; exact ⟨[], t, rfl, hR⟩
  | cons a as ih =>
    obtain ⟨s1, h1, h2⟩ := run_cons_some hr
    obtain ⟨bs, t1, hb, hR1⟩ := h s a s1 t hR hC.1 h1
    obtain ⟨cs, t', hc, hR'⟩ := ih hR1 (hC.2 s1 h1) h2
    exact ⟨bs ++ cs, t', run_trans hb hc, hR'⟩

end Runs
