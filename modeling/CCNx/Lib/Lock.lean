import CCNx.Lib.Pool
import CCNx.Lib.Runs

/-!
# Threads around one lock, statement by statement

The threads of a pool work on one shared state. Under the lock a thread executes statements one by
one (`inner`), between taking the lock (`enter`) and dropping it (`leave`); what it does without
the lock is `outer`, and other threads may do it while the lock is held.

`Simulates`: the code seen from a system in which each section is a single step. `M w i w' p` says
how a holder at `i` looks from there: as a thread at `p` with the shared state `w'`, in which its
section has taken effect already or not yet. Every run is then a run of that system
(`Simulates.run`), and where nobody holds the lock the two agree.
-/

set_option autoImplicit false

namespace Lock

open Runs

/-- What the threads do: `ω` is the shared state, `π` a position outside the lock and `ι` one
inside; the last arguments are what the environment decides. -/
structure Code (ω π ι ε δ γ : Type _) where
  enter : π → ε → Option ι
  inner : ω → ι → δ → Option (ω × ι)
  leave : ι → Option π
  outer : ω → π → γ → Option (ω × π)

/-- The positions outside the lock, that of the holder being where it took the lock. -/
structure State (ω π ι : Type _) where
  shared : ω
  threads : List π
  holder : Option (Nat × ι) := none

inductive Act (ε δ γ : Type _)
  | enter (t : Nat) (e : ε)
  | inner (d : δ)
  | leave
  | outer (t : Nat) (g : γ)

section
variable {ω π ι ε δ γ : Type _} (P : Code ω π ι ε δ γ)

def State.Holds (s : State ω π ι) (t : Nat) : Prop := s.holder.map Prod.fst = some t

instance (s : State ω π ι) (t : Nat) : Decidable (s.Holds t) :=
  inferInstanceAs (Decidable (s.holder.map Prod.fst = some t))

def step (s : State ω π ι) : Act ε δ γ → Option (State ω π ι)
  | .enter t e =>
    match s.holder, s.threads[t]? with
    | none, some p => (P.enter p e).map fun i => { s with holder := some (t, i) }
    | _, _ => none
  | .inner d =>
    match s.holder with
    | some (t, i) =>
      (P.inner s.shared i d).map fun r => { s with shared := r.1, holder := some (t, r.2) }
    | none => none
  | .leave =>
    match s.holder with
    | some (t, i) =>
      (P.leave i).map fun p => { s with threads := s.threads.set t p, holder := none }
    | none => none
  | .outer t g =>
    if s.Holds t then none
    else
      match s.threads[t]? with
      | some p =>
        (P.outer s.shared p g).map fun r =>
          { s with shared := r.1, threads := s.threads.set t r.2 }
      | none => none

/-- The statement that the holder is about to execute meets `C`. -/
def Meets (C : ω → ι → δ → Prop) (s : State ω π ι) : Act ε δ γ → Prop
  | .inner d => ∀ h ∈ s.holder, C s.shared h.2 d
  | _ => True

instance {C : ω → ι → δ → Prop} [∀ w i d, Decidable (C w i d)] (s : State ω π ι) :
    ∀ a : Act ε δ γ, Decidable (Meets C s a)
  | .inner _ => Option.decidableForallMem _
  | .enter _ _ | .leave | .outer _ _ => isTrue trivial

end

/-! ## What a step does -/

section
variable {ω π ι ε δ γ : Type _} {P : Code ω π ι ε δ γ} {s s' : State ω π ι}

theorem step_enter {t : Nat} {e : ε} (h : step P s (.enter t e) = some s') :
    ∃ p i, s.holder = none ∧ s.threads[t]? = some p ∧ P.enter p e = some i ∧
      s' = { s with holder := some (t, i) } := by
  simp only [step] at h
  split at h
  · rename_i p hh hp
    obtain ⟨i, hi, rfl⟩ := Option.map_eq_some_iff.1 h
    exact ⟨p, i, hh, hp, hi, rfl⟩
  · cases h

theorem step_inner {d : δ} (h : step P s (.inner d) = some s') :
    ∃ t i w i', s.holder = some (t, i) ∧ P.inner s.shared i d = some (w, i') ∧
      s' = { s with shared := w, holder := some (t, i') } := by
  simp only [step] at h
  split at h
  · rename_i t i hh
    obtain ⟨⟨w, i'⟩, hi, rfl⟩ := Option.map_eq_some_iff.1 h
    exact ⟨t, i, w, i', hh, hi, rfl⟩
  · cases h

theorem step_leave (h : step P s (.leave : Act ε δ γ) = some s') :
    ∃ t i p, s.holder = some (t, i) ∧ P.leave i = some p ∧
      s' = { s with threads := s.threads.set t p, holder := none } := by
  simp only [step] at h
  split at h
  · rename_i t i hh
    obtain ⟨p, hp, rfl⟩ := Option.map_eq_some_iff.1 h
    exact ⟨t, i, p, hh, hp, rfl⟩
  · cases h

theorem step_outer {t : Nat} {g : γ} (h : step P s (.outer t g) = some s') :
    ∃ p w p', ¬ s.Holds t ∧ s.threads[t]? = some p ∧ P.outer s.shared p g = some (w, p') ∧
      s' = { s with shared := w, threads := s.threads.set t p' } := by
  simp only [step] at h
  split at h
  · cases h
  · rename_i hh
    split at h
    · rename_i p hp
      obtain ⟨⟨w, p'⟩, ho, rfl⟩ := Option.map_eq_some_iff.1 h
      exact ⟨p, w, p', hh, hp, ho, rfl⟩
    · cases h

end

/-! ## Sections as single steps -/

section
variable {ω π ι ε δ γ τ β : Type _}

/-- The sections of `P`, for statements that meet `C`, are single steps of `astep`: the holder's
place in that system, `M`, starts out where it took the lock, moves by runs of `astep` as the
holder executes its statements, and is the holder's own when it drops the lock. What others do
meanwhile, they do in that system as well. -/
structure Simulates (P : Code ω π ι ε δ γ) (astep : τ → β → Option τ) (abs : ω → List π → τ)
    (C : ω → ι → δ → Prop) (M : ω → ι → ω → π → Prop) : Prop where
  enter : ∀ w p e i, P.enter p e = some i → M w i w p
  inner : ∀ w i d w₁ i₁ w' p ps (t : Nat), M w i w' p → ps[t]? = some p → C w i d →
    P.inner w i d = some (w₁, i₁) →
    ∃ w₁' p₁ bs, M w₁ i₁ w₁' p₁ ∧ run astep (abs w' ps) bs = some (abs w₁' (ps.set t p₁))
  leave : ∀ w i p w' p', P.leave i = some p → M w i w' p' → w' = w ∧ p' = p
  outer : ∀ w p g w₁ p₁ ps (t : Nat), P.outer w p g = some (w₁, p₁) → ps[t]? = some p →
    ∃ bs, run astep (abs w ps) bs = some (abs w₁ (ps.set t p₁))
  commute : ∀ w i w' p q g w₁ q₁, M w i w' p → P.outer w q g = some (w₁, q₁) →
    ∃ w₁', P.outer w' q g = some (w₁', q₁) ∧ M w₁ i w₁' p

/-- The state that `astep` is in. -/
def Seen (abs : ω → List π → τ) (M : ω → ι → ω → π → Prop) (s : State ω π ι) (a : τ) : Prop :=
  match s.holder with
  | none => a = abs s.shared s.threads
  | some (t, i) => t < s.threads.length ∧ ∃ w p, M s.shared i w p ∧ a = abs w (s.threads.set t p)

variable {P : Code ω π ι ε δ γ} {astep : τ → β → Option τ} {abs : ω → List π → τ}
  {C : ω → ι → δ → Prop} {M : ω → ι → ω → π → Prop}

theorem Seen.of_free {s : State ω π ι} {a : τ} (h : Seen abs M s a) (hf : s.holder = none) :
    a = abs s.shared s.threads := by
  simpa only [Seen, hf] using h

theorem Seen.of_held {s : State ω π ι} {a : τ} {t : Nat} {i : ι} (h : Seen abs M s a)
    (hh : s.holder = some (t, i)) :
    t < s.threads.length ∧ ∃ w p, M s.shared i w p ∧ a = abs w (s.threads.set t p) := by
  simpa only [Seen, hh] using h

theorem Simulates.refines (hS : Simulates P astep abs C M) :
    RefinesWhen (step P) astep (Meets C) (Seen abs M) := by
  intro s a s' x hx hC h
  cases a with
  | enter t e =>
    obtain ⟨p, i, hh, hp, hi, rfl⟩ := step_enter h
    obtain rfl := hx.of_free hh
    have hlt : t < s.threads.length := (List.getElem?_eq_some_iff.1 hp).1
    exact ⟨[], _, rfl, hlt, s.shared, p, hS.enter _ _ _ _ hi, by rw [Pool.set_self hp]⟩
  | inner d =>
    obtain ⟨t, i, w, i', hh, hi, rfl⟩ := step_inner h
    obtain ⟨hlt, w', p, hM, rfl⟩ := hx.of_held hh
    have hp : (s.threads.set t p)[t]? = some p := by simp [hlt]
    obtain ⟨w₁', p₁, bs, hM₁, hrun⟩ := hS.inner _ _ _ _ _ _ _ _ _ hM hp (hC _ hh) hi
    rw [List.set_set] at hrun
    exact ⟨bs, _, hrun, hlt, w₁', p₁, hM₁, rfl⟩
  | leave =>
    obtain ⟨t, i, p, hh, hp, rfl⟩ := step_leave h
    obtain ⟨hlt, w', p', hM, rfl⟩ := hx.of_held hh
    obtain ⟨rfl, rfl⟩ := hS.leave _ _ _ _ _ hp hM
    exact ⟨[], _, rfl, rfl⟩
  | outer t g =>
    obtain ⟨q, w, q', hne, hq, ho, rfl⟩ := step_outer h
    cases hh : s.holder with
    | none =>
      obtain rfl := hx.of_free hh
      obtain ⟨bs, hrun⟩ := hS.outer _ _ _ _ _ _ _ ho hq
      exact ⟨bs, _, hrun, by simp only [Seen]⟩
    | some k =>
      obtain ⟨u, i⟩ := k
      obtain ⟨hlt, w', p, hM, rfl⟩ := hx.of_held hh
      have hut : u ≠ t := fun he => hne (by rw [State.Holds, hh, he]; rfl)
      obtain ⟨w₁', ho', hM'⟩ := hS.commute _ _ _ _ _ _ _ _ hM ho
      -- the other thread is where it was, since only the holder's place differs
      have hq' : (s.threads.set u p)[t]? = some q := by rw [List.getElem?_set_ne hut, hq]
      obtain ⟨bs, hrun⟩ := hS.outer _ _ _ _ _ _ _ ho' hq'
      rw [List.set_comm _ _ hut] at hrun
      refine ⟨bs, _, hrun, ?_⟩
      simp only [Seen, List.length_set]
      exact ⟨hlt, w₁', p, hM', rfl⟩

/-- A run of the statements, from a state in which nobody holds the lock. -/
theorem Simulates.run (hS : Simulates P astep abs C M) {s s' : State ω π ι}
    {acts : List (Act ε δ γ)} (hf : s.holder = none)
    (hC : EachStep (step P) (Meets C) s acts) (h : Runs.run (step P) s acts = some s') :
    ∃ bs a, Runs.run astep (abs s.shared s.threads) bs = some a ∧ Seen abs M s' a :=
  hS.refines.run (by simp only [Seen, hf]) hC h

end

/-! ## The holder is never stuck -/

section
variable {ω π ι ε δ γ : Type _} {P : Code ω π ι ε δ γ}

/-- If each position inside has a statement that brings the end of the section nearer, the holder
can drop the lock by itself. -/
theorem exists_leave {m : ι → Nat}
    (hm : ∀ w i, P.leave i = none → ∃ d w' i', P.inner w i d = some (w', i') ∧ m i' < m i)
    {s : State ω π ι} {t : Nat} {i : ι} (hh : s.holder = some (t, i)) :
    ∃ ds : List δ, ds.length ≤ m i ∧ ∃ s',
      run (step P) s (ds.map Act.inner ++ [Act.leave]) = some s' ∧ s'.holder = none := by
  generalize hn : m i = n
  induction n using Nat.strongRecOn generalizing s i with
  | ind n ih =>
    subst hn
    cases hl : P.leave i with
    | some p =>
      refine ⟨[], Nat.zero_le _, { s with threads := s.threads.set t p, holder := none }, ?_, rfl⟩
      simp only [List.map_nil, List.nil_append, run_cons, step, hh, hl, Option.map_some,
        Option.bind_some, run_nil]
    | none =>
      obtain ⟨d, w, i', hi, hlt⟩ := hm s.shared i hl
      obtain ⟨ds, hlen, s', hrun, hfree⟩ :=
        ih (m i') hlt (s := { s with shared := w, holder := some (t, i') }) rfl rfl
      refine ⟨d :: ds, by simp only [List.length_cons]; omega, s', ?_, hfree⟩
      rw [List.map_cons, List.cons_append, run_cons]
      simp only [step, hh, hi, Option.map_some, Option.bind_some]
      exact hrun

end

end Lock
