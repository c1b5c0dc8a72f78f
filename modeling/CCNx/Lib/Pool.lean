/-!
# Replacing one thread of a pool

A pool of threads is the list of their positions; a step of thread `t` replaces the `t`-th. What
holds of the others, how many satisfy a test, and what a projection of the pool sees, follows from
the two positions.
-/

set_option autoImplicit false

namespace Pool

variable {α : Type _} {l : List α} {t : Nat} {x y : α}

/-- A position of the new pool is the replaced one or an old one of another thread. -/
theorem getElem?_set_cases {u : Nat} {z : α} (h : (l.set t y)[u]? = some z) :
    (u = t ∧ z = y) ∨ (u ≠ t ∧ l[u]? = some z) := by
  rw [List.getElem?_set] at h
  split at h
  · rename_i he
    split at h
    · cases h; exact .inl ⟨he.symm, rfl⟩
    · cases h
  · rename_i he
    exact .inr ⟨fun hu => he hu.symm, h⟩

/-- A position of a pool with one more is an old one or the new one. -/
theorem getElem?_concat_cases {u : Nat} {z : α} (h : (l ++ [y])[u]? = some z) :
    l[u]? = some z ∨ (u = l.length ∧ z = y) := by
  rcases Nat.lt_trichotomy u l.length with hlt | rfl | hgt
  · rw [List.getElem?_append_left hlt] at h
    exact .inl h
  · rw [List.getElem?_concat_length] at h
    exact .inr ⟨rfl, (Option.some.inj h).symm⟩
  · rw [List.getElem?_eq_none (by simp; omega)] at h
    cases h

theorem getElem?_set_same (h : l[t]? = some x) : (l.set t y)[t]? = some y := by
  have := (List.getElem?_eq_some_iff.1 h).1
  simp [this]

/-- Replacing a position changes a count by what the two positions count. -/
theorem countP_set (p : α → Bool) (h : l[t]? = some x) :
    (l.set t y).countP p + (if p x then 1 else 0) = l.countP p + (if p y then 1 else 0) := by
  obtain ⟨hlt, rfl⟩ := List.getElem?_eq_some_iff.1 h
  have hle : (if p l[t] then 1 else 0) ≤ l.countP p := by
    split
    · exact List.countP_pos_iff.2 ⟨l[t], List.getElem_mem hlt, by assumption⟩
    · exact Nat.zero_le _
  rw [List.countP_set hlt]
  omega

theorem countP_set_keep {p : α → Bool} (h : l[t]? = some x) (hx : p x = false) (hy : p y = false) :
    (l.set t y).countP p = l.countP p := by
  have := countP_set (y := y) p h
  simpa [hx, hy] using this

theorem countP_set_enter {p : α → Bool} (h : l[t]? = some x) (hx : p x = false)
    (hy : p y = true) : (l.set t y).countP p = l.countP p + 1 := by
  have := countP_set (y := y) p h
  simpa [hx, hy] using this

theorem countP_set_leave {p : α → Bool} (h : l[t]? = some x) (hx : p x = true)
    (hy : p y = false) : (l.set t y).countP p + 1 = l.countP p := by
  have := countP_set (y := y) p h
  simpa [hx, hy] using this

/-- Positions that do not pass the test are exchanged without a trace in those that do. -/
theorem getElem?_set_iff (p : α → Bool) (h : l[t]? = some x) (hx : p x = false) (hy : p y = false)
    {u : Nat} {z : α} (hz : p z = true) : (l.set t y)[u]? = some z ↔ l[u]? = some z := by
  constructor
  · intro hu
    rcases getElem?_set_cases hu with ⟨-, rfl⟩ | ⟨-, hu⟩
    · rw [hy] at hz; cases hz
    · exact hu
  · intro hu
    by_cases hut : t = u
    · subst hut
      rw [h] at hu
      cases hu
      rw [hx] at hz
      cases hz
    · rwa [List.getElem?_set_ne hut]

/-! ## Replacing under a projection -/

variable {β : Type _} {f : α → α} {g : α → β}

theorem set_self (h : l[t]? = some x) : l.set t x = l := by
  obtain ⟨hlt, rfl⟩ := List.getElem?_eq_some_iff.1 h
  exact List.set_getElem_self hlt

/-- A change that the projection does not see. -/
theorem map_modify_keep (hf : ∀ x, g (f x) = g x) : (l.modify t f).map g = l.map g := by
  refine List.ext_getElem? fun u => ?_
  simp only [List.getElem?_map, List.getElem?_modify]
  cases l[u]? with
  | none => rfl
  | some x =>
    simp only [Option.map_eq_map, Option.map_some]
    split
    · rw [hf]
    · rfl

theorem map_modify_set (h : l[t]? = some x) : (l.modify t f).map g = (l.map g).set t (g (f x)) := by
  obtain ⟨hlt, rfl⟩ := List.getElem?_eq_some_iff.1 h
  refine List.ext_getElem? fun u => ?_
  rw [List.getElem?_map, List.getElem?_modify, List.getElem?_set, List.length_map]
  by_cases hu : t = u
  · subst hu
    simp [hlt]
  · simp [hu]

end Pool
