import CCNx.Lib.Runs

/-!
# A slot for one thing

What is put into the slot replaces what is in it; what is taken has to fit what is in it, and leaves
the slot empty. So a take directly follows the put of the thing it takes (`take_after_put`): what is
put is taken at most once (`takes_le_one`), and what was replaced is not taken any more
(`taken_since`).
-/

set_option autoImplicit false

namespace Slot

open Runs

inductive Op (α β : Type _)
  | put (x : α)
  | take (y : β)
  deriving DecidableEq, Repr

variable {α β : Type _}

def Op.isTake : Op α β → Bool
  | .put _ => false
  | .take _ => true

/-- `fits x y`: with `x` in the slot, `y` may be taken. -/
def step (empty : α) (fits : α → β → Bool) : α → Op α β → Option α
  | _, .put x => some x
  | x, .take y => if fits x y then some empty else none

/-- What the operations leave in a slot that held `x`. -/
def content (empty x : α) (ops : List (Op α β)) : α :=
  match ops.getLast? with
  | none => x
  | some (.put z) => z
  | some (.take _) => empty

variable {empty x x' z : α} {y : β} {fits : α → β → Bool} {pre mid post ops : List (Op α β)}

theorem step_take (h : step empty fits x (.take y) = some x') :
    fits x y = true ∧ x' = empty := by
  simp only [step] at h
  split at h
  · rename_i hfits
    cases h
    exact ⟨hfits, rfl⟩
  · cases h

/-- The last operation decides what is in the slot. -/
theorem run_content (h : run (step empty fits) x ops = some x') : x' = content empty x ops := by
  rcases ops.eq_nil_or_concat with rfl | ⟨init, op, rfl⟩
  · cases h
    rfl
  · rw [List.concat_eq_append] at h ⊢
    obtain ⟨x₁, -, hop⟩ := run_concat_some h
    rw [content, List.getLast?_concat]
    cases op with
    | put z => cases hop; rfl
    | take y => exact (step_take hop).2

/-- What is taken was put there by the operation right before. -/
theorem take_after_put (hempty : ∀ y, fits empty y = false)
    (h : run (step empty fits) empty (pre ++ .take y :: post) = some x) :
    ∃ pre' z, pre = pre' ++ [.put z] ∧ fits z y = true := by
  obtain ⟨x₁, hpre, hrest⟩ := run_append_some h
  obtain ⟨x₂, htake, -⟩ := run_cons_some hrest
  obtain ⟨hfits, -⟩ := step_take htake
  rcases pre.eq_nil_or_concat with rfl | ⟨pre', op, rfl⟩
  · cases hpre
    exact absurd hfits (by simp [hempty])
  · rw [List.concat_eq_append] at hpre ⊢
    obtain ⟨x₀, -, hop⟩ := run_concat_some hpre
    cases op with
    | put z => cases hop; exact ⟨pre', _, rfl, hfits⟩
    | take y' =>
      obtain ⟨-, rfl⟩ := step_take hop
      exact absurd hfits (by simp [hempty])

/-- Between a put and the next there is one take at most. -/
theorem takes_le_one (hempty : ∀ y, fits empty y = false)
    (h : run (step empty fits) empty (pre ++ .put z :: (mid ++ post)) = some x)
    (hmid : ∀ op ∈ mid, op.isTake = true) : mid.length ≤ 1 := by
  match mid with
  | [] => exact Nat.zero_le 1
  | [_] => exact Nat.le_refl 1
  | a :: .put z' :: rest => cases hmid (.put z') (by simp)
  | a :: .take y :: rest =>
    have he : pre ++ .put z :: (a :: .take y :: rest ++ post) =
        (pre ++ [.put z] ++ [a]) ++ .take y :: (rest ++ post) := by simp
    rw [he] at h
    obtain ⟨pre', z', hlast, -⟩ := take_after_put hempty h
    -- the operation before the second take is the first
    obtain ⟨-, ha⟩ := List.append_inj' hlast rfl
    cases ha
    cases hmid (.put z') List.mem_cons_self

/-- What is taken after a put was put by it or later. -/
theorem taken_since (hempty : ∀ y, fits empty y = false)
    (h : run (step empty fits) empty (pre ++ .put z :: post) = some x)
    (hy : .take y ∈ post) : ∃ z', .put z' ∈ .put z :: post ∧ fits z' y = true := by
  obtain ⟨mid, rest, rfl⟩ := List.append_of_mem hy
  have he : pre ++ .put z :: (mid ++ .take y :: rest) =
      (pre ++ .put z :: mid) ++ .take y :: rest := by simp
  rw [he] at h
  obtain ⟨pre', z', hlast, hfits⟩ := take_after_put hempty h
  have hget : (.put z :: mid : List (Op α β)).getLast? = some (.put z') := by
    have hget := congrArg List.getLast? hlast
    rwa [List.getLast?_append, List.getLast?_cons, Option.some_or, ← List.getLast?_cons,
      List.getLast?_concat] at hget
  exact ⟨z', List.mem_append_left (Op.take y :: rest) (List.mem_of_getLast? hget), hfits⟩

end Slot
