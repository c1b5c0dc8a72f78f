import CCNx.Lib.Runs

/-!
# A resource given back by its last holder, counted by a wrapping counter

The counter counts the holders modulo `M`; the holder whose release brings it to zero gives the
resource back. `Sound`: as long as there are fewer than `M` holders at any time, the resource is
given back once, and never under a holder. `step_ne_unused`: a resource that was ever acquired and
has no holder left has been given back.
-/

set_option autoImplicit false

namespace Lease

open Runs

/-- The resource: not there to be had (`absent`), held by `n` holders, or given back (`spent`), with
the holders that were left then and are left now, how often it was given back, and the releases
made since. -/
inductive State
  | absent
  | held (n : Nat)
  | spent (n closings late : Nat)
  deriving DecidableEq, Repr

inductive Act
  | acquire | release
  deriving DecidableEq, Repr

def step (M : Nat) : State → Act → Option State
  | .held n, .acquire => some (.held (n + 1))
  | .held (n + 1), .release => some (if n % M = 0 then .spent n 1 0 else .held n)
  | .spent (n + 1) c l, .release => some (.spent n (if n % M = 0 then c + 1 else c) (l + 1))
  | _, _ => none

def State.holders : State → Nat
  | .absent => 0
  | .held n => n
  | .spent n _ _ => n

/-- A resource given back was given back once, when nobody held it any more. -/
def Sound : State → Prop
  | .absent | .held _ => True
  | .spent n c l => n = 0 ∧ c = 1 ∧ l = 0

variable {M : Nat}

theorem Sound.next {l l' : State} {a : Act} (hs : Sound l) (hM : l.holders < M)
    (h : step M l a = some l') : Sound l' := by
  cases l with
  | absent => cases h
  | held n =>
    cases a with
    | acquire => cases h; trivial
    | release =>
      cases n with
      | zero => cases h
      | succ n =>
        simp only [step, Option.some.injEq] at h
        simp only [State.holders] at hM
        subst h
        split
        · rename_i h0
          rw [Nat.mod_eq_of_lt (by omega)] at h0
          exact ⟨h0, rfl, rfl⟩
        · trivial
  | spent n c k =>
    obtain ⟨rfl, -, -⟩ := hs
    cases a <;> cases h

/-- No step leads to a resource that is there and unused. -/
theorem step_ne_unused {l l' : State} {a : Act} (h : step M l a = some l') :
    l' ≠ .held 0 ∧ l' ≠ .absent := by
  cases l with
  | absent => cases h
  | held n =>
    cases a with
    | acquire => cases h; exact ⟨nofun, nofun⟩
    | release =>
      cases n with
      | zero => cases h
      | succ n =>
        simp only [step, Option.some.injEq] at h
        subst h
        split
        · exact ⟨nofun, nofun⟩
        · rename_i h0
          refine ⟨fun he => h0 ?_, nofun⟩
          cases he
          exact Nat.zero_mod M
  | spent n c k =>
    cases a <;> cases n <;> cases h
    exact ⟨nofun, nofun⟩

end Lease
