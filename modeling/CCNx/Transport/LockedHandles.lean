import CCNx.Transport.Atomic
import CCNx.Transport.Handles

/-!
# The libccn handles, statement by statement

The sections of `Read` are not single steps, `CCNX_Close` least of all: it gives five handles back
one after the other. `handles_safe`: between any two statements, with any number of threads below
`2 ^ 32` and with every race on `mCondition`, a thread that is to call libccn holds the current
stream, and its handles are live; none is given back twice.
-/

set_option autoImplicit false

namespace Transport.Locked

open Xpcom Runs

/-! ## The other system, with the effects of races -/

section
variable {K : FetchCodes} {s s' : Sys}

theorem step_length {a : Transport.Act} (h : Transport.step K s a = some s') :
    s'.threads.length = s.threads.length := by
  by_cases hc : ∃ t buf count, a = .readCheck t buf count
  · obtain ⟨t, buf, count, rfl⟩ := hc
    obtain ⟨pc, -, ⟨rv, -, rfl⟩ | ⟨f, -, -, -, rfl⟩⟩ := step_readCheck h <;>
      exact List.length_set
  · by_cases hr : ∃ t answers, a = .readSection t answers
    · obtain ⟨t, answers, rfl⟩ := hr
      obtain ⟨f, buf, count, st, res, -, -, rfl⟩ := step_readSection h
      exact List.length_set
    · obtain ⟨-, ht | ⟨t, pc, pc', -, -, -, ht⟩⟩ := step_quiet
        (fun t buf count he => hc ⟨t, buf, count, he⟩) (fun t answers he => hr ⟨t, answers, he⟩) h
      · rw [ht]
      · rw [ht, List.length_set]

/-- The handles are soundly leased to the readers among `n` threads. -/
def LeasedTo (n : Nat) (s : Sys) : Prop := SoundlyLeased s ∧ s.threads.length = n

theorem LeasedTo.readers_lt {n : Nat} (hL : LeasedTo n s) (hn : n < 0x100000000) :
    s.readers < 0x100000000 :=
  Nat.lt_of_le_of_lt (List.countP_le_length) (hL.2 ▸ hn)

/-- The effects of a race do not touch the handles. -/
theorem LeasedTo.next {n : Nat} (hn : n < 0x100000000) (s : Sys) (a : RacedAct) (s' : Sys)
    (hL : LeasedTo n s) (h : racedStep K s a = some s') : LeasedTo n s' := by
  obtain ⟨⟨l, hl, hsound⟩, hlen⟩ := hL
  cases a with
  | act a =>
    have hS : SoundlyLeased s := ⟨l, hl, hsound⟩
    exact ⟨hS.next (LeasedTo.readers_lt ⟨hS, hlen⟩ hn) h, (step_length h).trans hlen⟩
  | overwrite t reason =>
    simp only [racedStep] at h
    split at h
    · obtain ⟨pc, -, rfl⟩ := Option.map_eq_some_iff.1 h
      exact ⟨⟨l, ⟨hl.handles, hl.readers, hl.stream⟩, hsound⟩, hlen⟩
    · cases h
  | refuse t =>
    simp only [racedStep] at h
    split at h
    · cases h
    · obtain ⟨pc, hpc, rfl⟩ := Option.map_eq_some_iff.1 h
      obtain ⟨ht, ho⟩ := caller_eq_some.1 hpc
      refine ⟨⟨l, ⟨hl.handles, ?_, fun u f buf count hu => ?_⟩, hsound⟩, ?_⟩
      · rw [← hl.readers]
        exact Pool.countP_set_keep ht (outside_not_reading ho) rfl
      · exact hl.stream u f buf count
          ((Pool.getElem?_set_iff Pc.isReading ht (outside_not_reading ho) rfl rfl).1 hu)
      · exact List.length_set.trans hlen

end

/-! ## From the holder's place to the state at hand -/

/-- What the rest of a section does to the handles: it gives back, and hands out nothing new. -/
structure Closes (w w' : World) : Prop where
  stream : ∀ f, w'.tr.mCCNxStream = some f → w.tr.mCCNxStream = some f
  fetch : ∀ f, w'.tr.mCCNxFetch = some f → w.tr.mCCNxFetch = some f
  ccnx : ∀ f, w'.tr.mCCNx = some f → w.tr.mCCNx = some f
  destroyed : w.lib.destroyed <+: w'.lib.destroyed
  created : w'.lib.created = w.lib.created
  wrongNdn : w'.wrongNdn = w.wrongNdn

namespace Closes

theorem refl (w : World) : Closes w w :=
  ⟨fun _ h => h, fun _ h => h, fun _ h => h, List.prefix_refl _, rfl, rfl⟩

theorem trans {w₁ w₂ w₃ : World} (h : Closes w₁ w₂) (h' : Closes w₂ w₃) : Closes w₁ w₃ :=
  ⟨fun f hf => h.stream f (h'.stream f hf), fun f hf => h.fetch f (h'.fetch f hf),
    fun f hf => h.ccnx f (h'.ccnx f hf), h.destroyed.trans h'.destroyed,
    h'.created.trans h.created, h'.wrongNdn.trans h.wrongNdn⟩

theorem live {w w' : World} (h : Closes w w') {o : Obj} (ho : w'.lib.Live o) : w.lib.Live o :=
  ⟨h.created ▸ ho.1, fun hd => ho.2 (h.destroyed.subset hd)⟩

theorem destroy_prefix (l : Libccn) (o : Option Obj) : l.destroyed <+: (l.destroy o).destroyed := by
  cases o with
  | none => exact List.prefix_refl _
  | some o => exact List.prefix_append _ _

theorem destroy_created (l : Libccn) (o : Option Obj) : (l.destroy o).created = l.created := by
  cases o <;> rfl

theorem exec (w : World) (c : CloseStatement) : Closes w (c.exec w) := by
  cases c <;> refine ⟨fun f hf => ?_, fun f hf => ?_, fun f hf => ?_, ?_, ?_, rfl⟩ <;>
    first
    | exact hf
    | exact destroy_prefix _ _
    | exact destroy_created _ _
    | exact List.prefix_refl _
    | rfl
    | cases hf

theorem foldl_exec (todo : List CloseStatement) (w : World) :
    Closes w (todo.foldl CloseStatement.exec w) := by
  induction todo generalizing w with
  | nil => exact refl w
  | cons c todo ih => exact (exec w c).trans (ih _)

end Closes

theorem got_closes (s : Shared) (buf : List UInt8) (count : Nat) :
    Closes s.world (got s buf count).1.world := by
  cases hon : s.world.tr.mCCNxOnline with
  | false =>
    rw [got_offline hon]
    exact .refl _
  | true =>
    cases hs : s.world.tr.mCCNxStream with
    | none =>
      rw [got_none hs]
      exact .refl _
    | some ccnfs =>
      rw [got_some hon hs]
      exact ⟨fun _ h => h, fun _ h => h, fun _ h => h, List.prefix_refl _, rfl, rfl⟩

theorem Matches.closes {K : FetchCodes} {s s' : Shared} {i : Inside} {p : Pc}
    (h : Matches K s i s' p) : Closes s.world s'.world := by
  cases h with
  | online => exact got_closes s _ _
  | stream hon => exact got_closes s _ _
  | ref hon hs => exact got_closes s _ _
  | closing => exact Closes.foldl_exec _ _
  | _ => exact ⟨fun _ h => h, fun _ h => h, fun _ h => h, List.prefix_refl _, rfl, rfl⟩

/-! ## Every state between two statements -/

/-- `ccnfs` is the current stream, and it and the handles behind it are live. -/
def Usable (w : World) (ccnfs : Obj) : Prop :=
  w.tr.mCCNxStream = some ccnfs ∧ w.lib.Live ccnfs ∧
    (∃ c, w.tr.mCCNx = some c ∧ w.lib.Live c) ∧ ∃ g, w.tr.mCCNxFetch = some g ∧ w.lib.Live g

theorem Usable.of_closes {w w' : World} {ccnfs : Obj} (h : Closes w w') (hu : Usable w' ccnfs) :
    Usable w ccnfs := by
  obtain ⟨hs, hl, ⟨c, hc, hcl⟩, g, hg, hgl⟩ := hu
  exact ⟨h.stream _ hs, h.live hl, ⟨c, h.ccnx _ hc, h.live hcl⟩, g, h.fetch _ hg, h.live hgl⟩

structure HandlesSafe (s : State) : Prop where
  /-- An iteration of the read loop calls libccn with live handles. -/
  loop : ∀ (t : Nat) ccnfs count st, s.holder = some (t, .loop ccnfs count st) →
    Usable s.shared.world ccnfs
  /-- `CCNX_ReleaseLocked` is called with the current stream. -/
  release : ∀ (t : Nat) ccnfs res st, s.holder = some (t, .release ccnfs res st) →
    Usable s.shared.world ccnfs
  /-- A `Read` between its two sections finds its stream as it left it, whoever holds the lock. -/
  reading : ∀ (t : Nat) ccnfs buf count, s.threads[t]? = some (.reading ccnfs buf count) →
    ¬ s.Holds t → Usable s.shared.world ccnfs
  once : s.shared.world.lib.destroyed.Nodup
  assertion : s.shared.world.wrongNdn = false

/-- What the other system knows of the handles holds here, in the middle of a section too. -/
theorem HandlesSafe.of_seen {K : FetchCodes} {s : State} {x : Sys}
    (hx : Lock.Seen sys (Matches K) s x) (hok : HandlesOk K x) : HandlesSafe s := by
  cases hh : s.holder with
  | none =>
    obtain rfl := hx.of_free hh
    refine ⟨fun t f count st h => ?_, fun t f res st h => ?_,
      fun t f buf count ht _ => hok.reading t f buf count ht, hok.once, hok.assertion⟩
    · rw [hh] at h; cases h
    · rw [hh] at h; cases h
  | some k =>
    obtain ⟨u, i⟩ := k
    obtain ⟨hlt, s', p, hM, rfl⟩ := hx.of_held hh
    have hcl := hM.closes
    have hholder : ∀ f buf count, p = .reading f buf count → Usable s.shared.world f := by
      rintro f buf count rfl
      exact .of_closes hcl (hok.reading u f buf count (by simp [sys, hlt]))
    refine ⟨fun t f count st h => ?_, fun t f res st h => ?_, fun t f buf count ht hne => ?_,
      hok.once.sublist hcl.destroyed.sublist, hcl.wrongNdn.symm.trans hok.assertion⟩
    · rw [hh] at h
      cases h
      cases hM with
      | loop hle hst => exact hholder _ _ _ rfl
    · rw [hh] at h
      cases h
      cases hM with
      | release hle hst => exact hholder _ _ _ rfl
    · have hut : u ≠ t := fun he => hne (by rw [Lock.State.Holds, hh, he]; rfl)
      exact .of_closes hcl (hok.reading t f buf count (by
        simp only [sys]
        rw [List.getElem?_set_ne hut, ht]))

/-- After `Init`, whatever it returned, in every state that fewer than `2 ^ 32` threads reach
statement by statement. -/
theorem handles_safe (K : FetchCodes) (env : InitEnv) (ccnxName : String) (n : Nat)
    (hn : n < 0x100000000) (acts : List Act) (s : State)
    (h : run (Lock.step (code K)) (start env ccnxName n) acts = some s) : HandlesSafe s := by
  have hC : ∀ (s : State) (a : Act), Lock.Meets (fun _ _ _ => True) s a := by
    intro s a
    cases a with
    | inner d => exact fun _ _ => trivial
    | _ => trivial
  obtain ⟨as, x, hrun, hx⟩ := (simulates_raced K).run rfl (eachStep_of_forall hC _ _) h
  have hL : LeasedTo n x := run_inv (LeasedTo.next hn)
    ⟨soundlyLeased_start env ccnxName n, by simp [Transport.start]⟩ hrun
  exact .of_seen hx (hL.1.ok (hL.readers_lt hn))

/-- A `Read` that has given back two of the five handles. -/
def closingDown : List Act :=
  [.enter 0 (.read [0] 1), .inner none, .inner none, .inner none, .inner none, .inner none,
    .leave, .enter 0 .resume, .inner (some .ended), .inner none, .inner none, .inner none]

theorem handles_safe_closingDown :
    1 < 0x100000000 ∧ ∃ s, run (Lock.step (code fetchCodes)) (start {} "ccnx:/a" 1) closingDown =
      some s ∧ s.shared.world.lib.destroyed = [4, 2] ∧ HandlesSafe s :=
  ⟨by decide, _, rfl, rfl,
    handles_safe fetchCodes {} "ccnx:/a" 1 (by decide) closingDown _ rfl⟩

end Transport.Locked
