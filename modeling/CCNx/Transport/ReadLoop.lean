import CCNx.Transport.Read

/-!
# What the read loop does

One iteration changes the local state by `ReadSt.iter` and ends the loop or not (`Answer.ends`),
both read off the answers of that iteration alone. `readLoop_eq_some`: the loop ends with `res`
exactly if the answers are some that go on, then one that ends it with `res`; its state is then
that of all these iterations in turn (`iterAll`). The rest are the effects of the iterations on
the buffer, on `*countRead` and on the content delivered.
-/

set_option autoImplicit false

namespace Transport

open Xpcom Overlay

variable (K : FetchCodes) (count : Nat)

/-- The value of `res` with which the loop ends in an iteration with these answers, if it does. -/
def Answer.ends (a : Answer) : Option Int :=
  if a.read.res = 0 then some 0
  else if 0 < a.read.res then none
  else if a.read.res = K.readNone then none
  else if a.read.res = K.readTimeout then if a.run < 0 then some K.readNone else none
  else some a.read.res

/-- The local state after an iteration with these answers. -/
def ReadSt.iter (st : ReadSt) (a : Answer) : ReadSt :=
  let st := st.fetched count a.read
  if a.read.res = 0 then st
  else if 0 < a.read.res then st.advance a.read.res
  else if a.read.res = K.readNone then st.ran a.run
  else if a.read.res = K.readTimeout then st.timeoutReset.ran a.run
  else st

/-- The local state after iterations with these answers. -/
def ReadSt.iterAll (st : ReadSt) (answers : List Answer) : ReadSt :=
  answers.foldl (fun st a => st.iter K count a) st

@[simp] theorem readLoop_nil (st : ReadSt) : readLoop K count [] st = none := rfl

theorem readLoop_cons (a : Answer) (rest : List Answer) (st : ReadSt) :
    readLoop K count (a :: rest) st =
      match a.ends K with
      | some res => some (st.iter K count a, res, rest)
      | none => readLoop K count rest (st.iter K count a) := by
  simp only [readLoop, Answer.ends, ReadSt.iter]
  by_cases h0 : a.read.res = 0
  · simp [h0]
  · by_cases hp : 0 < a.read.res
    · simp [h0, hp]
    · by_cases hn : a.read.res = K.readNone
      · have := K.none_neg
        simp [hn, show K.readNone ≠ 0 by omega, show ¬ 0 < K.readNone by omega]
      · by_cases ht : a.read.res = K.readTimeout
        · have := K.timeout_neg
          by_cases hr : a.run < 0 <;>
            simp [ht, hr, K.ne.symm, show K.readTimeout ≠ 0 by omega,
              show ¬ 0 < K.readTimeout by omega]
        · simp [h0, hp, hn, ht]

/-- The loop ends with `res` at the first answers that end it, after those that go on. -/
theorem readLoop_eq_some {answers rest : List Answer} {st st' : ReadSt} {res : Int} :
    readLoop K count answers st = some (st', res, rest) ↔
      ∃ pre last, answers = pre ++ last :: rest ∧ (∀ a ∈ pre, a.ends K = none) ∧
        last.ends K = some res ∧ st' = st.iterAll K count (pre ++ [last]) := by
  induction answers generalizing st with
  | nil => simp
  | cons a answers ih =>
    rw [readLoop_cons]
    cases he : a.ends K with
    | some r =>
      simp only [Option.some.injEq, Prod.mk.injEq]
      constructor
      · rintro ⟨rfl, rfl, rfl⟩
        exact ⟨[], a, rfl, by simp, he, rfl⟩
      · rintro ⟨pre, last, happ, hpre, hlast, rfl⟩
        cases pre with
        | nil =>
          cases happ
          rw [he] at hlast
          cases hlast
          exact ⟨rfl, rfl, rfl⟩
        | cons b pre =>
          cases happ
          rw [hpre a List.mem_cons_self] at he
          cases he
    | none =>
      simp only
      rw [ih]
      constructor
      · rintro ⟨pre, last, rfl, hpre, hlast, rfl⟩
        refine ⟨a :: pre, last, rfl, fun b hb => ?_, hlast, rfl⟩
        rcases List.mem_cons.1 hb with rfl | hb
        · exact he
        · exact hpre b hb
      · rintro ⟨pre, last, happ, hpre, hlast, rfl⟩
        cases pre with
        | nil =>
          cases happ
          rw [he] at hlast
          cases hlast
        | cons b pre =>
          cases happ
          exact ⟨pre, last, rfl, fun c hc => hpre c (List.mem_cons_of_mem _ hc), hlast, rfl⟩

/-- The loop still goes on when the answers are used up exactly if each of them goes on. -/
theorem readLoop_eq_none {answers : List Answer} {st : ReadSt} :
    readLoop K count answers st = none ↔ ∀ a ∈ answers, a.ends K = none := by
  induction answers generalizing st with
  | nil => simp
  | cons a answers ih =>
    rw [readLoop_cons]
    cases he : a.ends K with
    | some res => simp [he]
    | none => simp [he, ih]

/-- Where the loop ends, and with what, does not depend on its local state. -/
theorem readLoop_of_readLoop {answers rest : List Answer} {st₁ st₁' : ReadSt} {res : Int}
    (st₂ : ReadSt) (h : readLoop K count answers st₁ = some (st₁', res, rest)) :
    ∃ st₂', readLoop K count answers st₂ = some (st₂', res, rest) := by
  obtain ⟨pre, last, happ, hpre, hlast, -⟩ := (readLoop_eq_some K count).1 h
  exact ⟨_, (readLoop_eq_some K count).2 ⟨pre, last, happ, hpre, hlast, rfl⟩⟩

/-! ## The effects of an iteration -/

/-- The content bytes that each of the answers delivers. -/
def chunks (answers : List Answer) : List (List UInt8) := answers.map (·.read.bytes)

theorem bytes_isEmpty (r : FetchRead) : r.bytes.isEmpty = true ↔ r.res ≤ 0 := by
  rw [List.isEmpty_iff, ← List.length_eq_zero_iff, r.stored]
  omega

variable (st : ReadSt) (a : Answer)

/-- An iteration fetches, and then stores what it got, or lets libccn run, or does neither. -/
theorem iter_cases :
    (a.read.res = 0 ∧ st.iter K count a = st.fetched count a.read) ∨
      (0 < a.read.res ∧ st.iter K count a = (st.fetched count a.read).advance a.read.res) ∨
      (a.read.res < 0 ∧
        ((a.read.res = K.readNone ∧ st.iter K count a = (st.fetched count a.read).ran a.run) ∨
          (a.read.res = K.readTimeout ∧
            st.iter K count a = (st.fetched count a.read).timeoutReset.ran a.run) ∨
          (a.read.res ≠ K.readNone ∧ a.read.res ≠ K.readTimeout ∧
            st.iter K count a = st.fetched count a.read))) := by
  unfold ReadSt.iter
  by_cases h0 : a.read.res = 0
  · exact .inl ⟨h0, if_pos h0⟩
  · by_cases hp : 0 < a.read.res
    · exact .inr (.inl ⟨hp, by rw [if_neg h0, if_pos hp]⟩)
    · refine .inr (.inr ⟨by omega, ?_⟩)
      rw [if_neg h0, if_neg hp]
      by_cases hn : a.read.res = K.readNone
      · exact .inl ⟨hn, if_pos hn⟩
      · rw [if_neg hn]
        by_cases ht : a.read.res = K.readTimeout
        · exact .inr (.inl ⟨ht, if_pos ht⟩)
        · exact .inr (.inr ⟨hn, ht, if_neg ht⟩)

theorem iter_buf : (st.iter K count a).buf = put st.buf a.read.bytes := by
  rcases iter_cases K count st a with ⟨-, h⟩ | ⟨-, h⟩ | ⟨-, ⟨-, h⟩ | ⟨-, h⟩ | ⟨-, -, h⟩⟩ <;>
    rw [h] <;> rfl

theorem iter_delivered :
    delivered (st.iter K count a).calls = delivered st.calls ++ a.read.bytes := by
  rcases iter_cases K count st a with ⟨-, h⟩ | ⟨-, h⟩ | ⟨-, ⟨-, h⟩ | ⟨-, h⟩ | ⟨-, -, h⟩⟩ <;> rw [h]
  · simp [ReadSt.fetched, delivered]
  · simp [ReadSt.fetched, ReadSt.advance, delivered]
  · simp [ReadSt.fetched, ReadSt.ran, delivered]
  · simp [ReadSt.fetched, ReadSt.ran, ReadSt.timeoutReset, delivered]
  · simp [ReadSt.fetched, delivered]

/-- The calls into libccn with which an iteration follows its `ccn_fetch_read` up. -/
def Answer.followUp (a : Answer) : List Call :=
  if 0 ≤ a.read.res then []
  else if a.read.res = K.readNone then [.run a.run]
  else if a.read.res = K.readTimeout then [.resetTimeout, .run a.run]
  else []

theorem iter_calls :
    (st.iter K count a).calls = st.calls ++ .fetchRead count a.read :: a.followUp K := by
  unfold Answer.followUp
  rcases iter_cases K count st a with ⟨h0, h⟩ | ⟨hp, h⟩ | ⟨hneg, hcases⟩
  · rw [h, if_pos (Int.le_of_eq h0.symm)]
    rfl
  · rw [h, if_pos (Int.le_of_lt hp)]
    rfl
  · rw [if_neg (Int.not_le.2 hneg)]
    rcases hcases with ⟨hn, h⟩ | ⟨ht, h⟩ | ⟨hn, ht, h⟩
    · rw [h, if_pos hn]
      simp [ReadSt.fetched, ReadSt.ran]
    · rw [h, if_neg (by rw [ht]; exact K.ne.symm), if_pos ht]
      simp [ReadSt.fetched, ReadSt.ran, ReadSt.timeoutReset]
    · rw [h, if_neg hn, if_neg ht]
      rfl

theorem iter_countRead (h : st.countRead < 0x100000000) :
    (st.iter K count a).countRead = (st.countRead + a.read.bytes.length) % 0x100000000 := by
  have hkeep : ¬ 0 < a.read.res →
      (st.countRead + a.read.bytes.length) % 0x100000000 = st.countRead := fun hp => by
    rw [a.read.stored, show a.read.res.toNat = 0 by omega, Nat.add_zero, Nat.mod_eq_of_lt h]
  rcases iter_cases K count st a with ⟨h0, hi⟩ | ⟨-, hi⟩ | ⟨hn, ⟨-, hi⟩ | ⟨-, hi⟩ | ⟨-, -, hi⟩⟩ <;>
    rw [hi]
  · exact (hkeep (by omega)).symm
  · rw [a.read.stored]
    rfl
  all_goals
    rw [hkeep (by omega)]
    rfl

/-! ## The effects of the iterations together -/

variable (answers : List Answer)

theorem iterAll_cons :
    st.iterAll K count (a :: answers) = (st.iter K count a).iterAll K count answers := rfl

theorem iterAll_buf : (st.iterAll K count answers).buf = puts st.buf (chunks answers) := by
  induction answers generalizing st with
  | nil => rfl
  | cons a answers ih => rw [iterAll_cons, ih, iter_buf]; rfl

theorem iterAll_delivered :
    delivered (st.iterAll K count answers).calls =
      delivered st.calls ++ (chunks answers).flatten := by
  induction answers generalizing st with
  | nil => simp [ReadSt.iterAll, chunks]
  | cons a answers ih => rw [iterAll_cons, ih, iter_delivered]; simp [chunks]

theorem iterAll_calls :
    (st.iterAll K count answers).calls =
      st.calls ++ answers.flatMap fun a => .fetchRead count a.read :: a.followUp K := by
  induction answers generalizing st with
  | nil => simp [ReadSt.iterAll]
  | cons a answers ih => rw [iterAll_cons, ih, iter_calls]; simp

theorem iterAll_countRead (h : st.countRead < 0x100000000) :
    (st.iterAll K count answers).countRead =
      (st.countRead + (chunks answers).flatten.length) % 0x100000000 := by
  induction answers generalizing st with
  | nil => simp [ReadSt.iterAll, chunks, Nat.mod_eq_of_lt h]
  | cons a answers ih =>
    have hc := iter_countRead K count st a h
    rw [iterAll_cons, ih _ (by rw [hc]; exact Nat.mod_lt _ (by decide)), hc]
    simp only [chunks, List.map_cons, List.flatten_cons, List.length_append]
    omega

/-! ## The call around the loop -/

/-- Transport and libccn after a `Read` has taken the fetch stream and given it back. -/
def World.givenBack (w : World) (ccnfs : Obj) : World :=
  World.ccnxReleaseLocked
    { w with tr := { w.tr with mCCNxRef := (w.tr.mCCNxRef + 1) % 0x100000000 } } ccnfs

/-- The count is as it was, and at zero the transport's objects have been closed. -/
theorem World.givenBack_count {w : World} (href : w.tr.mCCNxRef < 0x100000000) (ccnfs : Obj) :
    (w.givenBack ccnfs).tr.mCCNxRef = w.tr.mCCNxRef ∧
      (w.tr.mCCNxRef = 0 →
        (w.givenBack ccnfs).tr.mCCNxStream = none ∧ (w.givenBack ccnfs).closes = w.closes + 1) := by
  have hpred : World.predU32 ((w.tr.mCCNxRef + 1) % 0x100000000) = w.tr.mCCNxRef := by
    rw [World.predU32_succ, Nat.mod_eq_of_lt href]
  simp only [World.givenBack, World.ccnxReleaseLocked, hpred]
  split
  · exact ⟨rfl, fun _ => ⟨rfl, rfl⟩⟩
  · rename_i hne
    exact ⟨rfl, fun h0 => absurd h0 hne⟩

/-- The fetch stream given back is the transport's, as the assertion wants it. -/
theorem World.givenBack_wrongNdn {w : World} {f : Obj} (hstream : w.tr.mCCNxStream = some f) :
    (w.givenBack f).wrongNdn = w.wrongNdn := by
  simp only [World.givenBack, World.ccnxReleaseLocked, hstream, bne_self_eq_false, Bool.or_false]
  split <;> rfl

section
variable {K : FetchCodes} {w : World} {f : Obj} {count : Nat} {answers : List Answer}
  (hcond : nsFailed w.tr.mInput.mCondition = false) (honline : w.tr.mCCNxOnline = true)
  (hstream : w.tr.mCCNxStream = some f)
include hcond honline hstream

/-- `Read` on an open stream is its loop between taking and giving back the fetch stream, and the
status that stands for the `res` with which the loop ended. -/
theorem read_open (buf : List UInt8) :
    read K w buf count answers =
      (readLoop K count answers { buf }).map fun (st, res, rest) =>
        { rv := errorAccordingToCCNX K res, st, rest
          world := { w.givenBack f with
            tr := readStore K (w.givenBack f).tr res st.countRead } } := by
  simp only [read, readCheck_open hcond honline hstream, readSection, Option.map_map]
  rfl

/-- `Read` ends, with nothing of the script left, exactly if its loop does, and its buffer, its
count and its calls are the loop's. -/
theorem read_eq_loop {buf : List UInt8} {out : ReadOut}
    (h : read K w buf count answers = some out) :
    ∃ res, readLoop K count answers { buf } = some (out.st, res, out.rest) := by
  simp only [read, readCheck_open hcond honline hstream, readSection, Option.map_map,
    Option.map_eq_some_iff, Function.comp] at h
  obtain ⟨⟨st, res, rest⟩, hloop, rfl⟩ := h
  exact ⟨res, hloop⟩

theorem read_of_loop {buf : List UInt8} {st : ReadSt} {res : Int} {rest : List Answer}
    (h : readLoop K count answers { buf } = some (st, res, rest)) :
    ∃ out, read K w buf count answers = some out ∧ out.st = st ∧ out.rest = rest := by
  simp [read, readCheck_open hcond honline hstream, readSection, h]

end

end Transport
