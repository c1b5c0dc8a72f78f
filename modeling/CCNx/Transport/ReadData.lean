import CCNx.Transport.ReadLoop

/-!
# Does Read deliver the bytes it was given?

Neither the pointer nor the length that `Read` gives to `ccn_fetch_read` moves with `*countRead`,
so every chunk is stored over the one before it. `read_faithful_iff`: whatever the caller's buffer
held before, `Read` delivers the content exactly if at most one `ccn_fetch_read` of the call had a
positive result; `read_overwrites` is a call with two of them.
-/

set_option autoImplicit false

namespace Transport

open Xpcom Overlay

/-- `*countRead` is within the buffer, and the buffer starts with exactly the content bytes that
the `ccn_fetch_read` calls of this `Read` delivered, in order. -/
structure Faithful (count : Nat) (out : ReadOut) : Prop where
  bound : out.st.countRead ≤ count
  bytes : out.st.buf.take out.st.countRead = delivered out.st.calls

section
variable {K : FetchCodes} {w : World} {f : Obj} {count : Nat} {answers : List Answer}
  (hcond : nsFailed w.tr.mInput.mCondition = false) (honline : w.tr.mCCNxOnline = true)
  (hstream : w.tr.mCCNxStream = some f)
include hcond honline hstream

/-- What a call of `Read` that uses up the whole script has done to the buffer and the count. -/
theorem read_effects {buf : List UInt8} {out : ReadOut}
    (h : read K w buf count answers = some out) (hrest : out.rest = []) :
    out.st.buf = puts buf (chunks answers) ∧
      out.st.countRead = (chunks answers).flatten.length % 0x100000000 ∧
      delivered out.st.calls = (chunks answers).flatten := by
  obtain ⟨res, hloop⟩ := read_eq_loop hcond honline hstream h
  obtain ⟨pre, last, happ, -, -, hst⟩ := (readLoop_eq_some K count).1 hloop
  rw [hrest] at happ
  rw [← happ] at hst
  rw [hst]
  refine ⟨iterAll_buf K count _ _, ?_, ?_⟩
  · rw [iterAll_countRead K count _ _ (by simp)]; simp
  · rw [iterAll_delivered]; rfl

end

/-- The chunks that are not empty are those of the positive results. -/
theorem chunks_filter (answers : List Answer) :
    ((chunks answers).filter (!·.isEmpty)).length =
      (answers.filter fun a => 0 < a.read.res).length := by
  rw [chunks, List.filter_map, List.length_map]
  congr 2
  funext a
  rw [Function.comp, Bool.eq_iff_iff, Bool.not_eq_true', ← Bool.not_eq_true, bytes_isEmpty,
    decide_eq_true_eq]
  omega

/-- With at most one positive result, the content is that of one chunk. -/
theorem flatten_le {count : Nat} {answers : List Answer}
    (hfit : ∀ a ∈ answers, a.read.res ≤ count)
    (h : (answers.filter fun a => 0 < a.read.res).length ≤ 1) :
    (chunks answers).flatten.length ≤ count := by
  rw [← chunks_filter] at h
  have hmem : ∀ c ∈ (chunks answers).filter (!·.isEmpty), c.length ≤ count := fun c hc => by
    obtain ⟨a, ha, rfl⟩ := List.mem_map.1 (List.mem_filter.1 hc).1
    have := hfit a ha
    rw [a.read.stored]
    omega
  rw [← flatten_filter]
  generalize (chunks answers).filter (!·.isEmpty) = cs at h hmem
  match cs, h with
  | [], _ => simp
  | [c], _ => simpa using hmem c List.mem_cons_self

/-- If the bytes counted are the chunks, whatever the buffer held before, then there is one chunk at
most. The count may wrap at `M`. -/
theorem chunks_le_one {cs : List (List UInt8)} {count M : Nat}
    (h : ∀ buf : List UInt8, buf.length = count →
      (puts buf cs).take (cs.flatten.length % M) = cs.flatten ∧ cs.flatten.length % M ≤ count) :
    (cs.filter (!·.isEmpty)).length ≤ 1 := by
  obtain ⟨htake, hle⟩ := h (List.replicate count 0) (by simp)
  -- the lengths agree, so the count has not wrapped
  have hmod : cs.flatten.length % M = cs.flatten.length := by
    have hlen := congrArg List.length htake
    rw [List.length_take] at hlen
    have := Nat.mod_le cs.flatten.length M
    omega
  refine length_le_one_of_holds (0 : UInt8) 1 (by decide) (n := count) (by omega) fun buf hb => ?_
  have hbuf := (h buf hb).1
  rwa [hmod] at hbuf

/-- Whatever the buffer held before, a call of `Read` that uses the answers up delivers the content
faithfully if and only if at most one of its `ccn_fetch_read` results is positive. -/
theorem read_faithful_iff (K : FetchCodes) (w : World) (f : Obj) (count : Nat)
    (answers : List Answer) (hcond : nsFailed w.tr.mInput.mCondition = false)
    (honline : w.tr.mCCNxOnline = true) (hstream : w.tr.mCCNxStream = some f)
    (hcount : count < 0x100000000) (hfit : ∀ a ∈ answers, a.read.res ≤ count)
    (hret : ∃ buf out, read K w buf count answers = some out ∧ out.rest = []) :
    (∀ buf out, count ≤ buf.length → read K w buf count answers = some out → Faithful count out) ↔
      (answers.filter fun a => 0 < a.read.res).length ≤ 1 := by
  obtain ⟨buf₀, out₀, hread₀, hrest₀⟩ := hret
  obtain ⟨res, hloop₀⟩ := read_eq_loop hcond honline hstream hread₀
  rw [hrest₀] at hloop₀
  -- the script is used up whatever is in the buffer
  have hall : ∀ {buf out}, read K w buf count answers = some out → out.rest = [] := by
    intro buf out h
    obtain ⟨res', hloop⟩ := read_eq_loop hcond honline hstream h
    obtain ⟨st, hloop'⟩ := readLoop_of_readLoop K count { buf } hloop₀
    rw [hloop] at hloop'
    exact (Prod.mk.inj (Prod.mk.inj (Option.some.inj hloop')).2).2
  constructor
  · intro hP
    have hholds : ∀ buf : List UInt8, buf.length = count →
        (puts buf (chunks answers)).take ((chunks answers).flatten.length % 0x100000000) =
          (chunks answers).flatten ∧ (chunks answers).flatten.length % 0x100000000 ≤ count := by
      intro buf hlen
      obtain ⟨st, hloop⟩ := readLoop_of_readLoop K count { buf } hloop₀
      obtain ⟨out, hread, -, -⟩ := read_of_loop hcond honline hstream hloop
      obtain ⟨hbuf, hcr, hdel⟩ := read_effects hcond honline hstream hread (hall hread)
      have hF := hP buf out (by omega) hread
      rw [← hbuf, ← hcr, ← hdel]
      exact ⟨hF.bytes, hF.bound⟩
    rw [← chunks_filter]
    exact chunks_le_one hholds
  · intro h1 buf out hlen hread
    obtain ⟨hbuf, hcr, hdel⟩ := read_effects hcond honline hstream hread (hall hread)
    have hle := flatten_le hfit h1
    rw [Nat.mod_eq_of_lt (by omega)] at hcr
    refine ⟨by omega, ?_⟩
    rw [hbuf, hcr, hdel]
    exact take_puts (by rw [chunks_filter]; exact h1)

/-- A transport on which `Init` has succeeded. -/
def openWorld : World := (({} : World).init {} "ccnx:/a").2

/-- One chunk between a retry and the end of the content. -/
def oneChunk : List Answer := [.nothing fetchCodes 0, .data [1, 2, 3], .ended]

theorem read_faithful_oneChunk :
    ∃ out, read fetchCodes openWorld [0, 0, 0, 0] 4 oneChunk = some out ∧ Faithful 4 out :=
  have h := (read_faithful_iff fetchCodes openWorld 4 4 oneChunk (by decide) rfl rfl (by decide)
    (by decide) ⟨[], _, rfl, rfl⟩).2 (by decide)
  ⟨_, rfl, h [0, 0, 0, 0] _ (by decide) rfl⟩

/-- Two chunks of two bytes in a buffer of four: the second replaces the first. -/
theorem read_overwrites :
    ¬ ∀ (K : FetchCodes) (w : World) (f : Obj) (count : Nat) (answers : List Answer)
        (buf : List UInt8) (out : ReadOut), nsFailed w.tr.mInput.mCondition = false →
        w.tr.mCCNxOnline = true → w.tr.mCCNxStream = some f → count < 0x100000000 →
        (∀ a ∈ answers, a.read.res ≤ count) → count ≤ buf.length →
        read K w buf count answers = some out → out.rest = [] → Faithful count out := by
  intro hP
  have hF := hP fetchCodes openWorld 4 4 [.data [1, 2], .data [3, 4], .code 0 0] [0, 0, 0, 0] _
    (by decide) rfl rfl (by decide) (by decide) (by decide) rfl rfl
  exact absurd hF.bytes (by decide)

end Transport
