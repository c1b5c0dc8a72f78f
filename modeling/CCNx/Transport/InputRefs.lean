import CCNx.Lib.Pool
import CCNx.Lib.Runs
import CCNx.Transport.Defs

/-!
# The transport under its input stream

`nsCCNxInputStream::AddRef` and `Release` count on the stream first and on the transport after it,
with the `Close` of a last `Release` in between. Any number of threads, each at its own place in
one of these calls, and the references that are out, whoever holds them: `Counted` accounts for
every reference and every call in progress, and `refs_ok` reads the claim about the object's life
off it.
-/

set_option autoImplicit false

namespace InputRefs

open Xpcom Runs
open Transport (NsCCNxTransport NsCCNxInputStream World InitEnv OpenEnv)

/-- Where a thread is: outside; in `nsCCNxInputStream::AddRef` before `mTransport->AddRef()`; in
`OpenInputStream` past its check, before and in the `AddRef` of the stream; in
`nsCCNxInputStream::Release` before `Close`, and before `mTransport->Release()`. -/
inductive Pc
  | idle | adding | opening | handing | closing | releasing
  deriving DecidableEq, Repr

/-- Has counted on the stream and has still to count on the transport. -/
def Pc.addRefs : Pc → Bool
  | .adding | .handing => true
  | .idle | .opening | .closing | .releasing => false

/-- Has given up the stream and not yet the transport. -/
def Pc.releases : Pc → Bool
  | .closing | .releasing => true
  | .idle | .adding | .opening | .handing => false

structure Sys where
  tr : NsCCNxTransport
  threads : List Pc
  /-- The references on the transport that are out, and those on `mInput`. -/
  transportRefs : Nat
  inputRefs : Nat := 0
  destroyed : Bool := false
  /-- History: the `Release` calls that took `mReaderRefCnt` to zero and are past their `Close`. -/
  lastReleases : Nat := 0
  deriving DecidableEq, Repr

inductive Act
  | addRef (t : Nat)
  | release (t : Nat)
  /-- The increment of `nsCCNxInputStream::AddRef`. -/
  | addRefInput (t : Nat)
  /-- The decrement of `nsCCNxInputStream::Release`. -/
  | releaseInput (t : Nat)
  /-- `OpenInputStream` up to its check, on the main thread. -/
  | openInputStream
  /-- It returns without having taken a reference on the stream. -/
  | openFails
  /-- The next step of a call that has begun. -/
  | next (t : Nat)
  deriving DecidableEq, Repr

def mainThread : Nat := 0

/-- `nsCCNxTransport::AddRef`, up to the reference that it hands out. -/
def Sys.addRef (s : Sys) : Sys := { s with tr := { s.tr with mRefCnt := s.tr.mRefCnt + 1 } }

/-- `nsCCNxTransport::Release`. -/
def Sys.release (s : Sys) : Sys :=
  { s with tr := { s.tr with mRefCnt := s.tr.mRefCnt - 1 }, destroyed := s.tr.mRefCnt - 1 == 0 }

def Sys.setReaders (s : Sys) (n : Nat) : Sys :=
  { s with tr := { s.tr with mInput := { s.tr.mInput with mReaderRefCnt := n } } }

def Sys.goto (s : Sys) (t : Nat) (pc : Pc) : Sys := { s with threads := s.threads.set t pc }

/-- The next step of thread `t`, which is at `pc`. -/
def Sys.next (s : Sys) (t : Nat) : Pc → Option Sys
  | .idle => none
  | .adding | .handing => some { s.addRef.goto t .idle with inputRefs := s.inputRefs + 1 }
  | .opening => some ((s.setReaders (s.tr.mInput.mReaderRefCnt + 1)).goto t .handing)
  | .closing =>
    some { s.goto t .releasing with
      tr := { s.tr with mInput := s.tr.mInput.closeWithStatus nsBaseStreamClosed }
      lastReleases := s.lastReleases + 1 }
  | .releasing => some (s.release.goto t .idle)

def step (s : Sys) (a : Act) : Option Sys :=
  if s.destroyed then none
  else
    match a with
    | .addRef t =>
      if s.threads[t]? = some .idle ∧ 0 < s.transportRefs then
        some { s.addRef with transportRefs := s.transportRefs + 1 }
      else none
    | .release t =>
      if s.threads[t]? = some .idle ∧ 0 < s.transportRefs then
        some { s.release with transportRefs := s.transportRefs - 1 }
      else none
    | .addRefInput t =>
      if s.threads[t]? = some .idle ∧ 0 < s.inputRefs then
        some ((s.setReaders (s.tr.mInput.mReaderRefCnt + 1)).goto t .adding)
      else none
    | .releaseInput t =>
      if s.threads[t]? = some .idle ∧ 0 < s.inputRefs then
        let n := s.tr.mInput.mReaderRefCnt - 1
        some { (s.setReaders n).goto t (if n = 0 then .closing else .releasing) with
          inputRefs := s.inputRefs - 1 }
      else none
    | .openInputStream =>
      if s.threads[mainThread]? = some .idle ∧ 0 < s.transportRefs then
        some (if s.tr.mInput.isReferenced then s else s.goto mainThread .opening)
      else none
    | .openFails =>
      if s.threads[mainThread]? = some .opening then some (s.goto mainThread .idle) else none
    | .next t => (s.threads[t]?).bind (s.next t)

/-- A transport that has been initialized, with the one reference of its creator, and `n` threads,
the first of them the main thread. -/
def start (env : InitEnv) (ccnxName : String) (n : Nat) : Sys :=
  { tr := (World.created.init env ccnxName).2.tr
    threads := List.replicate (n + 1) .idle
    transportRefs := 1 }

/-- What holds in every state. -/
structure RefsOk (s : Sys) : Prop where
  /-- With no `AddRef` or `Release` in progress, the counts are the references that are out. -/
  quiet : (∀ pc ∈ s.threads, pc.addRefs = false ∧ pc.releases = false) →
    s.tr.mRefCnt = s.transportRefs + s.inputRefs ∧ s.tr.mInput.mReaderRefCnt = s.inputRefs
  /-- The transport is alive under a stream reference, and during the `Close` of a `Release`. -/
  alive : 0 < s.inputRefs ∨ Pc.closing ∈ s.threads → 0 < s.tr.mRefCnt ∧ s.destroyed = false
  closed : 0 < s.lastReleases → nsFailed s.tr.mInput.mCondition = true
  /-- `OpenInputStream` refuses while a stream reference is out. -/
  refused : 0 < s.inputRefs → ∀ flags env,
    s.tr.openInputStream flags env = (nsErrorUnexpected, none, s.tr)
  /-- While it is about to hand one out, there is no other, and none is being added. -/
  single : Pc.opening ∈ s.threads ∨ Pc.handing ∈ s.threads →
    s.inputRefs = 0 ∧ Pc.adding ∉ s.threads

/-! ## The account -/

/-- Some thread is in `OpenInputStream` past its check. -/
def Opens (threads : List Pc) : Prop := .opening ∈ threads ∨ .handing ∈ threads

/-- Every reference and every call in progress is counted where it should be. -/
structure Counted (s : Sys) : Prop where
  readers : s.tr.mInput.mReaderRefCnt = s.inputRefs + s.threads.countP Pc.addRefs
  refs : s.tr.mRefCnt = s.transportRefs + s.inputRefs + s.threads.countP Pc.releases
  destroyed : s.destroyed = (s.tr.mRefCnt == 0)
  closed : 0 < s.lastReleases → nsFailed s.tr.mInput.mCondition = true
  main : ∀ t pc, s.threads[t]? = some pc → pc = .opening ∨ pc = .handing → t = mainThread
  /-- Under `OpenInputStream` nobody else adds references. -/
  single : Opens s.threads → s.inputRefs = 0 ∧ Pc.adding ∉ s.threads

variable {s s' : Sys} {a : Act} {t : Nat} {pc pc' : Pc} {threads : List Pc}

/-- A thread that goes elsewhere does not begin to open a stream. -/
theorem opens_of_set (hpc : pc ≠ .opening ∧ pc ≠ .handing) (h : Opens (threads.set t pc)) :
    Opens threads := by
  rcases h with h | h
  · exact .inl ((List.mem_or_eq_of_mem_set h).resolve_right hpc.1.symm)
  · exact .inr ((List.mem_or_eq_of_mem_set h).resolve_right hpc.2.symm)

theorem adding_of_set (hpc : pc ≠ .adding) (h : Pc.adding ∉ threads) :
    Pc.adding ∉ threads.set t pc :=
  fun hm => h ((List.mem_or_eq_of_mem_set hm).resolve_right hpc.symm)

/-- The positions after one thread has moved: only the main thread may open a stream. -/
theorem Counted.main_set (hC : Counted s)
    (hpc : pc = .opening ∨ pc = .handing → t = mainThread) (u : Nat) (q : Pc)
    (hu : (s.threads.set t pc)[u]? = some q) (hq : q = .opening ∨ q = .handing) :
    u = mainThread := by
  rcases Pool.getElem?_set_cases hu with ⟨rfl, rfl⟩ | ⟨-, hu⟩
  · exact hpc hq
  · exact hC.main u q hu hq

/-- A thread that goes neither into `OpenInputStream` nor into an `AddRef` leaves it alone. -/
theorem Counted.single_set (hC : Counted s) (hpc : pc ≠ .opening ∧ pc ≠ .handing)
    (hadding : pc ≠ .adding) (ho : Opens (s.threads.set t pc)) :
    s.inputRefs = 0 ∧ Pc.adding ∉ s.threads.set t pc := by
  obtain ⟨hnone, hadd⟩ := hC.single (opens_of_set hpc ho)
  exact ⟨hnone, adding_of_set hadding hadd⟩

/-- A reference that is out keeps `OpenInputStream` out. -/
theorem Counted.not_opens (hC : Counted s) (h : 0 < s.inputRefs) : ¬ Opens s.threads :=
  fun ho => absurd (hC.single ho).1 (by omega)

/-- A last `Release` closes the stream, or it was closed before. -/
theorem closeWithStatus_failed (i : NsCCNxInputStream) :
    nsFailed (i.closeWithStatus nsBaseStreamClosed).mCondition = true := by
  rw [NsCCNxInputStream.closeWithStatus_eq]
  dsimp only
  split
  · assumption
  · exact failed_closed

/-! ### One step of a call in progress -/

/-- The end of an `AddRef` of the stream. -/
theorem Counted.added (hC : Counted s) (ht : s.threads[t]? = some pc) (hpc : pc.addRefs = true)
    (hd : s.destroyed = false) :
    Counted { s.addRef.goto t .idle with inputRefs := s.inputRefs + 1 } := by
  have hrel : pc.releases = false := by cases pc <;> first | rfl | cases hpc
  have hadds := Pool.countP_set_leave (y := Pc.idle) ht hpc rfl
  have hrels := Pool.countP_set_keep (y := Pc.idle) ht hrel rfl
  have hreaders := hC.readers
  have hrefs := hC.refs
  refine ⟨?_, ?_, ?_, hC.closed, hC.main_set (by simp), fun ho => ?_⟩
  · simp only [Sys.addRef, Sys.goto]
    omega
  · simp only [Sys.addRef, Sys.goto]
    omega
  · simpa [Sys.addRef, Sys.goto] using hd
  · exfalso
    have hold := opens_of_set (by simp) ho
    cases pc with
    | adding => exact (hC.single hold).2 (List.mem_of_getElem? ht)
    | handing =>
      -- the main thread is the only one to open, and it is leaving
      have hmain := hC.main t _ ht (.inr rfl)
      rcases ho with ho | ho <;>
      · obtain ⟨u, hu⟩ := List.mem_iff_getElem?.1 ho
        rcases Pool.getElem?_set_cases hu with ⟨-, he⟩ | ⟨hne, hu⟩
        · cases he
        · exact hne ((hC.main u _ hu (by simp)).trans hmain.symm)
    | _ => cases hpc

/-- The first count of the stream that `OpenInputStream` hands out. -/
theorem Counted.handing (hC : Counted s) (ht : s.threads[t]? = some .opening) :
    Counted ((s.setReaders (s.tr.mInput.mReaderRefCnt + 1)).goto t .handing) := by
  have hadds := Pool.countP_set_enter (p := Pc.addRefs) (y := .handing) ht rfl rfl
  have hrels := Pool.countP_set_keep (p := Pc.releases) (y := .handing) ht rfl rfl
  have hreaders := hC.readers
  have hrefs := hC.refs
  have hmain := hC.main t _ ht (.inl rfl)
  obtain ⟨hnone, hadd⟩ := hC.single (.inl (List.mem_of_getElem? ht))
  refine ⟨?_, ?_, hC.destroyed, hC.closed, hC.main_set fun _ => hmain, fun _ => ?_⟩
  · simp only [Sys.setReaders, Sys.goto]
    omega
  · simp only [Sys.setReaders, Sys.goto]
    omega
  · exact ⟨hnone, adding_of_set (by simp) hadd⟩

/-- The `Close` of a last `Release`. -/
theorem Counted.closing (hC : Counted s) (ht : s.threads[t]? = some .closing) :
    Counted { s.goto t .releasing with
      tr := { s.tr with mInput := s.tr.mInput.closeWithStatus nsBaseStreamClosed }
      lastReleases := s.lastReleases + 1 } := by
  have hadds := Pool.countP_set_keep (p := Pc.addRefs) (y := .releasing) ht rfl rfl
  have hrels := Pool.countP_set (p := Pc.releases) (y := .releasing) ht
  have hreaders := hC.readers
  have hrefs := hC.refs
  refine ⟨?_, ?_, hC.destroyed, fun _ => closeWithStatus_failed _, hC.main_set (by simp),
    fun ho => ?_⟩
  · simp only [Sys.goto, NsCCNxInputStream.closeWithStatus_eq]
    omega
  · simp only [Pc.releases, ↓reduceIte] at hrels
    simp only [Sys.goto]
    omega
  · exact hC.single_set (by simp) (by simp) ho

/-- The end of a `Release` of the stream. -/
theorem Counted.released (hC : Counted s) (ht : s.threads[t]? = some .releasing) :
    Counted (s.release.goto t .idle) := by
  have hadds := Pool.countP_set_keep (p := Pc.addRefs) (y := .idle) ht rfl rfl
  have hrels := Pool.countP_set_leave (p := Pc.releases) (y := .idle) ht rfl rfl
  have hreaders := hC.readers
  have hrefs := hC.refs
  refine ⟨?_, ?_, rfl, hC.closed, hC.main_set (by simp), fun ho => ?_⟩
  · simp only [Sys.release, Sys.goto]
    omega
  · simp only [Sys.release, Sys.goto]
    omega
  · exact hC.single_set (by simp) (by simp) ho

theorem Counted.next_call (hC : Counted s) (hd : s.destroyed = false)
    (ht : s.threads[t]? = some pc) (h : s.next t pc = some s') : Counted s' := by
  cases pc with
  | idle => cases h
  | adding => cases h; exact hC.added ht rfl hd
  | handing => cases h; exact hC.added ht rfl hd
  | opening => cases h; exact hC.handing ht
  | closing => cases h; exact hC.closing ht
  | releasing => cases h; exact hC.released ht

/-! ### The steps -/

theorem not_destroyed (h : step s a = some s') : s.destroyed = false := by
  unfold step at h
  split at h
  · cases h
  · simpa using ‹¬ s.destroyed = true›

/-- The increment with which an `AddRef` of the stream begins. -/
theorem Counted.addsInput (hC : Counted s) (ht : s.threads[t]? = some .idle)
    (hpos : 0 < s.inputRefs) :
    Counted ((s.setReaders (s.tr.mInput.mReaderRefCnt + 1)).goto t .adding) := by
  have hadds := Pool.countP_set_enter (p := Pc.addRefs) (y := .adding) ht rfl rfl
  have hrels := Pool.countP_set_keep (p := Pc.releases) (y := .adding) ht rfl rfl
  have hreaders := hC.readers
  have hrefs := hC.refs
  refine ⟨?_, ?_, hC.destroyed, hC.closed, hC.main_set (by simp), fun ho => ?_⟩
  · simp only [Sys.setReaders, Sys.goto]
    omega
  · simp only [Sys.setReaders, Sys.goto]
    omega
  · exact absurd (opens_of_set (by simp) ho) (hC.not_opens hpos)

/-- The decrement with which a `Release` of the stream begins. -/
theorem Counted.releasesInput (hC : Counted s) (ht : s.threads[t]? = some .idle)
    (hpos : 0 < s.inputRefs) (hpc : pc = .closing ∨ pc = .releasing) :
    Counted { (s.setReaders (s.tr.mInput.mReaderRefCnt - 1)).goto t pc with
      inputRefs := s.inputRefs - 1 } := by
  have hpc : pc.addRefs = false ∧ pc.releases = true ∧ pc ≠ .opening ∧ pc ≠ .handing := by
    rcases hpc with rfl | rfl <;> decide
  have hadds := Pool.countP_set_keep (p := Pc.addRefs) (y := pc) ht rfl hpc.1
  have hrels := Pool.countP_set_enter (p := Pc.releases) (y := pc) ht rfl hpc.2.1
  have hreaders := hC.readers
  have hrefs := hC.refs
  refine ⟨?_, ?_, hC.destroyed, hC.closed, hC.main_set fun hq => ?_, fun ho => ?_⟩
  · simp only [Sys.setReaders, Sys.goto]
    omega
  · simp only [Sys.setReaders, Sys.goto]
    omega
  · rcases hq with hq | hq
    · exact absurd hq hpc.2.2.1
    · exact absurd hq hpc.2.2.2
  · exact absurd (opens_of_set hpc.2.2 ho) (hC.not_opens hpos)

/-- `OpenInputStream` has found the stream without references. -/
theorem Counted.opens (hC : Counted s) (ht : s.threads[mainThread]? = some .idle)
    (hfree : s.tr.mInput.mReaderRefCnt = 0) : Counted (s.goto mainThread .opening) := by
  have hadds := Pool.countP_set_keep (p := Pc.addRefs) (y := .opening) ht rfl rfl
  have hrels := Pool.countP_set_keep (p := Pc.releases) (y := .opening) ht rfl rfl
  have hreaders := hC.readers
  have hrefs := hC.refs
  refine ⟨?_, ?_, hC.destroyed, hC.closed, hC.main_set fun _ => rfl, fun _ => ?_⟩
  · simp only [Sys.goto]
    omega
  · simp only [Sys.goto]
    omega
  · refine ⟨by simp only [Sys.goto]; omega, adding_of_set (by simp) fun hm => ?_⟩
    have := List.countP_pos_iff.2 ⟨_, hm, (rfl : Pc.addRefs .adding = true)⟩
    omega

/-- `OpenInputStream` returns without a stream. -/
theorem Counted.openFails (hC : Counted s) (ht : s.threads[t]? = some .opening) :
    Counted (s.goto t .idle) := by
  have hadds := Pool.countP_set_keep (p := Pc.addRefs) (y := .idle) ht rfl rfl
  have hrels := Pool.countP_set_keep (p := Pc.releases) (y := .idle) ht rfl rfl
  have hreaders := hC.readers
  have hrefs := hC.refs
  refine ⟨?_, ?_, hC.destroyed, hC.closed, hC.main_set (by simp), fun ho => ?_⟩
  · simp only [Sys.goto]
    omega
  · simp only [Sys.goto]
    omega
  · exact hC.single_set (by simp) (by simp) ho

theorem Counted.next (hC : Counted s) (h : step s a = some s') : Counted s' := by
  have hd := not_destroyed h
  unfold step at h
  rw [if_neg (by simp [hd])] at h
  cases a with
  | addRef t =>
    dsimp only at h
    split at h <;> cases h
    refine ⟨hC.readers, ?_, by simpa [Sys.addRef] using hd, hC.closed, hC.main, hC.single⟩
    have hrefs := hC.refs
    simp only [Sys.addRef]
    omega
  | release t =>
    dsimp only at h
    split at h
    · rename_i hpos
      cases h
      refine ⟨hC.readers, ?_, rfl, hC.closed, hC.main, hC.single⟩
      have hrefs := hC.refs
      simp only [Sys.release]
      omega
    · cases h
  | addRefInput t =>
    dsimp only at h
    split at h
    · rename_i hidle
      cases h
      exact hC.addsInput hidle.1 hidle.2
    · cases h
  | releaseInput t =>
    dsimp only at h
    split at h
    · rename_i hidle
      cases h
      apply hC.releasesInput hidle.1 hidle.2
      split
      · exact .inl rfl
      · exact .inr rfl
    · cases h
  | openInputStream =>
    dsimp only at h
    split at h
    · rename_i hidle
      cases h
      split
      · exact hC
      · rename_i hfree
        exact hC.opens hidle.1 (by simpa [NsCCNxInputStream.isReferenced] using hfree)
    · cases h
  | openFails =>
    dsimp only at h
    split at h
    · rename_i ht
      cases h
      exact hC.openFails ht
    · cases h
  | next t =>
    obtain ⟨pc, ht, hnext⟩ := Option.bind_eq_some_iff.1 h
    exact hC.next_call hd ht hnext

/-! ## What the account says -/

theorem counted_start (env : InitEnv) (ccnxName : String) (n : Nat) :
    Counted (start env ccnxName n) := by
  obtain ⟨hin, hrefs, -⟩ := World.init_keeps World.created env ccnxName
  have hidle : ∀ pc ∈ List.replicate (n + 1) Pc.idle, pc = .idle :=
    fun pc h => List.eq_of_mem_replicate h
  have hnone : ∀ p : Pc → Bool, p .idle = false → (List.replicate (n + 1) Pc.idle).countP p = 0 :=
    fun p hp => List.countP_eq_zero.2 fun pc h => by simp [hidle pc h, hp]
  refine ⟨?_, ?_, ?_, fun h => absurd h (Nat.lt_irrefl 0), fun t pc h hpc => ?_, fun ho => ?_⟩
  · simp only [start, hin, hnone Pc.addRefs rfl]
    rfl
  · simp only [start, hrefs, hnone Pc.releases rfl]
    rfl
  · simp only [start, hrefs]
    rfl
  · rw [hidle pc (List.mem_of_getElem? h)] at hpc
    rcases hpc with hpc | hpc <;> cases hpc
  · rcases ho with ho | ho <;> cases hidle _ ho

theorem Counted.ok (hC : Counted s) : RefsOk s := by
  have hreaders := hC.readers
  have hrefs := hC.refs
  refine ⟨fun hquiet => ?_, fun hheld => ?_, hC.closed, fun hpos flags env => ?_, hC.single⟩
  · have hadds : s.threads.countP Pc.addRefs = 0 :=
      List.countP_eq_zero.2 fun pc h => by simp [(hquiet pc h).1]
    have hrels : s.threads.countP Pc.releases = 0 :=
      List.countP_eq_zero.2 fun pc h => by simp [(hquiet pc h).2]
    omega
  · have hpos : 0 < s.tr.mRefCnt := by
      rcases hheld with hheld | hheld
      · omega
      · have := List.countP_pos_iff.2 ⟨_, hheld, (rfl : Pc.releases .closing = true)⟩
        omega
    refine ⟨hpos, ?_⟩
    rw [hC.destroyed]
    simpa using Nat.ne_of_gt hpos
  · have href : s.tr.mInput.isReferenced = true := by
      rw [NsCCNxInputStream.isReferenced]
      exact decide_eq_true (by omega)
    rw [NsCCNxTransport.openInputStream, if_pos href]

/-- Over every run: the counts, the transport's life under its stream, the close by a last
`Release`, and one stream at a time. -/
theorem refs_ok (env : InitEnv) (ccnxName : String) (n : Nat) (acts : List Act) (s : Sys)
    (h : run step (start env ccnxName n) acts = some s) : RefsOk s :=
  (run_inv (fun _ _ _ => Counted.next) (counted_start env ccnxName n) h).ok

/-- The core lets go while the copier still holds the stream; the last `Release` closes it. -/
def copierLast : List Act :=
  [.openInputStream, .next 0, .next 0, .addRefInput 1, .next 1, .release 0, .releaseInput 1,
    .next 1, .releaseInput 1, .next 1, .next 1]

theorem copierLast_ok : ∃ s, run step (start {} "ccnx:/a" 1) copierLast = some s ∧ RefsOk s :=
  ⟨_, rfl, refs_ok {} "ccnx:/a" 1 copierLast _ rfl⟩

end InputRefs
