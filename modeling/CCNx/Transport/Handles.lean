import CCNx.Lib.Lease
import CCNx.Lib.Pool
import CCNx.Transport.System

/-!
# The libccn handles and their readers

`mCCNxRef` leases the handles to the `Read` calls: `CCNX_GetLocked` acquires, `CCNX_ReleaseLocked`
releases, and the last release runs `CCNX_Close`. `leases_refine`: every step of the threads is a
step of `Lease` (or none), where `Leases s l` says what the members and libccn look like in each
state `l` of the lease. `handles_ok`: with fewer than `2 ^ 32` readers at any time, the lease is
sound, so no handle is used after it was destroyed, nor destroyed twice.
-/

set_option autoImplicit false

namespace Transport

open Xpcom Runs

/-- What the transport and libccn know of the handles. -/
structure Handles where
  mCCNx : Option Obj
  mCCNxFetch : Option Obj
  mCCNxName : Option Obj
  mCCNxTmpl : Option Obj
  mCCNxStream : Option Obj
  mCCNxRef : Nat
  mCCNxOnline : Bool
  lib : Libccn
  closes : Nat
  wrongNdn : Bool
  deriving DecidableEq

def World.handles (w : World) : Handles :=
  { mCCNx := w.tr.mCCNx, mCCNxFetch := w.tr.mCCNxFetch, mCCNxName := w.tr.mCCNxName
    mCCNxTmpl := w.tr.mCCNxTmpl, mCCNxStream := w.tr.mCCNxStream, mCCNxRef := w.tr.mCCNxRef
    mCCNxOnline := w.tr.mCCNxOnline, lib := w.lib, closes := w.closes, wrongNdn := w.wrongNdn }

/-- No handle, and `created` objects of which `destroyed` were given back. -/
def Handles.cleared (ref : Nat) (online : Bool) (lib : Libccn) (closes : Nat) (wrong : Bool) :
    Handles :=
  ⟨none, none, none, none, none, ref, online, lib, closes, wrong⟩

/-- What `Init` leaves when no stream can be had from it. -/
inductive NoStream : Handles → Prop
  | connectFailed : NoStream (.cleared 0 false ⟨1, [0]⟩ 0 false)
  | nameFailed : NoStream (.cleared 0 false ⟨2, [0, 1]⟩ 0 false)
  | openFailed :
      NoStream ⟨some 0, some 2, some 1, some 3, none, 0, true, ⟨4, []⟩, 0, false⟩

/-- The handles in each state of the lease. -/
def HandlesAre (h : Handles) : Lease.State → Prop
  | .absent => NoStream h
  | .held n =>
    h = ⟨some 0, some 2, some 1, some 3, some 4, n % 0x100000000, true, ⟨5, []⟩, 0, false⟩
  | .spent n c late => h = .cleared (n % 0x100000000) true ⟨5, [4, 2, 0, 1, 3]⟩ c (0 < late)

/-- `s` is in state `l` of the lease: the handles are as they should be, the holders are the
readers, and each of these holds the stream that `ccn_fetch_open` returned. -/
structure Leases (s : Sys) (l : Lease.State) : Prop where
  handles : HandlesAre s.world.handles l
  readers : s.readers = l.holders
  stream : ∀ (t : Nat) f buf count, s.threads[t]? = some (.reading f buf count) → f = 4

/-- The lease of a fresh transport. -/
def leaseAfterInit (env : InitEnv) (ccnxName : String) : Lease.State :=
  if env.connect < 0 ∨ env.nameFromUri ccnxName < 0 ∨ env.fetchOpen ccnxName = false then .absent
  else .held 0

theorem leases_start (env : InitEnv) (ccnxName : String) (n : Nat) :
    Leases (start env ccnxName n) (leaseAfterInit env ccnxName) := by
  refine ⟨?_, ?_, fun t f buf count h => ?_⟩
  · rw [start, leaseAfterInit]
    by_cases hc : env.connect < 0
    · simp only [World.init_connectFailed _ _ _ hc, World.initConnect, hc, true_or, ↓reduceIte]
      exact .connectFailed
    · by_cases hn : env.nameFromUri ccnxName < 0
      · simp only [World.init_nameFailed _ _ _ hc hn, World.initConnect, World.initName, hc, hn,
          true_or, or_true, ↓reduceIte]
        exact .nameFailed
      · simp only [World.init_ok _ _ _ hc hn, World.initConnect, World.initName, World.initFetch,
          hc, hn, false_or, ↓reduceIte]
        cases env.fetchOpen ccnxName with
        | false => exact .openFailed
        | true => rfl
  · have : (leaseAfterInit env ccnxName).holders = 0 := by
      unfold leaseAfterInit
      split <;> rfl
    rw [this]
    simp [Sys.readers, start, List.countP_replicate, Pc.isReading]
  · simp only [start, List.getElem?_replicate] at h
    split at h <;> cases h

/-! ## The steps that leave the handles alone -/

section
variable {K : FetchCodes} {s s' : Sys} {l : Lease.State}

theorem openInputStream_handles (w : World) (flags : Nat) (env : OpenEnv) :
    World.handles { w with tr := (w.tr.openInputStream flags env).2.2 } = w.handles := by
  obtain ⟨n, copies, closed, he⟩ := NsCCNxTransport.openInputStream_keeps w.tr flags env
  rw [he]
  rfl

theorem destruct_handles (w : World) (onMain : Bool) :
    World.handles { w with tr := (w.tr.destruct onMain).2 } = w.handles := by
  unfold NsCCNxTransport.destruct
  split <;> rfl

theorem outside_not_reading {pc : Pc} (h : pc.outside = true) : pc.isReading = false := by
  cases pc <;> first | rfl | cases h

/-- Every action but the two locked sections of `Read` keeps the handles, and moves at most one
thread, from and to positions that hold no stream. -/
theorem step_quiet {a : Act} (hc : ∀ t buf count, a ≠ .readCheck t buf count)
    (hr : ∀ t answers, a ≠ .readSection t answers) (h : step K s a = some s') :
    s'.world.handles = s.world.handles ∧
      (s'.threads = s.threads ∨ ∃ t pc pc', s.threads[t]? = some pc ∧ pc.isReading = false ∧
        pc'.isReading = false ∧ s'.threads = s.threads.set t pc') := by
  cases a with
  | readCheck t buf count => exact absurd rfl (hc t buf count)
  | readSection t answers => exact absurd rfl (hr t answers)
  | readStore t =>
    obtain ⟨res, st, ht, rfl⟩ := step_readStore h
    exact ⟨rfl, .inr ⟨t, _, _, ht, rfl, rfl, rfl⟩⟩
  | readReturn t =>
    obtain ⟨st, ht, rfl⟩ := step_readReturn h
    exact ⟨rfl, .inr ⟨t, _, _, ht, rfl, rfl, rfl⟩⟩
  | closeWithStatus t reason =>
    obtain ⟨closed, rfl⟩ := step_close rfl h
    exact ⟨rfl, .inl rfl⟩
  | close t reason =>
    obtain ⟨closed, rfl⟩ := step_close rfl h
    exact ⟨rfl, .inl rfl⟩
  | asyncWait t newEvent callback flags target =>
    obtain ⟨pc, hpc, rfl⟩ := step_asyncWait h
    obtain ⟨ht, ho⟩ := caller_eq_some.1 hpc
    refine ⟨rfl, .inr ⟨t, pc, _, ht, outside_not_reading ho, ?_, rfl⟩⟩
    split
    · rfl
    · exact outside_not_reading ho
  | notify t =>
    obtain ⟨w, ht, rfl⟩ := step_notify h
    exact ⟨rfl, .inr ⟨t, _, _, ht, rfl, rfl, rfl⟩⟩
  | openInputStream t flags env =>
    rw [step_openInputStream h]
    exact ⟨openInputStream_handles _ _ _, .inl rfl⟩
  | destruct onMain =>
    obtain ⟨-, rfl⟩ := step_destruct h
    exact ⟨destruct_handles _ _, .inl rfl⟩

theorem Leases.quiet (hL : Leases s l) {a : Act} (hc : ∀ t buf count, a ≠ .readCheck t buf count)
    (hr : ∀ t answers, a ≠ .readSection t answers) (h : step K s a = some s') : Leases s' l := by
  obtain ⟨hh, ht⟩ := step_quiet hc hr h
  refine ⟨hh ▸ hL.handles, ?_, fun t f buf count hf => ?_⟩
  · rcases ht with ht | ⟨t, pc, pc', ht, hp, hp', hset⟩
    · rw [Sys.readers, ht]
      exact hL.readers
    · rw [← hL.readers, Sys.readers, Sys.readers, hset, Pool.countP_set_keep ht hp hp']
  · rcases ht with ht | ⟨u, pc, pc', hu, hp, hp', hset⟩
    · exact hL.stream t f buf count (ht ▸ hf)
    · rw [hset] at hf
      exact hL.stream t f buf count ((Pool.getElem?_set_iff Pc.isReading hu hp hp' rfl).1 hf)

/-! ## Acquiring and releasing -/

/-- Only a lease that is held yields a stream. -/
theorem HandlesAre.held_of_stream {h : Handles} {f : Obj} (hA : HandlesAre h l)
    (hf : h.mCCNxStream = some f) : f = 4 ∧ ∃ n, l = .held n := by
  cases l with
  | absent => cases hA <;> cases hf
  | held n => rw [hA] at hf; cases hf; exact ⟨rfl, n, rfl⟩
  | spent n c k => rw [hA] at hf; cases hf

/-- The first locked section of `Read` acquires the stream or returns at once. -/
theorem Leases.readCheck (hL : Leases s l) {t count : Nat} {buf : List UInt8}
    (h : step K s (.readCheck t buf count) = some s') :
    (Leases s' l ∧ s'.world = s.world ∧
        ∃ rv, (Transport.readCheck s.world.tr).1 = .error rv ∧
          s'.threads[t]? = some (.returned rv 0)) ∨
      (nsFailed s.mCondition = false ∧
        ∃ n, l = .held n ∧ Lease.step 0x100000000 l .acquire = some (.held (n + 1)) ∧
          Leases s' (.held (n + 1))) := by
  obtain ⟨pc, hpc, ⟨rv, hrv, rfl⟩ | ⟨f, hf, -, hcond, rfl⟩⟩ := step_readCheck h
  all_goals obtain ⟨ht, ho⟩ := caller_eq_some.1 hpc
  · refine .inl ⟨⟨hL.handles, ?_, fun u f b c hu => ?_⟩, rfl, rv, hrv, Pool.getElem?_set_same ht⟩
    · rw [← hL.readers]
      exact Pool.countP_set_keep ht (outside_not_reading ho) rfl
    · exact hL.stream u f b c
        ((Pool.getElem?_set_iff Pc.isReading ht (outside_not_reading ho) rfl rfl).1 hu)
  · obtain ⟨rfl, n, rfl⟩ := hL.handles.held_of_stream hf
    refine .inr ⟨hcond, n, rfl, rfl, ?_, ?_, fun u g b c hu => ?_⟩
    · have hh : s.world.handles = _ := hL.handles
      simp only [World.handles, Handles.mk.injEq] at hh
      obtain ⟨h1, h2, h3, h4, h5, h6, h7, h8, h9, h10⟩ := hh
      simp [HandlesAre, World.handles, h1, h2, h3, h4, h5, h6, h7, h8, h9, h10, Nat.add_mod]
    · have hr : s.readers = n := hL.readers
      rw [← hr]
      exact Pool.countP_set_enter ht (outside_not_reading ho) rfl
    · rcases Pool.getElem?_set_cases hu with ⟨-, he⟩ | ⟨-, hu⟩
      · cases he; rfl
      · exact hL.stream u g b c hu

/-- The second locked section of `Read` releases it. -/
theorem Leases.readSection (hL : Leases s l) {t : Nat} {answers : List Answer}
    (h : step K s (.readSection t answers) = some s') :
    ∃ l', Lease.step 0x100000000 l .release = some l' ∧ Leases s' l' := by
  obtain ⟨f, buf, count, st, res, ht, -, rfl⟩ := step_readSection h
  obtain rfl := hL.stream t f buf count ht
  -- the releasing thread is a reader, so there is one to take away
  have hn : l.holders = (s.threads.set t (.storing res st)).countP Pc.isReading + 1 := by
    rw [Pool.countP_set_leave ht rfl rfl]
    exact hL.readers.symm
  generalize hn' : (s.threads.set t (.storing res st)).countP Pc.isReading = n at hn
  have hkeep : ∀ (u : Nat) f b c, (s.threads.set t (.storing res st))[u]? = some (.reading f b c) →
      f = 4 := by
    intro u f b c hu
    rcases Pool.getElem?_set_cases hu with ⟨-, he⟩ | ⟨-, hu⟩
    · cases he
    · exact hL.stream u f b c hu
  have hh := hL.handles
  cases l with
  | absent => cases hn
  | held m =>
    cases hn
    refine ⟨_, rfl, ?_, ?_, hkeep⟩
    · simp only [HandlesAre, World.handles, Handles.mk.injEq] at hh
      obtain ⟨h1, h2, h3, h4, h5, h6, h7, h8, h9, h10⟩ := hh
      simp only [World.ccnxReleaseLocked, h6, World.predU32_succ]
      by_cases h0 : n % 0x100000000 = 0
      · simp [HandlesAre, World.handles, World.ccnxClose, Handles.cleared, Libccn.destroy, h0, h1,
          h2, h3, h4, h5, h7, h8, h9, h10]
      · simp [HandlesAre, World.handles, h0, h1, h2, h3, h4, h5, h7, h8, h9, h10]
    · simp only [Sys.readers, hn']
      split <;> rfl
  | spent m c k =>
    cases hn
    refine ⟨_, rfl, ?_, ?_, hkeep⟩
    · simp only [HandlesAre, World.handles, Handles.cleared, Handles.mk.injEq] at hh
      obtain ⟨h1, h2, h3, h4, h5, h6, h7, h8, h9, h10⟩ := hh
      simp only [World.ccnxReleaseLocked, h6, World.predU32_succ]
      by_cases h0 : n % 0x100000000 = 0
      · simp [HandlesAre, World.handles, World.ccnxClose, Handles.cleared, Libccn.destroy, h0, h1,
          h2, h3, h4, h5, h7, h8, h9, h10]
      · simp [HandlesAre, World.handles, Handles.cleared, h0, h1, h2, h3, h4, h5, h7, h8, h9, h10]
    · exact hn'

/-- Every step of the threads acquires, releases, or leaves the lease as it is. -/
theorem Leases.next (hL : Leases s l) {a : Act} (h : step K s a = some s') :
    ∃ l', Leases s' l' ∧ (l' = l ∨ ∃ b, Lease.step 0x100000000 l b = some l') := by
  by_cases hc : ∃ t buf count, a = .readCheck t buf count
  · obtain ⟨t, buf, count, rfl⟩ := hc
    rcases hL.readCheck h with ⟨hL', -, -⟩ | ⟨-, n, -, hstep, hL'⟩
    · exact ⟨l, hL', .inl rfl⟩
    · exact ⟨_, hL', .inr ⟨_, hstep⟩⟩
  · by_cases hr : ∃ t answers, a = .readSection t answers
    · obtain ⟨t, answers, rfl⟩ := hr
      obtain ⟨l', hstep, hL'⟩ := hL.readSection h
      exact ⟨l', hL', .inr ⟨_, hstep⟩⟩
    · exact ⟨l, hL.quiet (fun t buf count he => hc ⟨t, buf, count, he⟩)
        (fun t answers he => hr ⟨t, answers, he⟩) h, .inl rfl⟩

theorem leases_refine (K : FetchCodes) : Refines (step K) (Lease.step 0x100000000) Leases := by
  intro s a s' l hL h
  obtain ⟨l', hL', rfl | ⟨b, hb⟩⟩ := hL.next h
  · exact ⟨[], l', rfl, hL'⟩
  · exact ⟨[b], l', by rw [run_cons, hb]; rfl, hL'⟩

/-- In every run the threads lease the handles as `Lease` says. -/
theorem leases_run (K : FetchCodes) (env : InitEnv) (ccnxName : String) (n : Nat)
    {acts : List Act} {s : Sys} (h : run (step K) (start env ccnxName n) acts = some s) :
    ∃ bs l, run (Lease.step 0x100000000) (leaseAfterInit env ccnxName) bs = some l ∧ Leases s l :=
  (leases_refine K).run (leases_start env ccnxName n) h

end

/-! ## No handle is used after it was destroyed, or destroyed twice -/

/-- The state is in a sound state of the lease. -/
def SoundlyLeased (s : Sys) : Prop := ∃ l, Leases s l ∧ Lease.Sound l

/-- With fewer than `2 ^ 32` readers before a step, the lease stays sound. -/
theorem SoundlyLeased.next {K : FetchCodes} {s s' : Sys} {a : Act} (hS : SoundlyLeased s)
    (hM : s.readers < 0x100000000) (h : step K s a = some s') : SoundlyLeased s' := by
  obtain ⟨l, hL, hs⟩ := hS
  obtain ⟨l', hL', rfl | ⟨b, hb⟩⟩ := hL.next h
  · exact ⟨_, hL', hs⟩
  · exact ⟨l', hL', hs.next (hL.readers ▸ hM) hb⟩

theorem soundlyLeased_start (env : InitEnv) (ccnxName : String) (n : Nat) :
    SoundlyLeased (start env ccnxName n) := by
  refine ⟨_, leases_start env ccnxName n, ?_⟩
  unfold leaseAfterInit
  split <;> trivial

/-- The state of the handles as the readers need it. -/
structure HandlesOk (K : FetchCodes) (s : Sys) : Prop where
  /-- `mCCNxRef` counts the `Read` calls that hold a stream. -/
  ref : s.world.tr.mCCNxRef = s.readers
  /-- Each of them holds the current stream, and the handles it uses are live. -/
  reading : ∀ (t : Nat) f buf count, s.threads[t]? = some (.reading f buf count) →
    s.world.tr.mCCNxStream = some f ∧ s.world.lib.Live f ∧
      (∃ c, s.world.tr.mCCNx = some c ∧ s.world.lib.Live c) ∧
      ∃ g, s.world.tr.mCCNxFetch = some g ∧ s.world.lib.Live g
  /-- The assertion of `CCNX_ReleaseLocked` has never failed. -/
  assertion : s.world.wrongNdn = false
  closes : s.world.closes ≤ 1
  once : s.world.lib.destroyed.Nodup
  /-- After `CCNX_Close`, a `Read` returns at once and leaves the transport and libccn alone. -/
  after : s.world.closes = 1 → ∀ t buf count s', step K s (.readCheck t buf count) = some s' →
    s'.world = s.world ∧ ∃ rv, s'.threads[t]? = some (.returned rv 0)

theorem SoundlyLeased.ok {K : FetchCodes} {s : Sys} (hS : SoundlyLeased s)
    (hM : s.readers < 0x100000000) : HandlesOk K s := by
  obtain ⟨l, hL, hs⟩ := hS
  have hh := hL.handles
  have hreaders : s.readers = l.holders := hL.readers
  have hpos : ∀ (t : Nat) f buf count, s.threads[t]? = some (.reading f buf count) →
      0 < s.readers := fun t f buf count ht =>
    List.countP_pos_iff.2 ⟨_, List.mem_of_getElem? ht, rfl⟩
  have hrefused : ∀ (t : Nat) buf count s', l ≠ .held l.holders →
      step K s (.readCheck t buf count) = some s' →
      s'.world = s.world ∧ ∃ rv, s'.threads[t]? = some (.returned rv 0) := by
    intro t buf count s' hl h
    rcases hL.readCheck h with ⟨-, hw, rv, -, ht⟩ | ⟨-, n, rfl, -, -⟩
    · exact ⟨hw, rv, ht⟩
    · exact absurd rfl hl
  cases l with
  | absent =>
    have h0 : s.readers = 0 := hreaders
    generalize hw : s.world.handles = w at hh
    have hcase : s.world.tr.mCCNxRef = 0 ∧ s.world.wrongNdn = false ∧ s.world.closes = 0 ∧
        s.world.lib.destroyed.Nodup := by
      cases hh <;> simp only [World.handles, Handles.cleared, Handles.mk.injEq] at hw <;>
        simp [hw]
    obtain ⟨h1, h2, h3, h4⟩ := hcase
    refine ⟨by omega, fun t f buf count ht => ?_, h2, by omega, h4, fun _ t buf count s' h =>
      hrefused t buf count s' nofun h⟩
    have := hpos t f buf count ht
    omega
  | held n =>
    have hn : s.readers = n := hreaders
    simp only [HandlesAre, World.handles, Handles.mk.injEq] at hh
    obtain ⟨h1, h2, h3, h4, h5, h6, h7, h8, h9, h10⟩ := hh
    refine ⟨?_, fun t f buf count ht => ?_, h10, by omega, by simp [h8], fun hc => by omega⟩
    · rw [h6, hn, Nat.mod_eq_of_lt (by omega)]
    · obtain rfl := hL.stream t f buf count ht
      rw [h8]
      exact ⟨h5, by decide, ⟨0, h1, by decide⟩, 2, h2, by decide⟩
  | spent n c k =>
    obtain ⟨rfl, rfl, rfl⟩ := hs
    have h0 : s.readers = 0 := hreaders
    simp only [HandlesAre, World.handles, Handles.cleared, Handles.mk.injEq] at hh
    obtain ⟨-, -, -, -, -, h6, -, h8, h9, h10⟩ := hh
    refine ⟨by rw [h6, h0], fun t f buf count ht => ?_, by simpa using h10, by omega,
      by rw [h8]; decide, fun _ t buf count s' h => hrefused t buf count s' nofun h⟩
    have := hpos t f buf count ht
    omega

/-- After `Init`, whatever it returned, the handles are in order in every state that the threads
reach with fewer than `2 ^ 32` readers at any time. -/
theorem handles_ok (K : FetchCodes) (env : InitEnv) (ccnxName : String) (n : Nat)
    (acts : List Act) (s : Sys) (h : run (step K) (start env ccnxName n) acts = some s)
    (hM : EachState (step K) (fun s => s.readers < 0x100000000) (start env ccnxName n) acts) :
    HandlesOk K s :=
  have hS := eachState_of_inv (fun _ _ _ => SoundlyLeased.next)
    (soundlyLeased_start env ccnxName n) hM.steps
  (hS.last h).ok (hM.last h)

/-- Two overlapping calls of `Read`, a close between their sections, and a third call after
`CCNX_Close`. -/
def overlapping : List Act :=
  [.readCheck 0 [0, 0] 2, .readCheck 1 [0] 1, .close 2 nsOk,
    .readSection 1 [.data [7], .ended], .readSection 0 [.ended], .readStore 0, .readReturn 0,
    .readCheck 0 [0, 0] 2]

theorem handles_ok_overlapping :
    ∃ s, run (step fetchCodes) (start {} "ccnx:/a" 3) overlapping = some s ∧ s.world.closes = 1 ∧
      HandlesOk fetchCodes s :=
  ⟨_, rfl, rfl, handles_ok fetchCodes {} "ccnx:/a" 3 overlapping _ rfl (by decide)⟩

end Transport
