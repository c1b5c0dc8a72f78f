import CCNx.Transport.Handles

/-!
# What a lone reader is told

Reads that come one after the other, as a copier makes them, on a stream that nobody closes.
`told_lone`: if `Init` has opened no stream, each of them is told that the stream is closed. Else
the first is told how its fetch has ended, and every later one the same failure, or, after a fetch
that has ended well, that the stream is closed. So none but the first has the `NS_OK` that stands
for the end of a stream (`Told.late_failed`).
-/

set_option autoImplicit false

namespace Transport

open Xpcom Runs

/-- In a call of `Read`, past its first section. -/
def Pc.inRead : Pc → Bool
  | reading _ _ _ | storing _ _ | returning _ => true
  | _ => false

/-- What a `Read` that returns in this step tells its caller: the status, and `*countRead`. -/
def told (s : Sys) : Act → List (NsResult × Nat)
  | .readCheck _ _ _ =>
    match (readCheck s.world.tr).1 with
    | .error rv => [(rv, 0)]
    | .ok _ => []
  | .readReturn t =>
    match s.threads[t]? with
    | some (.returning st) => [(readReturn s.world.tr, st.countRead)]
    | _ => []
  | _ => []

/-- No `Read` is past its first section. -/
def Sys.idle (s : Sys) : Bool := s.threads.all fun pc => !pc.inRead

/-- A `Read` begins when no other one is under way, and nobody closes the stream. -/
def ReadsLone (s : Sys) : Act → Prop
  | .readCheck _ _ _ => s.idle = true
  | .closeWithStatus _ _ | .close _ _ => False
  | _ => True

instance (s : Sys) : DecidablePred (ReadsLone s) := fun a =>
  match a with
  | .readCheck _ _ _ => inferInstanceAs (Decidable (_ = true))
  | .closeWithStatus _ _ | .close _ _ => inferInstanceAs (Decidable False)
  | .readSection _ _ | .readStore _ | .readReturn _ | .asyncWait _ _ _ _ _ | .notify _
  | .openInputStream _ _ _ | .destruct _ => inferInstanceAs (Decidable True)

/-- What the later calls are told when one has ended with `rv`. -/
def lateStatus (rv : NsResult) : NsResult := if nsFailed rv then rv else nsBaseStreamClosed

/-- The read loop of one of the sections ended with `res`. -/
def Fetched (K : FetchCodes) (acts : List Act) (res : Int) (st : ReadSt) : Prop :=
  ∃ t answers buf count, .readSection t answers ∈ acts ∧
    readLoop K count answers { buf } = some (st, res, [])

/-- What lone reads are told over a run. -/
inductive Told (K : FetchCodes) (acts : List Act) : List (NsResult × Nat) → Prop
  | refused (k : Nat) : Told K acts (List.replicate k (nsBaseStreamClosed, 0))
  | fetched (res : Int) (st : ReadSt) (k : Nat) (fetched : Fetched K acts res st) :
    Told K acts ((errorAccordingToCCNX K res, st.countRead) ::
      List.replicate k (lateStatus (errorAccordingToCCNX K res), 0))

section
variable {K : FetchCodes} {s s' : Sys} {a : Act} {t u : Nat} {pc pc' : Pc}

/-- The thread `t` is the only one past the first section of a `Read`. -/
structure Only (s : Sys) (t : Nat) (pc : Pc) : Prop where
  at_t : s.threads[t]? = some pc
  only : ∀ (u : Nat) pc', s.threads[u]? = some pc' → pc'.inRead = true → u = t

theorem idle_iff : s.idle = true ↔ ∀ (u : Nat) pc, s.threads[u]? = some pc → pc.inRead = false := by
  simp only [Sys.idle, List.all_eq_true, Bool.not_eq_true']
  constructor
  · exact fun h u pc hu => h pc (List.mem_of_getElem? hu)
  · intro h pc hpc
    obtain ⟨u, hu⟩ := List.mem_iff_getElem?.1 hpc
    exact h u pc hu

theorem Only.eq (hO : Only s t pc) (hu : s.threads[u]? = some pc') (hin : pc'.inRead = true) :
    u = t ∧ pc' = pc := by
  obtain rfl := hO.only u pc' hu hin
  rw [hO.at_t] at hu
  exact ⟨rfl, (Option.some.inj hu).symm⟩

theorem Only.set (hO : Only s t pc) (hth : s'.threads = s.threads.set t pc') : Only s' t pc' := by
  refine ⟨by rw [hth]; exact Pool.getElem?_set_same hO.at_t, fun u pc'' hu hin => ?_⟩
  rw [hth] at hu
  rcases Pool.getElem?_set_cases hu with ⟨rfl, -⟩ | ⟨-, hu⟩
  · rfl
  · exact hO.only u pc'' hu hin

/-- The only reader returns. -/
theorem Only.leave (hO : Only s t pc) (hth : s'.threads = s.threads.set t pc')
    (hin : pc'.inRead = false) : s'.idle = true := by
  refine idle_iff.2 fun u pc'' hu => Bool.eq_false_iff.2 fun hin'' => ?_
  obtain rfl := (hO.set hth).only u pc'' hu hin''
  rw [hth, Pool.getElem?_set_same hO.at_t] at hu
  cases hu
  rw [hin] at hin''
  cases hin''

theorem idle_set (hI : s.idle = true) (hth : s'.threads = s.threads.set t pc')
    (hin : pc'.inRead = false) : s'.idle = true := by
  refine idle_iff.2 fun u pc hu => ?_
  rw [hth] at hu
  rcases Pool.getElem?_set_cases hu with ⟨-, rfl⟩ | ⟨-, hu⟩
  · exact hin
  · exact idle_iff.1 hI u pc hu

theorem idle_enter (hI : s.idle = true) (ht : s.threads[t]? = some pc)
    (hth : s'.threads = s.threads.set t pc') : Only s' t pc' := by
  refine ⟨by rw [hth]; exact Pool.getElem?_set_same ht, fun u pc'' hu hin => ?_⟩
  rw [hth] at hu
  rcases Pool.getElem?_set_cases hu with ⟨rfl, -⟩ | ⟨-, hu⟩
  · rfl
  · rw [idle_iff.1 hI u pc'' hu] at hin
    cases hin

/-! ## The stages of a lone reader -/

/-- How far the reads have come, and what they were told. -/
inductive Stage (K : FetchCodes) (acts : List Act) (s : Sys) : List (NsResult × Nat) → Prop
  | refused (k : Nat) (lease : Leases s .absent) (cond : s.mCondition = nsOk)
    (idle : s.idle = true) : Stage K acts s (List.replicate k (nsBaseStreamClosed, 0))
  | unread (lease : Leases s (.held 0)) (cond : s.mCondition = nsOk) (idle : s.idle = true) :
    Stage K acts s []
  | reading (t : Nat) (f : Obj) (buf : List UInt8) (count : Nat) (lease : Leases s (.held 1))
    (only : Only s t (.reading f buf count)) : Stage K acts s []
  | storing (t : Nat) (res : Int) (st : ReadSt) (fetched : Fetched K acts res st)
    (lease : Leases s (.spent 0 1 0)) (only : Only s t (.storing res st)) : Stage K acts s []
  | returning (t : Nat) (res : Int) (st : ReadSt) (fetched : Fetched K acts res st)
    (lease : Leases s (.spent 0 1 0)) (cond : s.mCondition = errorAccordingToCCNX K res)
    (only : Only s t (.returning st)) : Stage K acts s []
  | read (res : Int) (st : ReadSt) (k : Nat) (fetched : Fetched K acts res st)
    (lease : Leases s (.spent 0 1 0)) (cond : s.mCondition = errorAccordingToCCNX K res)
    (idle : s.idle = true) : Stage K acts s ((errorAccordingToCCNX K res, st.countRead) ::
      List.replicate k (lateStatus (errorAccordingToCCNX K res), 0))

variable {acts : List Act} {out : List (NsResult × Nat)}

theorem Fetched.mono {res : Int} {st : ReadSt} (hF : Fetched K acts res st) :
    Fetched K (acts ++ [a]) res st := by
  obtain ⟨t, answers, buf, count, hmem, hloop⟩ := hF
  exact ⟨t, answers, buf, count, List.mem_append_left _ hmem, hloop⟩

theorem errorAccordingToCCNX_ne_closed (res : Int) :
    errorAccordingToCCNX K res ≠ nsBaseStreamClosed := by
  unfold errorAccordingToCCNX
  repeat' split
  all_goals decide

/-- What a `Read` that gets no stream is told, on a stream that nobody has closed. -/
theorem readCheck_told {tr tr' : NsCCNxTransport} {rv : NsResult}
    (h : readCheck tr = (.error rv, tr')) (hne : tr.mInput.mCondition ≠ nsBaseStreamClosed) :
    rv = lateStatus tr.mInput.mCondition := by
  unfold readCheck at h
  by_cases hc : nsFailed tr.mInput.mCondition = true
  · rw [if_pos hc, if_neg hne] at h
    cases h
    exact (if_pos hc).symm
  · rw [if_neg hc] at h
    rw [lateStatus, if_neg hc]
    split at h <;> cases h
    rfl

theorem outside_not_inRead (h : pc.outside = true) : pc.inRead = false := by
  cases pc <;> first | rfl | cases h

/-- The steps that are none of `Read` move no thread that is past its first section. -/
theorem step_inRead (hr : ∀ t buf count, a ≠ .readCheck t buf count)
    (hsec : ∀ t answers, a ≠ .readSection t answers) (hst : ∀ t, a ≠ .readStore t)
    (hret : ∀ t, a ≠ .readReturn t) (h : step K s a = some s') (hin : pc.inRead = true) :
    s'.threads[u]? = some pc ↔ s.threads[u]? = some pc := by
  cases a with
  | readCheck t buf count => exact absurd rfl (hr t buf count)
  | readSection t answers => exact absurd rfl (hsec t answers)
  | readStore t => exact absurd rfl (hst t)
  | readReturn t => exact absurd rfl (hret t)
  | closeWithStatus t reason =>
    obtain ⟨closed, rfl⟩ := step_close rfl h
    exact Iff.rfl
  | close t reason =>
    obtain ⟨closed, rfl⟩ := step_close rfl h
    exact Iff.rfl
  | asyncWait t newEvent callback flags target =>
    obtain ⟨pc', hpc', rfl⟩ := step_asyncWait h
    obtain ⟨ht, ho⟩ := caller_eq_some.1 hpc'
    refine Pool.getElem?_set_iff Pc.inRead ht (outside_not_inRead ho) ?_ hin
    split
    · rfl
    · exact outside_not_inRead ho
  | notify t =>
    obtain ⟨w, ht, rfl⟩ := step_notify h
    exact Pool.getElem?_set_iff Pc.inRead ht rfl rfl hin
  | openInputStream t flags env =>
    rw [step_openInputStream h]
  | destruct onMain =>
    obtain ⟨-, rfl⟩ := step_destruct h
    exact Iff.rfl

/-- The steps that are none of `Read` and no close tell nothing and keep the stage. -/
theorem Stage.aside (hS : Stage K acts s out) (hr : ∀ t buf count, a ≠ .readCheck t buf count)
    (hsec : ∀ t answers, a ≠ .readSection t answers) (hst : ∀ t, a ≠ .readStore t)
    (hret : ∀ t, a ≠ .readReturn t) (hcl : a.reason? = none) (h : step K s a = some s') :
    Stage K (acts ++ [a]) s' out := by
  have hcond : s'.mCondition = s.mCondition := by
    have := step_mCondition hst h
    rwa [hcl] at this
  have hthreads : ∀ (u : Nat) pc, pc.inRead = true →
      (s'.threads[u]? = some pc ↔ s.threads[u]? = some pc) := fun u pc =>
    step_inRead hr hsec hst hret h
  have hidle : s.idle = true → s'.idle = true := fun hI =>
    idle_iff.2 fun u pc hu => Bool.eq_false_iff.2 fun hin =>
      absurd (idle_iff.1 hI u pc ((hthreads u pc hin).1 hu)) (by simp [hin])
  have honly : ∀ {t pc}, pc.inRead = true → Only s t pc → Only s' t pc := fun hin hO =>
    ⟨(hthreads _ _ hin).2 hO.at_t, fun u pc' hu hin' =>
      hO.only u pc' ((hthreads u pc' hin').1 hu) hin'⟩
  have hlease : ∀ {l}, Leases s l → Leases s' l := fun hL => hL.quiet hr hsec h
  cases hS with
  | refused k hL hc hI => exact .refused k (hlease hL) (hcond.trans hc) (hidle hI)
  | unread hL hc hI => exact .unread (hlease hL) (hcond.trans hc) (hidle hI)
  | reading t f buf count hL hO => exact .reading t f buf count (hlease hL) (honly rfl hO)
  | storing t res st hF hL hO => exact .storing t res st hF.mono (hlease hL) (honly rfl hO)
  | returning t res st hF hL hc hO =>
    exact .returning t res st hF.mono (hlease hL) (hcond.trans hc) (honly rfl hO)
  | read res st k hF hL hc hI =>
    exact .read res st k hF.mono (hlease hL) (hcond.trans hc) (hidle hI)

/-- A `Read` that begins alone is told at once that it gets nothing, or is the first to read. -/
theorem Stage.readCheck {t count : Nat} {buf : List UInt8} (hS : Stage K acts s out)
    (hI : s.idle = true) (h : step K s (.readCheck t buf count) = some s') :
    Stage K (acts ++ [.readCheck t buf count]) s' (out ++ told s (.readCheck t buf count)) := by
  have hbusy : ∀ {t pc}, pc.inRead = true → ¬ Only s t pc := fun hin hO => by
    rw [idle_iff.1 hI _ _ hO.at_t] at hin
    cases hin
  obtain ⟨pc, hpc, -⟩ := step_readCheck h
  obtain ⟨ht, ho⟩ := caller_eq_some.1 hpc
  -- what happens if the lease has no stream to give
  have hrefused : ∀ {l}, Leases s l → (∀ n, l ≠ .held n) → s.mCondition ≠ nsBaseStreamClosed →
      Leases s' l ∧ s'.mCondition = s.mCondition ∧ s'.idle = true ∧
        told s (.readCheck t buf count) = [(lateStatus s.mCondition, 0)] := by
    intro l hL hl hne
    rcases hL.readCheck h with ⟨hL', hw, rv, hrv, -⟩ | ⟨-, n, hn, -⟩
    · have hrv' : Transport.readCheck s.world.tr =
          (.error rv, (Transport.readCheck s.world.tr).2) := Prod.ext hrv rfl
      refine ⟨hL', congrArg (·.tr.mInput.mCondition) hw, ?_, ?_⟩
      · obtain ⟨-, -, ⟨-, -, rfl⟩ | ⟨f, hf, hon, hc, -⟩⟩ := step_readCheck h
        · exact idle_set hI rfl rfl
        · rw [readCheck_open hc hon hf] at hrv
          cases hrv
      · rw [told, hrv, readCheck_told hrv' hne]
        rfl
    · exact absurd hn (hl n)
  cases hS with
  | refused k hL hc _ =>
    obtain ⟨hL', hc', hI', htold⟩ := hrefused hL (by simp) (by rw [hc]; decide)
    rw [htold, hc, show lateStatus nsOk = nsBaseStreamClosed from rfl, ← List.replicate_succ']
    exact .refused (k + 1) hL' (hc'.trans hc) hI'
  | unread hL hc _ =>
    have hh : s.world.handles = _ := hL.handles
    simp only [World.handles, Handles.mk.injEq] at hh
    obtain ⟨-, -, -, -, hstream, -, honline, -⟩ := hh
    have hgood : nsFailed s.world.tr.mInput.mCondition = false := by
      rw [← Sys.mCondition, hc]
      rfl
    have hopen := readCheck_open hgood honline hstream
    rcases hL.readCheck h with ⟨-, -, rv, hrv, -⟩ | ⟨-, n, hn, -, hL'⟩
    · rw [hopen] at hrv
      cases hrv
    · cases hn
      obtain ⟨-, -, ⟨rv, hrv, -⟩ | ⟨f, -, -, -, rfl⟩⟩ := step_readCheck h
      · rw [hopen] at hrv
        cases hrv
      · rw [told, hopen]
        exact .reading t f buf count hL' (idle_enter hI ht rfl)
  | reading u f buf count hL hO => exact absurd hO (hbusy rfl)
  | storing u res st hF hL hO => exact absurd hO (hbusy rfl)
  | returning u res st hF hL hc hO => exact absurd hO (hbusy rfl)
  | read res st k hF hL hc _ =>
    obtain ⟨hL', hc', hI', htold⟩ := hrefused hL (by simp) (hc ▸ errorAccordingToCCNX_ne_closed res)
    rw [htold, hc, List.cons_append, ← List.replicate_succ']
    exact .read res st (k + 1) hF.mono hL' (hc'.trans hc) hI'

/-- A thread past the first section of a `Read` is the only one, nobody has been told anything yet,
and its position says how far the read has come. -/
theorem Stage.busy (hS : Stage K acts s out) (ht : s.threads[t]? = some pc)
    (hin : pc.inRead = true) :
    out = [] ∧ Only s t pc ∧
      match pc with
      | .reading _ _ _ => Leases s (.held 1)
      | .storing res st => Fetched K acts res st ∧ Leases s (.spent 0 1 0)
      | .returning st => ∃ res, Fetched K acts res st ∧ Leases s (.spent 0 1 0) ∧
          s.mCondition = errorAccordingToCCNX K res
      | _ => False := by
  have hbusy : s.idle ≠ true := fun hI => by
    rw [idle_iff.1 hI t pc ht] at hin
    cases hin
  cases hS with
  | refused k hL hc hI => exact absurd hI hbusy
  | unread hL hc hI => exact absurd hI hbusy
  | reading u f buf count hL hO =>
    obtain ⟨rfl, rfl⟩ := hO.eq ht hin
    exact ⟨rfl, hO, hL⟩
  | storing u res st hF hL hO =>
    obtain ⟨rfl, rfl⟩ := hO.eq ht hin
    exact ⟨rfl, hO, hF, hL⟩
  | returning u res st hF hL hc hO =>
    obtain ⟨rfl, rfl⟩ := hO.eq ht hin
    exact ⟨rfl, hO, res, hF, hL, hc⟩
  | read res st k hF hL hc hI => exact absurd hI hbusy

/-- The section of the only reader gives the stream back for good. -/
theorem Stage.readSection {answers : List Answer} (hS : Stage K acts s out)
    (h : step K s (.readSection t answers) = some s') :
    Stage K (acts ++ [.readSection t answers]) s' (out ++ told s (.readSection t answers)) := by
  obtain ⟨f, buf, count, st, res, ht, hloop, hs'⟩ := step_readSection h
  obtain ⟨rfl, hO, hL⟩ := hS.busy ht rfl
  obtain ⟨l', hstep, hL'⟩ := hL.readSection h
  cases hstep
  have hF : Fetched K (acts ++ [.readSection t answers]) res st :=
    ⟨t, answers, buf, count, List.mem_append_right _ List.mem_cons_self, hloop⟩
  exact .storing t res st hF hL' (hO.set (by rw [hs']))

/-- The store of the only reader. -/
theorem Stage.readStore (hS : Stage K acts s out) (h : step K s (.readStore t) = some s') :
    Stage K (acts ++ [.readStore t]) s' (out ++ told s (.readStore t)) := by
  obtain ⟨res, st, ht, hs'⟩ := step_readStore h
  obtain ⟨rfl, hO, hF, hL⟩ := hS.busy ht rfl
  have hc : s'.mCondition = errorAccordingToCCNX K res := by
    rw [hs']
    rfl
  exact .returning t res st hF.mono (hL.quiet (by simp) (by simp) h) hc (hO.set (by rw [hs']))

/-- The only reader is told what it has stored. -/
theorem Stage.readReturn (hS : Stage K acts s out) (h : step K s (.readReturn t) = some s') :
    Stage K (acts ++ [.readReturn t]) s' (out ++ told s (.readReturn t)) := by
  obtain ⟨st, ht, hs'⟩ := step_readReturn h
  obtain ⟨rfl, hO, res, hF, hL, hc⟩ := hS.busy ht rfl
  have htold : told s (.readReturn t) = [(errorAccordingToCCNX K res, st.countRead)] := by
    rw [told, ht, ← hc]
    rfl
  have hc' : s'.mCondition = errorAccordingToCCNX K res := by
    rw [hs']
    exact hc
  rw [htold]
  exact .read res st 0 hF.mono (hL.quiet (by simp) (by simp) h) hc' (hO.leave (by rw [hs']) rfl)

theorem Stage.next (hS : Stage K acts s out) (hC : ReadsLone s a) (h : step K s a = some s') :
    Stage K (acts ++ [a]) s' (out ++ told s a) := by
  cases a with
  | readCheck t buf count => exact hS.readCheck hC h
  | readSection t answers => exact hS.readSection h
  | readStore t => exact hS.readStore h
  | readReturn t => exact hS.readReturn h
  | closeWithStatus t reason => cases hC
  | close t reason => cases hC
  | _ =>
    have hT := hS.aside (by simp) (by simp) (by simp) (by simp) rfl h
    rwa [← List.append_nil out] at hT

theorem Stage.told (hS : Stage K acts s out) : Told K acts out := by
  cases hS with
  | refused k => exact .refused k
  | unread => exact .refused 0
  | reading => exact .refused 0
  | storing => exact .refused 0
  | returning => exact .refused 0
  | read res st k hF => exact .fetched res st k hF

/-- After the first, no lone `Read` is told of an end of the stream. -/
theorem Told.late_failed (hT : Told K acts out) :
    ∀ r ∈ out.tail, nsFailed r.1 = true ∧ r.2 = 0 := by
  intro r hr
  cases hT with
  | refused k =>
    obtain ⟨-, rfl⟩ := List.mem_replicate.1 (List.mem_of_mem_tail hr)
    exact ⟨rfl, rfl⟩
  | fetched res st k hF =>
    obtain ⟨-, rfl⟩ := List.mem_replicate.1 hr
    refine ⟨?_, rfl⟩
    unfold lateStatus
    split
    · assumption
    · rfl

end

end Transport
