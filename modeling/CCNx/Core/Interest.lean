import CCNx.Core.Defs

/-!
# Is the interest name the URI without its scheme?

`Init` takes the scheme off the spec with `Trim`, which removes every leading character that is one
of `c`, `n`, `x` and `:`; those of the name go with the scheme (`name_shortened`). `interest_iff`:
the name is what follows the scheme exactly if it does not begin with one of the four.
-/

set_option autoImplicit false

namespace Core

open Xpcom

/-- `Init` succeeds and the interest name is `s`; `out` is what it returns and the core. -/
def NamedBy (s : String) (out : NsResult × NsCCNxCore) : Prop :=
  nsFailed out.1 = false ∧ out.2.mInterest = s

/-- Two cores, for channels whose specs are `ccnx:` followed by `s` and by `t`. `Connect` gives
`mInterest` to `nsCCNxTransport::Init`. -/
structure NamesOk (s t : String) (out out' : NsResult × NsCCNxCore) : Prop where
  first : NamedBy s out
  second : NamedBy t out'
  distinct : s ≠ t → out.2.mInterest ≠ out'.2.mInterest

/-- The name does not begin with a character of the scheme. -/
def BeginsOutside (s : String) : Prop := ∀ c ∈ s.toList.head?, c ∉ "ccnx:".toList

instance {s : String} : Decidable (BeginsOutside s) :=
  Option.decidableForallMem s.toList.head?

variable {c : NsCCNxCore} {rv : NsResult}

/-- Whatever `GetAsciiSpec` returns, `Init` has trimmed the spec. -/
theorem init_eq (c : NsCCNxCore) (rv : NsResult) (s : String) :
    c.init (rv, "ccnx:" ++ s) =
      (if nsFailed rv then rv else nsOk, { c with mInterest := trimLeading "ccnx:" s }) := by
  simp only [NsCCNxCore.init, trimLeading_append]
  split <;> rfl

theorem namedBy_iff (hrv : nsFailed rv = false) (s : String) :
    NamedBy s (c.init (rv, "ccnx:" ++ s)) ↔ BeginsOutside s := by
  rw [NamedBy, init_eq, hrv]
  exact (and_iff_right failed_ok).trans (trimLeading_eq_self_iff "ccnx:" s)

/-- For all strings, and any two cores whose `GetAsciiSpec` succeeds: the names are the specs
without their scheme if and only if neither begins with a character of it. -/
theorem interest_iff (c c' : NsCCNxCore) (rv rv' : NsResult) (s t : String)
    (hrv : nsFailed rv = false) (hrv' : nsFailed rv' = false) :
    NamesOk s t (c.init (rv, "ccnx:" ++ s)) (c'.init (rv', "ccnx:" ++ t)) ↔
      BeginsOutside s ∧ BeginsOutside t := by
  rw [← namedBy_iff (c := c) hrv s, ← namedBy_iff (c := c') hrv' t]
  constructor
  · exact fun hN => ⟨hN.first, hN.second⟩
  · intro ⟨hs, ht⟩
    refine ⟨hs, ht, fun hne => ?_⟩
    rwa [hs.2, ht.2]

theorem absoluteNames_ok :
    NamesOk "/parc/x" "/parc/n" (({} : NsCCNxCore).init (nsOk, "ccnx:/parc/x"))
      (({} : NsCCNxCore).init (nsOk, "ccnx:/parc/n")) :=
  (interest_iff {} {} nsOk nsOk "/parc/x" "/parc/n" (by decide) (by decide)).2 (by decide)

/-- The first letters of the name are letters of the scheme; another name is left. -/
theorem name_shortened :
    ¬ ∀ (c c' : NsCCNxCore) (rv rv' : NsResult) (s t : String), nsFailed rv = false →
        nsFailed rv' = false →
        NamesOk s t (c.init (rv, "ccnx:" ++ s)) (c'.init (rv', "ccnx:" ++ t)) := by
  intro hP
  have hN := hP {} {} nsOk nsOk "name" "ame" (by decide) (by decide)
  exact absurd hN.first.2 (by decide)

end Core
