import Apicast.Foundation.TransitionSystem

/-!
# A budget of units that are claimed and given back

What a counting limiter and a counting semaphore are for, without any of their
mechanism: at most `limit` units are out at any time.
-/

namespace Foundation

namespace Budget

inductive Action
  | claim
  | giveBack
  deriving DecidableEq, Repr

/-- The state is the number of units that are out. -/
def machine (limit : Nat) : Machine Nat Action where
  initial := 0
  next
    | out, .claim => if out < limit then some (out + 1) else none
    | out, .giveBack => if 0 < out then some (out - 1) else none

variable {limit : Nat}

theorem next_claim {out : Nat} (free : out < limit) :
    (machine limit).next out .claim = some (out + 1) := if_pos free

theorem next_giveBack {out : Nat} (taken : 0 < out) :
    (machine limit).next out .giveBack = some (out - 1) := if_pos taken

/-- No run takes more units out than the budget has. -/
theorem out_le_limit {out : Nat} (reachable : (machine limit).Reachable out) : out ≤ limit := by
  have invariant : (machine limit).InvariantWithin (fun _ _ => True) (· ≤ limit) := by
    refine ⟨Nat.zero_le limit, ?_⟩
    intro before action after bounded _ stepped
    cases action with
    | claim =>
        obtain ⟨free, equal⟩ := Option.ite_none_right_eq_some.mp stepped
        cases equal
        exact free
    | giveBack =>
        obtain ⟨_, equal⟩ := Option.ite_none_right_eq_some.mp stepped
        cases equal
        exact Nat.le_trans (Nat.sub_le before 1) bounded
  exact invariant.of_reachable reachable

end Budget

end Foundation
