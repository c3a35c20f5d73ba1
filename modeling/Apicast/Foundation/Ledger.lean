import Apicast.Foundation.TransitionSystem
import Mathlib.Algebra.Group.Basic
import Mathlib.Tactic.Abel

/-!
# Ledgers

What is recorded for an account stays outstanding until it is settled. A component
that can be viewed as a ledger neither loses what was recorded nor settles it
twice.
-/

namespace Foundation

/-- Per account, what is outstanding, what has been settled and what was recorded. -/
structure Ledger (Account Amount : Type*) where
  outstanding : Account → Amount
  settled : Account → Amount
  recorded : Account → Amount

/-- The two ways in which a ledger changes. -/
inductive LedgerAction (Account Amount : Type*)
  | record (entries : Account → Amount)
  | settle (entries : Account → Amount)

namespace Ledger

variable {Account Amount : Type*} [AddCommGroup Amount]

/-- Record new amounts, or settle outstanding ones. -/
def apply (ledger : Ledger Account Amount) : LedgerAction Account Amount → Ledger Account Amount
  | .record entries =>
      { ledger with
        outstanding := ledger.outstanding + entries
        recorded := ledger.recorded + entries }
  | .settle entries =>
      { ledger with
        outstanding := ledger.outstanding - entries
        settled := ledger.settled + entries }

variable (Account Amount) in
def machine : Machine (Ledger Account Amount) (LedgerAction Account Amount) where
  initial := ⟨0, 0, 0⟩
  next ledger action := some (ledger.apply action)

/-- What was recorded is either outstanding or settled. -/
theorem outstanding_add_settled {ledger : Ledger Account Amount}
    (reachable : (machine Account Amount).Reachable ledger) (account : Account) :
    ledger.outstanding account + ledger.settled account = ledger.recorded account := by
  induction reachable with
  | initial => exact add_zero 0
  | @step before after action _ _ stepped ih =>
      obtain rfl := Option.some.inj stepped
      cases action with
      | record entries =>
          change before.outstanding account + entries account + before.settled account =
            before.recorded account + entries account
          rw [← ih]
          abel
      | settle entries =>
          change before.outstanding account - entries account +
            (before.settled account + entries account) = before.recorded account
          rw [← ih]
          abel

end Ledger

end Foundation
