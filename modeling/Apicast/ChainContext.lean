import Apicast.Foundation.FirstMatch
import Apicast.Foundation.LinkedList
import Apicast.PolicyChain

/-!
# The context that a chain exports

`policy_chain.lua`, from the construction of a chain to its context. A chain that is constructed
with policies computes its context at once and keeps it, and the policies that are put into the
chain afterwards are not in it. A chain that is constructed empty computes its context when it is
asked for it.
-/

namespace Apicast.ChainContext

open Foundation FirstMatch

/-- A chain while it is put together. -/
structure Chain (Policy Context : Type*) where
  policies : List Policy
  /-- The context that was computed at the construction. -/
  config : Option Context
  initFailedPolicy : Option InitFailedPolicy
  frozen : Bool
  deriving DecidableEq

inductive Operation (Policy : Type*)
  /-- `_M.new` of the chain itself. -/
  | construct
  | insert (policy : Policy) (position : Option Nat)
  /-- `add_policy`, with what `load_policy` returns: a policy, an error or neither. -/
  | addPolicy (name : String) (loaded : Except (Option String) Policy)
  deriving DecidableEq

section Operations

variable {Policy Context : Type*} (context : List Policy → Option Context)

variable (self : Chain Policy Context)

/-- `_M:export` -/
def Chain.export : Option Context := self.config.or (context self.policies)

/-- `_M.new` -/
def Chain.new (list : List Policy) : Chain Policy Context :=
  let self : Chain Policy Context :=
    { policies := list, config := none, initFailedPolicy := none, frozen := false }
  { self with config := self.export context }

namespace Chain

/-- `_M:insert`. A position that is not next to a policy makes a hole in the table. -/
def insert (policy : Policy) (position : Option Nat) : Option (Chain Policy Context) :=
  if self.frozen then some self
  else
    let position := position.getD (self.policies.length + 1)
    if 1 ≤ position ∧ position ≤ self.policies.length + 1 then
      some { self with policies := self.policies.insertIdx (position - 1) policy }
    else none

/-- `_M:add_policy`. A frozen chain raises an error when it is written to. -/
def addPolicy (name : String) : Except (Option String) Policy → Option (Chain Policy Context)
  | .ok policy => self.insert policy none
  | .error (some err) =>
      if self.frozen then none else some { self with initFailedPolicy := some { name, err } }
  | .error none => some self

/-- One operation, unless it raises an error or makes a hole. -/
def apply : Operation Policy → Option (Chain Policy Context)
  | .construct =>
      if self.frozen then none else some { self with config := self.export context }
  | .insert policy position => self.insert policy position
  | .addPolicy name loaded => self.addPolicy name loaded

end Chain

/-- The chain after operations on a new one. -/
def run (list : List Policy) (operations : List (Operation Policy)) :
    Option (Chain Policy Context) :=
  operations.foldlM (Chain.apply context) (Chain.new context list)

end Operations

section Contexts

variable {Policy Key Value : Type*} (exports : Policy → Key → Option Value)

/-- The loop of `export`, from the last policy to the first. -/
def linkExports (policies : List Policy) : Option (Key → Option Value) :=
  policies.foldr
    (fun policy chain =>
      some (LinkedList.link (exports policy) (chain.getD LinkedList.emptyTable))) none

/-- The table of a context that may be missing. -/
def tableOf (context : Option (Key → Option Value)) : Key → Option Value :=
  context.getD LinkedList.emptyTable

/-- Lookup of a key in the context of a chain. A chain without a context has no key. -/
def lookup (self : Chain Policy (Key → Option Value)) : Key → Option Value :=
  tableOf (self.export (linkExports exports))

variable {exports}

/-- The chain with the tables of the policies that its context is made of. -/
def linked (exports : Policy → Key → Option Value) (self : Chain Policy (List Policy)) :
    Chain Policy (Key → Option Value) :=
  { self with config := self.config.map fun policies => tableOf (linkExports exports policies) }

variable [DecidableEq Policy]

end Contexts

section Examples

end Examples

end Apicast.ChainContext
