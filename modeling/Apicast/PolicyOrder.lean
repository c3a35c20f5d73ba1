import Mathlib.Data.List.Basic

/-!
# The order of policies in a chain

`policy_loader.lua` and `policy_order_checker.lua`. Manifests say which policies are to be placed
before others. In a chain a policy has the name and the version of its module, so the checker looks
restrictions up by them. It has the names from the builtin versions of the policies.
-/

namespace Apicast.PolicyOrder

/-! ## Loading policies -/

/-- The name and the version of a policy in its instances. -/
structure Module where
  name : String
  version : String
  deriving DecidableEq, Repr

/-- What running `init.lua` of a directory comes to. -/
inductive Init
  | missing
  | raises
  | policy (module : Module)
  deriving DecidableEq, Repr

/-- What is in a directory: the version in `apicast-policy.json`, and what `init` is. -/
structure PolicyDirectory where
  manifestVersion : Option String
  init : Init
  deriving DecidableEq, Repr

structure PolicyLoader where
  /-- The versions in `manifests_cache`. -/
  cachedManifests : String → List String
  /-- The directories below `builtin_policy_load_path`. -/
  builtinPolicy : String → PolicyDirectory
  /-- The directories of the policies and their versions below each of `policy_load_paths`. -/
  policyPaths : List (String → String → PolicyDirectory)

namespace PolicyLoader

variable (self : PolicyLoader)

/-- What `load_manifest` finds out about a directory. -/
inductive Loaded
  | manifest
  /-- A manifest of another version. -/
  | otherVersion
  | noManifest
  deriving DecidableEq

/-- `load_manifest` -/
def loadManifest (name version : String) (directory : PolicyDirectory) : Loaded :=
  let manifestVersion :=
    if version ∈ self.cachedManifests name then some version else directory.manifestVersion
  match manifestVersion with
  | none => .noManifest
  | some manifestVersion => if manifestVersion = version then .manifest else .otherVersion

/-- The directories in which `load_path` looks for a version of a policy. -/
def directories (name version : String) : List PolicyDirectory :=
  (if version = "builtin" then [self.builtinPolicy name] else []) ++
    self.policyPaths.map fun path => path name version

/-- `load_path`: the first directory with the manifest, or else all of them that have none. -/
def loadPath (name version : String) : List PolicyDirectory :=
  let directories := self.directories name version
  match directories.find? fun directory => self.loadManifest name version directory = .manifest with
  | some directory => [directory]
  | none =>
      directories.filter fun directory => self.loadManifest name version directory = .noManifest

/-- `loader('init', true)`: the first directory with `init.lua` decides. -/
def requireInit : List PolicyDirectory → Option Module
  | [] => none
  | directory :: directories =>
      match directory.init with
      | .missing => requireInit directories
      | .raises => none
      | .policy module => some module

/-- `pcall`, with the builtin version when there is none. -/
def pcall (name : String) (version : Option String) : Option Module :=
  requireInit (self.loadPath name (version.getD "builtin"))

end PolicyLoader

/-! ## Restrictions -/

/-- A policy in a manifest. -/
structure PolicyInManifest where
  name : String
  version : String
  deriving DecidableEq, Repr

structure Order where
  before : Option (List PolicyInManifest)
  after : Option (List PolicyInManifest)

structure Manifest where
  version : String
  order : Option Order

/-- The manifests of each policy name. -/
abbrev Manifests := List (String × List Manifest)

/-- One policy is to be placed before another one. -/
structure Restriction where
  before : PolicyInManifest
  after : PolicyInManifest
  deriving DecidableEq, Repr

/-- A policy with the name that its instances have, or none. -/
structure PrettifiedPolicy where
  name : Option String
  version : String
  deriving DecidableEq, Repr

/-- The policies to be placed after others. -/
abbrev OrderRestrictions := List (Module × PrettifiedPolicy)

variable (loader : PolicyLoader)

/-- `prettified_name` -/
def prettifiedName (nameInSchema : String) : Option String :=
  (loader.pcall nameInSchema none).map Module.name

def prettified (policy : PolicyInManifest) : PrettifiedPolicy where
  name := prettifiedName loader policy.name
  version := policy.version

/-- `OrderRestrictions:insert`. A table is not indexed with nil. -/
def insert (restrictions : OrderRestrictions) (policyBefore policyAfter : PrettifiedPolicy) :
    Except String OrderRestrictions :=
  match policyBefore.name with
  | none => .error "table index is nil"
  | some name => .ok (restrictions ++ [(⟨name, policyBefore.version⟩, policyAfter)])

/-- The restrictions in the manifest of a policy. -/
def statedBy (policyName : String) (manifest : Manifest) : List Restriction :=
  match manifest.order with
  | none => []
  | some order =>
      let policyInManifest := ⟨policyName, manifest.version⟩
      ((order.before.getD []).map fun policy => ⟨policyInManifest, policy⟩) ++
        (order.after.getD []).map fun policy => ⟨policy, policyInManifest⟩

/-- The rounds of the loops of `new_from_policy_manifests`. -/
def stated (policyManifests : Manifests) : List Restriction :=
  policyManifests.flatMap fun (policyName, manifests) => manifests.flatMap (statedBy policyName)

def insertRestriction (restrictions : OrderRestrictions) (restriction : Restriction) :
    Except String OrderRestrictions :=
  insert restrictions (prettified loader restriction.before) (prettified loader restriction.after)

/-- `_M.new` -/
def new (policyManifests : Manifests) : Except String OrderRestrictions :=
  (stated policyManifests).foldlM (insertRestriction loader) []

/-- `policies_to_be_placed_after` -/
def policiesToBePlacedAfter (restrictions : OrderRestrictions) (policyBefore : Module) :
    List PrettifiedPolicy :=
  restrictions.filterMap fun (before, after) => if before = policyBefore then some after else none

/-! ## The check -/

/-- The positions of a name and a version in `positions_in_the_chain`. -/
def positionsInTheChain (policyChain : List Module) (policy : PrettifiedPolicy) : List Nat :=
  (policyChain.zipIdx 1).filterMap fun (other, index) =>
    if some other.name = policy.name ∧ other.version = policy.version then some index else none

/-- A warning that one policy should be placed before another one. -/
structure Warning where
  before : Module
  after : PrettifiedPolicy
  deriving DecidableEq, Repr

/-- The warnings about a policy of the chain and one that is to be placed after it. -/
def checkAfter (policyChain : List Module) (policy : Module) (index : Nat)
    (policyAfter : PrettifiedPolicy) : List Warning :=
  (positionsInTheChain policyChain policyAfter).filterMap fun indexAfter =>
    if index > indexAfter then some ⟨policy, policyAfter⟩ else none

/-- `_M:check` -/
def check (restrictions : OrderRestrictions) (policyChain : List Module) : List Warning :=
  (policyChain.zipIdx 1).flatMap fun (policy, index) =>
    (policiesToBePlacedAfter restrictions policy).flatMap (checkAfter policyChain policy index)

/-! ## What the check is about -/

/-- An instance of a version of a policy. -/
structure Instance where
  policy : PolicyInManifest
  module : Module
  loaded : loader.pcall policy.name (some policy.version) = some module

/-- The manifests have one of this version of the policy. -/
def Listed (policyManifests : Manifests) (policy : PolicyInManifest) : Prop :=
  ∃ manifests, (policy.name, manifests) ∈ policyManifests ∧
    ∃ manifest ∈ manifests, manifest.version = policy.version

/-- An item of one kind stands somewhere after an item of another kind. -/
def StandsAfter {Item : Type*} (one other : Item → Prop) (chain : List Item) : Prop :=
  ∃ index earlier : Nat, earlier < index ∧ (∃ item ∈ chain[index]?, one item) ∧
    ∃ item ∈ chain[earlier]?, other item

variable {loader}

/-- An instance of the first policy stands after an instance of the second one. -/
def Violated (restriction : Restriction) (chain : List (Instance loader)) : Prop :=
  StandsAfter (fun policy => policy.policy = restriction.before)
    (fun policy => policy.policy = restriction.after) chain

variable (loader)

/-- There is a warning with the names that the policies of the restriction have in a chain. -/
def Warned (restriction : Restriction) (warnings : List Warning) : Prop :=
  ∃ name, prettifiedName loader restriction.before.name = some name ∧
    ⟨⟨name, restriction.before.version⟩, prettified loader restriction.after⟩ ∈ warnings

/-- The checker can be constructed, and it warns of the restrictions that a chain violates. -/
def Exact (policyManifests : Manifests) : Prop :=
  ∃ restrictions, new loader policyManifests = .ok restrictions ∧
    ∀ chain : List (Instance loader),
      (∀ policy ∈ chain, Listed policyManifests policy.policy) →
        ∀ restriction ∈ stated policyManifests,
          Warned loader restriction (check restrictions (chain.map Instance.module)) ↔
            Violated restriction chain

/-- The module has this name and version. -/
def Module.Named (module : Module) (policy : PrettifiedPolicy) : Prop :=
  some module.name = policy.name ∧ module.version = policy.version

/-- The policies to be placed before others have builtin versions, and the names from these versions
tell the two policies of a restriction from the other ones. -/
def Identified (policyManifests : Manifests) : Prop :=
  ∀ restriction ∈ stated policyManifests,
    (prettifiedName loader restriction.before.name).isSome ∧
      ∀ first second : Instance loader, Listed policyManifests first.policy →
        Listed policyManifests second.policy →
          (first.module.Named (prettified loader restriction.before) ∧
              second.module.Named (prettified loader restriction.after) ↔
            first.policy = restriction.before ∧ second.policy = restriction.after)

section Pairs

variable {Item : Type*} {one other : Item → Prop} {chain : List Item}

/-- In a chain of two items only the second one stands after another. -/
theorem standsAfter_pair (first second : Item) :
    StandsAfter one other [second, first] ↔ one first ∧ other second := by
  constructor
  · rintro ⟨index, earlier, before, ⟨item, found, is⟩, another, there, too⟩
    have bound : index < 2 := (List.getElem?_eq_some_iff.mp found).1
    obtain rfl : index = 1 := by omega
    obtain rfl : earlier = 0 := by omega
    obtain rfl := Option.some.inj found
    obtain rfl := Option.some.inj there
    exact ⟨is, too⟩
  · exact fun ⟨is, too⟩ => ⟨1, 0, Nat.one_pos, ⟨first, rfl, is⟩, second, rfl, too⟩

/-- The same pairs of items stand after each other when they are of the same kinds. -/
theorem standsAfter_congr {same otherSame : Item → Prop}
    (kinds : ∀ first ∈ chain, ∀ second ∈ chain,
      (one first ∧ other second ↔ same first ∧ otherSame second)) :
    StandsAfter one other chain ↔ StandsAfter same otherSame chain := by
  unfold StandsAfter
  refine exists_congr fun index => exists_congr fun earlier => and_congr_right fun _ => ?_
  constructor
  · rintro ⟨⟨first, found, is⟩, second, there, too⟩
    have both := (kinds first (List.mem_of_getElem? found) second (List.mem_of_getElem? there)).mp
      ⟨is, too⟩
    exact ⟨⟨first, found, both.1⟩, second, there, both.2⟩
  · rintro ⟨⟨first, found, is⟩, second, there, too⟩
    have both := (kinds first (List.mem_of_getElem? found) second (List.mem_of_getElem? there)).mpr
      ⟨is, too⟩
    exact ⟨⟨first, found, both.1⟩, second, there, both.2⟩

theorem standsAfter_map {Source : Type*} (image : Source → Item) (chain : List Source) :
    StandsAfter one other (chain.map image) ↔
      StandsAfter (fun item => one (image item)) (fun item => other (image item)) chain := by
  unfold StandsAfter
  simp only [List.getElem?_map, Option.mem_def, Option.map_eq_some_iff, exists_exists_and_eq_and]

end Pairs

section Construction

variable {loader} {restrictions : OrderRestrictions}

/-- The entry of a restriction. -/
def entry (loader : PolicyLoader) (restriction : Restriction) :
    Option (Module × PrettifiedPolicy) :=
  (prettifiedName loader restriction.before.name).map fun name =>
    (⟨name, restriction.before.version⟩, prettified loader restriction.after)

theorem insertRestriction_eq (restriction : Restriction) :
    insertRestriction loader restrictions restriction =
      match entry loader restriction with
      | none => .error "table index is nil"
      | some entry => .ok (restrictions ++ [entry]) := by
  unfold insertRestriction insert entry prettified
  dsimp only
  cases prettifiedName loader restriction.before.name <;> rfl

/-- The loop over the restrictions completes when every policy that is to be placed before another
has a name. -/
theorem foldlM_insertRestriction {stated : List Restriction} {result : OrderRestrictions} :
    stated.foldlM (insertRestriction loader) restrictions = .ok result ↔
      (∀ restriction ∈ stated, (entry loader restriction).isSome) ∧
        result = restrictions ++ stated.filterMap (entry loader) := by
  induction stated generalizing restrictions with
  | nil =>
      rw [List.filterMap_nil, List.append_nil, and_iff_right (List.forall_mem_nil _)]
      exact ⟨fun made => (Except.ok.inj made).symm, fun same => congrArg Except.ok same.symm⟩
  | cons restriction stated ih =>
      rw [List.foldlM_cons, insertRestriction_eq, List.forall_mem_cons, List.filterMap_cons]
      cases entry loader restriction with
      | none => exact iff_of_false (fun made => nomatch made) fun found => nomatch found.1.1
      | some entry =>
          change stated.foldlM (insertRestriction loader) (restrictions ++ [entry]) = .ok result ↔ _
          rw [ih, List.append_assoc, List.singleton_append]
          exact and_congr_left fun _ => (and_iff_right rfl).symm

end Construction

section Check

variable {restrictions : OrderRestrictions} {chain : List Module} {policy : Module}
  {policyAfter : PrettifiedPolicy}

/-- These are the positions of the policies with this name, counted from one. -/
theorem mem_positionsInTheChain {index : Nat} :
    index ∈ positionsInTheChain chain policyAfter ↔
      1 ≤ index ∧ ∃ module ∈ chain[index - 1]?, module.Named policyAfter := by
  unfold positionsInTheChain
  rw [List.mem_filterMap]
  constructor
  · rintro ⟨⟨module, position⟩, member, found⟩
    obtain ⟨named, same⟩ := Option.ite_none_right_eq_some.mp found
    obtain rfl := Option.some.inj same
    obtain ⟨positive, there⟩ := List.mk_mem_zipIdx_iff_le_and_getElem?_sub.mp member
    exact ⟨positive, module, there, named⟩
  · rintro ⟨positive, module, there, named⟩
    exact ⟨(module, index), List.mk_mem_zipIdx_iff_le_and_getElem?_sub.mpr ⟨positive, there⟩,
      if_pos named⟩

theorem mem_policiesToBePlacedAfter :
    policyAfter ∈ policiesToBePlacedAfter restrictions policy ↔
      (policy, policyAfter) ∈ restrictions := by
  unfold policiesToBePlacedAfter
  rw [List.mem_filterMap]
  constructor
  · rintro ⟨⟨before, after⟩, member, found⟩
    obtain ⟨rfl, same⟩ := Option.ite_none_right_eq_some.mp found
    exact Option.some.inj same ▸ member
  · exact fun member => ⟨(policy, policyAfter), member, if_pos rfl⟩

/-- A policy is warned of when one that it is to be placed before stands before it. -/
theorem mem_checkAfter {index : Nat} {other : Module} {after : PrettifiedPolicy} :
    ⟨policy, policyAfter⟩ ∈ checkAfter chain other index after ↔
      (other = policy ∧ after = policyAfter) ∧
        ∃ earlier ∈ positionsInTheChain chain policyAfter, earlier < index := by
  unfold checkAfter
  rw [List.mem_filterMap]
  constructor
  · rintro ⟨earlier, member, found⟩
    obtain ⟨before, same⟩ := Option.ite_none_right_eq_some.mp found
    obtain ⟨rfl, rfl⟩ := Warning.mk.inj (Option.some.inj same)
    exact ⟨⟨rfl, rfl⟩, earlier, member, before⟩
  · rintro ⟨⟨rfl, rfl⟩, earlier, member, before⟩
    exact ⟨earlier, member, if_pos before⟩

/-- There is a warning for each entry whose policies stand in the wrong order. -/
theorem mem_check :
    ⟨policy, policyAfter⟩ ∈ check restrictions chain ↔
      (policy, policyAfter) ∈ restrictions ∧
        StandsAfter (fun module => module = policy) (fun module => module.Named policyAfter)
          chain := by
  unfold check
  rw [List.mem_flatMap]
  constructor
  · rintro ⟨⟨other, index⟩, member, warned⟩
    obtain ⟨after, restricted, warned⟩ := List.mem_flatMap.mp warned
    obtain ⟨⟨rfl, rfl⟩, earlier, position, before⟩ := mem_checkAfter.mp warned
    obtain ⟨_, there⟩ := List.mk_mem_zipIdx_iff_le_and_getElem?_sub.mp member
    obtain ⟨positive, found⟩ := mem_positionsInTheChain.mp position
    refine ⟨mem_policiesToBePlacedAfter.mp restricted, index - 1, earlier - 1, ?_,
      ⟨other, there, rfl⟩, found⟩
    exact Nat.sub_lt_sub_right positive before
  · rintro ⟨restricted, index, earlier, before, ⟨other, there, rfl⟩, found⟩
    refine ⟨(other, index + 1),
      List.mk_mem_zipIdx_iff_le_and_getElem?_sub.mpr ⟨Nat.le_add_left .., there⟩, ?_⟩
    refine List.mem_flatMap.mpr ⟨policyAfter, mem_policiesToBePlacedAfter.mpr restricted, ?_⟩
    exact mem_checkAfter.mpr ⟨⟨rfl, rfl⟩, earlier + 1,
      mem_positionsInTheChain.mpr ⟨Nat.le_add_left .., found⟩, Nat.succ_lt_succ before⟩

end Check

section Exactness

variable {loader} {policyManifests : Manifests} {restriction : Restriction}

/-- **The checker can be constructed** exactly when the policies that are to be placed before
others have names. -/
theorem new_eq_ok {restrictions : OrderRestrictions} :
    new loader policyManifests = .ok restrictions ↔
      (∀ restriction ∈ stated policyManifests,
          (prettifiedName loader restriction.before.name).isSome) ∧
        restrictions = (stated policyManifests).filterMap (entry loader) := by
  unfold new
  rw [foldlM_insertRestriction, List.nil_append]
  simp only [entry, Option.isSome_map]

theorem named_eq_iff {module : Module} {name version : String} :
    module.Named ⟨some name, version⟩ ↔ module = ⟨name, version⟩ := by
  unfold Module.Named
  rw [Option.some.injEq]
  constructor
  · rintro ⟨rfl, rfl⟩
    rfl
  · rintro rfl
    exact ⟨rfl, rfl⟩

/-- The warnings of a restriction are about the modules that have its names. -/
theorem warned_iff (among : restriction ∈ stated policyManifests) {chain : List (Instance loader)} :
    Warned loader restriction
        (check ((stated policyManifests).filterMap (entry loader)) (chain.map Instance.module)) ↔
      StandsAfter (fun policy => policy.module.Named (prettified loader restriction.before))
        (fun policy => policy.module.Named (prettified loader restriction.after)) chain := by
  unfold Warned
  simp only [mem_check, standsAfter_map]
  cases found : prettifiedName loader restriction.before.name with
  | none =>
      refine iff_of_false (fun ⟨_, same, _⟩ => nomatch same) ?_
      rintro ⟨_, _, _, ⟨policy, _, named⟩, _⟩
      have same := named.1
      unfold prettified at same
      rw [found] at same
      nomatch same
  | some name =>
      have inserted : (⟨name, restriction.before.version⟩, prettified loader restriction.after) ∈
          (stated policyManifests).filterMap (entry loader) := by
        refine List.mem_filterMap.mpr ⟨restriction, among, ?_⟩
        unfold entry
        rw [found]
        rfl
      have before : prettified loader restriction.before =
          ⟨some name, restriction.before.version⟩ := by
        unfold prettified
        rw [found]
      simp only [Option.some.injEq, exists_eq_left', and_iff_right inserted, before, named_eq_iff]

/-- Constructed from any manifests, the checker warns of exactly the violated restrictions of all
chains if and only if the names identify the policies of the restrictions. -/
theorem exact_iff_identified (loader : PolicyLoader) (policyManifests : Manifests) :
    Exact loader policyManifests ↔ Identified loader policyManifests := by
  constructor
  · rintro ⟨restrictions, made, exact⟩ restriction among
    obtain ⟨named, rfl⟩ := new_eq_ok.mp made
    refine ⟨named restriction among, fun first second listed otherListed => ?_⟩
    have warned := exact [second, first]
      (List.forall_mem_cons.mpr ⟨otherListed, List.forall_mem_singleton.mpr listed⟩) restriction
      among
    rwa [warned_iff among, Violated, standsAfter_pair, standsAfter_pair] at warned
  · intro identified
    refine ⟨(stated policyManifests).filterMap (entry loader),
      new_eq_ok.mpr ⟨fun restriction among => (identified restriction among).1, rfl⟩, ?_⟩
    intro chain listed restriction among
    rw [warned_iff among]
    exact standsAfter_congr fun first member second otherMember =>
      (identified restriction among).2 first second (listed first member)
        (listed second otherMember)

end Exactness

section Examples

/-- A version of a policy of a user, next to the builtin one of APIcast. -/
def customLoader : PolicyLoader where
  cachedManifests _ := []
  builtinPolicy name :=
    if name = "apicast" then ⟨some "builtin", .policy ⟨"APIcast", "builtin"⟩⟩
    else ⟨none, .missing⟩
  policyPaths :=
    [fun name version =>
      if name = "custom" ∧ version = "1.0" then ⟨some "1.0", .policy ⟨"Custom", "1.0"⟩⟩
      else ⟨none, .missing⟩]

/-- It is to be placed before the one of APIcast. -/
def customManifests : Manifests :=
  [("custom", [⟨"1.0", some ⟨some [⟨"apicast", "builtin"⟩], none⟩⟩]),
    ("apicast", [⟨"builtin", none⟩])]

/-- Without a builtin version the policy has no name for the checker. -/
theorem not_exact_custom :
    (∀ policy ∈ [("custom", "1.0"), ("apicast", "builtin")],
        (customLoader.pcall policy.1 (some policy.2)).isSome) ∧
      ¬ Exact customLoader customManifests := by
  refine ⟨by decide, ?_⟩
  rintro ⟨restrictions, made, _⟩
  have named := (new_eq_ok.mp made).1 ⟨⟨"custom", "1.0"⟩, ⟨"apicast", "builtin"⟩⟩ (by decide)
  exact absurd named (by decide)

end Examples

end Apicast.PolicyOrder
