/-
# Checked classes -- what the silence of a check is worth

A name and a drawing statement fail at one kind of place only, the first parameter they ask for
that has no value (`Naming.name_eq_error_iff`, `Base.incantation_eq_error_iff`), and resolving
gives every parameter of a set a value.  A check warns of the parameters in a name that neither
the class nor its base has (`warnings_runCheck`).  So where it warns of none, and the module
of the base asks for no other parameter either, every choice of free values that resolves ends
in a part (`checked_class_makes_parts`).
-/
import PartCatalog.CommandLine.Run
import PartCatalog.Proofs.LoadedRepositories
import PartCatalog.Proofs.NamingLaws

set_option autoImplicit false

namespace PartCatalog

open Outcome

/-! ## Drawing statements -/

namespace Base

variable {values : NameMap Value} {e : ResolveError}

/-- The parameters that a base calls its module with, none for a mesh. -/
def arguments (base : Base) : List String :=
  match base.kind with
  | .module _ arguments => arguments
  | .stl => []

theorem argument_eq_error {name : String} :
    argument values name = .error e ↔ name ∉ values.keys ∧ e = .uncollected name := by
  unfold argument
  cases found : values.get? name with
  | none => simp [NameMap.get?_eq_none_iff.1 found, eq_comm]
  | some value => simp [NameMap.mem_keys_of_get? found]

theorem mapM_argument_eq_error_iff {names : List String} :
    names.mapM (argument values) = .error e ↔
      ∃ name, IsFirst (· ∉ values.keys) names name ∧ e = .uncollected name := by
  have fails : (fun name => ∃ e, argument values name = .error e) = (· ∉ values.keys) :=
    funext fun name => propext (by simp [argument_eq_error])
  rw [mapM_eq_error, fails]
  refine exists_congr fun name => and_congr_right fun first => ?_
  rw [argument_eq_error, and_iff_right first.has]

/-- A drawing statement fails at the first argument without a value, and at nothing else. -/
theorem incantation_eq_error_iff {base : Base} :
    base.incantation values = .error e ↔
      ∃ name, IsFirst (· ∉ values.keys) base.arguments name ∧ e = .uncollected name := by
  unfold incantation arguments
  cases base.kind with
  | module name names => exact map_eq_error.trans mapM_argument_eq_error_iff
  | stl => simp [IsFirst]

theorem exists_incantation_iff {base : Base} :
    (∃ statement, base.incantation values = .ok statement) ↔ ∀ name ∈ base.arguments, name ∈ values.keys :=
  ResolveError.succeeds_iff fun _ => incantation_eq_error_iff

end Base

/-! ## Parts -/

namespace PartQuery

/-- A part is made by stages: parameters, free values, all values, a name and a statement. -/
theorem part_eq_ok_iff {repo : Repository} {c : PartClass} {assignments : List String} {withBase : Bool}
    {part : Part} :
    PartQuery.part repo c assignments withBase = .ok part ↔
      ∃ params free, parameters repo c withBase = .ok params ∧ freeValues params assignments = .ok free ∧
        params.resolve free = .ok part.values ∧ c.naming.name part.values = .ok part.name ∧
        incantation repo c withBase part.values = .ok part.incantation ∧ part.class_ = c.name := by
  simp only [PartQuery.part, bind_eq_ok, mapError_eq_ok, pure_eq, Except.ok.injEq]
  constructor
  · rintro ⟨params, isSet, free, assigned, values, resolved, name, isName, statement, isStatement, rfl⟩
    exact ⟨params, free, isSet, assigned, resolved, isName, isStatement, rfl⟩
  · rintro ⟨params, free, isSet, assigned, resolved, isName, isStatement, isClass⟩
    refine ⟨params, isSet, free, assigned, _, resolved, _, isName, _, isStatement, ?_⟩
    rw [← isClass]

end PartQuery

/-! ## Checks -/

/-- What is unknown in some classes is what is unknown in each, in order. -/
theorem Findings.unknown_foldl (findings : PartClass → Findings) (classes : List PartClass) (found : Findings) :
    (classes.foldl (fun found c => found.append (findings c)) found).unknown =
      found.unknown ++ classes.flatMap fun c => (findings c).unknown := by
  induction classes generalizing found with
  | nil => simp
  | cons c classes ih => rw [List.foldl_cons, ih, List.flatMap_cons, ← List.append_assoc, append]

/-- Resolving gives every parameter a value. -/
theorem ParameterSet.mem_keys_of_resolve {params : ParameterSet} {free values : NameMap Value}
    (resolved : params.resolve free = .ok values) {name : String}
    (known : name ∈ NameMap.keys params.parameters) : name ∈ values.keys :=
  (resolve_eq_ok.1 resolved).2 name known

theorem PartClass.unknownSubstitutes_eq_nil_iff {c : PartClass} {params : ParameterSet} :
    c.unknownSubstitutes params = [] ↔
      ∀ name ∈ c.naming.substitute, name ∈ NameMap.keys params.parameters := by
  simp [unknownSubstitutes, NameMap.contains_iff]

namespace Repository

variable {repo : Repository} {c : PartClass} {params : ParameterSet}

/-- A check warns of each parameter in the name of a class that the class does not have. -/
theorem warnings_runCheck (repo : Repository) :
    (CommandLine.runCheck repo).warnings =
      repo.classes.flatMap fun c => (repo.checkClass c).unknown.map UnknownSubstitute.message := by
  have found : repo.check.unknown = repo.classes.flatMap fun c => (repo.checkClass c).unknown :=
    Findings.unknown_foldl repo.checkClass repo.classes Findings.none
  rw [CommandLine.runCheck, found, List.map_flatMap]

/-- **A class that is checked without a warning can be named and drawn.**  If every parameter in
its name is one of the class or its base, as no warning says, and every argument of the module
that draws it is, then whatever free values resolve also have a name and a drawing statement,
and assignments that lead to them make a part. -/
theorem checked_class_makes_parts (full : repo.fullParameters c = .ok params) :
    ((repo.checkClass c).unknown = [] ↔
        ∀ name ∈ c.naming.substitute, name ∈ NameMap.keys params.parameters) ∧
      ((∀ name ∈ c.naming.substitute, name ∈ NameMap.keys params.parameters) →
        (∀ base module arguments, repo.baseFor? c = some base → base.kind = .module module arguments →
          ∀ name ∈ arguments, name ∈ NameMap.keys params.parameters) →
        ∀ free values, params.resolve free = .ok values →
          (∃ name, c.naming.name values = .ok name) ∧
          (∀ base, repo.baseFor? c = some base → ∃ statement, base.incantation values = .ok statement) ∧
          ∀ assignments, PartQuery.freeValues params assignments = .ok free →
            ∃ part, PartQuery.part repo c assignments true = .ok part ∧ part.values = values) := by
  have unwarned : (repo.checkClass c).unknown = [] ↔
      ∀ name ∈ c.naming.substitute, name ∈ NameMap.keys params.parameters := by
    rw [checkClass, full]
    exact PartClass.unknownSubstitutes_eq_nil_iff
  refine ⟨unwarned, fun nameKnown argumentsKnown free values resolved => ?_⟩
  have named : ∃ name, c.naming.name values = .ok name :=
    Naming.exists_name_iff.2 fun name asked => ParameterSet.mem_keys_of_resolve resolved (nameKnown name asked)
  have drawn : ∀ base, repo.baseFor? c = some base → ∃ statement, base.incantation values = .ok statement := by
    intro base serves
    refine Base.exists_incantation_iff.2 fun name asked => ParameterSet.mem_keys_of_resolve resolved ?_
    unfold Base.arguments at asked
    split at asked
    · next module arguments isModule => exact argumentsKnown base module arguments serves isModule name asked
    · cases asked
  refine ⟨named, drawn, fun assignments assigned => ?_⟩
  obtain ⟨name, isName⟩ := named
  have stated : ∃ statement, PartQuery.incantation repo c true values = .ok statement := by
    unfold PartQuery.incantation
    split
    · next base serves =>
      obtain ⟨statement, isStatement⟩ := drawn base serves
      exact ⟨some statement, by rw [isStatement]; rfl⟩
    · exact ⟨none, rfl⟩
  obtain ⟨statement, isStatement⟩ := stated
  have isSet : PartQuery.parameters repo c true = .ok params := mapError_eq_ok.2 full
  exact ⟨⟨c.name, name, values, statement⟩,
    PartQuery.part_eq_ok_iff.2 ⟨params, free, isSet, assigned, resolved, isName, isStatement, rfl⟩, rfl⟩

namespace Example

/-- A bolt that is named for its size, which selects the diameter, and the module that draws it. The
module is also told of the finish, which it knows itself. -/
def boltFiles : FileTree :=
  (FileTree.empty.add "parts/data/bolts.blt" (.text
"collection: {id: bolts, author: A <a>, license: L <l>, blt-version: 0.2}
classes:
- id: bolt
  naming: {template: Bolt %s, substitute: [size]}
  source: drawing
  parameters:
    free: [size]
    types: {size: Table Index}
    tables: {index: size, columns: [d], data: {M3: [3]}}
")).add "parts/openscad/bolts/bolts.base" (.text
"- filename: bolts.scad
  author: A <a>
  license: L <l>
  type: module
  modules: [{name: bolt, arguments: [d, finish], classids: [bolt], parameters: {literal: {finish: zinc}}}]
")

/-- What is asked of a bolt: the parameters in its name, its base, all parameters, and whether a size
of it resolves. -/
structure BoltFacts where
  substitute : List String
  kind : Option BaseKind
  parameters : List String
  resolves : Bool
deriving DecidableEq

def boltFacts (repo : Repository) (c : PartClass) : Option BoltFacts := do
  let params ← (repo.fullParameters c).toOption
  let free ← (PartQuery.freeValues params ["size=M3"]).toOption
  return ⟨c.naming.substitute, (repo.baseFor? c).map (·.kind), NameMap.keys params.parameters,
    (params.resolve free).isOk⟩

/-- The facts of the bolt, which is drawn by its module. -/
def bolt : BoltFacts := ⟨["size"], some (.module "bolt" ["d", "finish"]), ["d", "finish", "size"], true⟩

/-- The bolt is loaded. -/
theorem exists_bolt :
    ∃ repo c, load boltFiles "parts" LoadOptions.defaults = .ok repo ∧ repo.classes = [c] ∧
      boltFacts repo c = some bolt := by
  have shown : (readCollections Schedule.inOrder LoadOptions.defaults boltFiles "parts/data").toOption.bind
      (fun collections => (readBases boltFiles "parts" LoadOptions.defaults).toOption.map fun bases =>
        (collections.map fun coll => coll.classes.map (·.replaces),
          ({ indexed "parts" collections with bases } : Repository).classes.map
            (boltFacts { indexed "parts" collections with bases }))) =
      some ([[none]], [some bolt]) := by
    decide +kernel
  obtain ⟨collections, read, rest⟩ := Option.bind_eq_some_iff.1 shown
  obtain ⟨bases, basesRead, facts⟩ := Option.map_eq_some_iff.1 rest
  obtain ⟨inCollections, facts⟩ := Prod.mk.inj facts
  obtain ⟨coll, rfl, inColl⟩ := List.map_eq_singleton_iff.1 inCollections
  obtain ⟨c, classes, unreplacing⟩ := List.map_eq_singleton_iff.1 inColl
  obtain ⟨embodied, isOnly, facts⟩ := List.map_eq_singleton_iff.1 facts
  refine ⟨_, embodied, load_of_collection (by decide +kernel) (by decide +kernel) (toOption_eq_some.1 read) ?_
    (toOption_eq_some.1 basesRead), isOnly, facts⟩
  rw [classes]
  exact List.forall_mem_singleton.2 unreplacing

end Example

/-- The bolt is checked without a warning, so the assignment of a size makes one. -/
theorem checked_bolt_makes_part :
    ∃ repo c params, load Example.boltFiles "parts" LoadOptions.defaults = .ok repo ∧ repo.classes = [c] ∧
      repo.fullParameters c = .ok params ∧ (repo.checkClass c).unknown = [] ∧
      (repo.baseFor? c).map (·.kind) = some (.module "bolt" ["d", "finish"]) ∧
      ∃ part, PartQuery.part repo c ["size=M3"] true = .ok part := by
  obtain ⟨repo, c, loaded, classes, shown⟩ := Example.exists_bolt
  obtain ⟨params, isSet, shown⟩ := Option.bind_eq_some_iff.1 shown
  obtain ⟨free, assigned, shown⟩ := Option.bind_eq_some_iff.1 shown
  obtain ⟨substitute, served, known, succeeds⟩ := Example.BoltFacts.mk.injEq .. ▸ Option.some.inj shown
  obtain ⟨values, resolved⟩ := exists_eq_ok_of_isOk succeeds
  have full := toOption_eq_some.1 isSet
  obtain ⟨unwarned, makes⟩ := checked_class_makes_parts full
  have nameKnown : ∀ name ∈ c.naming.substitute, name ∈ NameMap.keys params.parameters := by
    rw [substitute, known]
    decide
  have argumentsKnown : ∀ base module arguments, repo.baseFor? c = some base →
      base.kind = .module module arguments → ∀ name ∈ arguments, name ∈ NameMap.keys params.parameters := by
    intro base module arguments serves isModule
    rw [serves, Option.map_some, isModule, Option.some.injEq, BaseKind.module.injEq] at served
    rw [served.2, known]
    decide
  obtain ⟨-, -, made⟩ := makes nameKnown argumentsKnown free values resolved
  obtain ⟨part, isPart, -⟩ := made ["size=M3"] (toOption_eq_some.1 assigned)
  exact ⟨repo, c, params, loaded, classes, full, unwarned.2 nameKnown, served, part, isPart⟩

end Repository

end PartCatalog
