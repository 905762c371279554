/-
# Running a command -- from arguments and files to what is printed

`run` is the whole program on a file tree. What it prints is given as text for the
output and as lines for errors and warnings; the code is 0 for success, 1 for a
command that failed, 2 for arguments that are no command and 101 for an abort.
-/
import PartCatalog.CommandLine.PartQuery
import PartCatalog.Repository.Check
import PartCatalog.Repository.Load
import PartCatalog.Text.Blank

set_option autoImplicit false

namespace PartCatalog.CommandLine

/-- What a run of the program leaves behind. -/
structure Outcome where
  code : Nat
  stdout : String
  stderr : List String
  warnings : List String
deriving DecidableEq, Repr

namespace Outcome

/-- Success with lines on the output. -/
def lines (lines : List String) : Outcome := ⟨0, String.join (lines.map (· ++ "\n")), [], []⟩

/-- The lines of a message. -/
def messageLines (message : String) : List String := message.splitOn "\n"

/-- The lines of an error. -/
def errorLines (e : CommandError) : List String := messageLines ("error: " ++ e.message)

/-- Failure with nothing on the output. -/
def failure (e : CommandError) : Outcome := ⟨1, "", errorLines e, []⟩

/-- The end of a program that is aborted; no error of its own is shown. -/
def aborted : Outcome := ⟨101, "", [], []⟩

/-- The outcome of a command that may fail. -/
def ofResult (result : Except CommandError Outcome) : Outcome :=
  match result with
  | .ok outcome => outcome
  | .error e => if e.aborts then aborted else failure e

end Outcome

/-! ## Commands -/

/-- The repository of an invocation. -/
def loadRepository (tree : FileTree) (invocation : Invocation) :
    Except CommandError Repository := do
  let options ← match invocation.config with
    | some path => (LoadOptions.load tree path).mapError (.config path)
    | none => .ok LoadOptions.defaults
  (Repository.load tree invocation.repo options).mapError .load

def findClass (repo : Repository) (name : String) : Except CommandError PartClass :=
  match repo.class? name with
  | some c => .ok c
  | none => .error (.unknownClass name)

/-- How many classes a body has, if it has any. -/
def bodyLine (repo : Repository) (body : StandardBody) : Option String :=
  let count := (repo.standardized body).length
  if count = 0 then none else
    let label := body.label
    some s!"  {label}: {count}"

/-- What a repository contains. -/
def contentLines (repo : Repository) : List String :=
  let collections := repo.collections.length
  let classes := repo.classes.length
  let bases := (repo.bases.map fun catalog =>
    let count := catalog.bases.length
    s!"  OpenSCAD bases: {count}").toList
  s!"Loaded {collections} collection(s) with {classes} class(es)." ::
    StandardBody.all.filterMap (bodyLine repo) ++ bases

/-- Report what a repository contains and what a check finds. -/
def runCheck (repo : Repository) : Outcome :=
  let found := repo.check
  let failures := found.failures.flatMap fun (name, e) =>
    Outcome.messageLines (name ++ ": " ++ e.message)
  let failed :=
    if found.failures.isEmpty then [] else
      Outcome.errorLines (.failedClasses found.failures.length)
  { Outcome.lines (contentLines repo) with
    code := if found.failures.isEmpty then 0 else 1
    stderr := failures ++ failed
    warnings := found.unknown.map UnknownSubstitute.message }

/-- One class in the list of classes. -/
def classLine (collection : Collection) (c : PartClass) : String :=
  let withdrawn := if c.status = .withdrawn then ["withdrawn"] else []
  let successor := (c.replacedBy.map ("replaced by " ++ ·)).toList
  String.intercalate "\t" ([c.name, c.id, collection.id] ++ withdrawn ++ successor)

/-- List the classes. -/
def runClasses (repo : Repository) : Outcome :=
  Outcome.lines <| repo.collections.flatMap fun collection =>
    collection.classes.map (classLine collection)

/-- Print the part that assignments choose. -/
def runParams (repo : Repository) (class_ : String) (assignments : List String)
    (format : Format) (withBase : Bool) : Except CommandError Outcome := do
  let c ← findClass repo class_
  let part ← PartQuery.part repo c assignments withBase
  let text := match format with
    | .json => part.toJson.pretty
    | .yaml => part.toYaml
  return Outcome.lines [Text.trimEnd text]

/-- Print the common combinations of a class. -/
def runCommon (repo : Repository) (class_ : String) : Except CommandError Outcome := do
  let c ← findClass repo class_
  match c.parameters.common with
  | none => .error (.noCommon c.name)
  | some combinations =>
    return Outcome.lines <| combinations.map fun combination =>
      String.intercalate ", " (combination.map Value.display)

/-- Carry out a command on its repository. -/
def runCommand (repo : Repository) : Command → Except CommandError Outcome
  | .check => .ok (runCheck repo)
  | .classes => .ok (runClasses repo)
  | .params class_ assignments format withBase =>
    runParams repo class_ assignments format withBase
  | .common class_ => runCommon repo class_

/-! ## The program -/

/-- What is printed for help. -/
def usage : List String := [
  "Check and query part-library repositories",
  "",
  "Usage: blt [OPTIONS] <COMMAND>",
  "",
  "Commands:",
  "  check <REPO>            Load a repository and report what it contains",
  "  classes <REPO>          List the classes of a repository",
  "  params <REPO> <CLASS>   Resolve the parameters of one part",
  "  common <REPO> <CLASS>   Print the common parameter combinations of a class",
  "  help                    Print this message",
  "",
  "Options:",
  "  -v, --verbose           Accepted for every command",
  "      --config <CONFIG>   YAML file with repository load options",
  "      --set <NAME=VALUE>  Free parameter value as name=value (params, repeatable)",
  "      --format <FORMAT>   Output format, json or yaml (params)",
  "      --no-base           Ignore the parameters of the OpenSCAD base (params)",
  "  -h, --help              Print this message"]

/-- Run the program. -/
def run (tree : FileTree) (args : List String) : Outcome :=
  match parse args with
  | .error .help => Outcome.lines usage
  | .error .misuse => ⟨2, "", usage, []⟩
  | .ok invocation => Outcome.ofResult do
    let repo ← loadRepository tree invocation
    runCommand repo invocation.command

end PartCatalog.CommandLine
