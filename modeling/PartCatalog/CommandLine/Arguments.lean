/-
# Arguments -- what a command line asks for

A command line is read word by word. Options may stand anywhere; an option with a
value takes it after an equals sign or from the next word, which must not look like
an option. After `--` every word is an operand. `--verbose` and `--config` may be
given before the command and once more after it, where the later `--config` counts.
-/
set_option autoImplicit false

namespace PartCatalog.CommandLine

/-- How a part is printed. -/
inductive Format where
  | json
  | yaml
deriving DecidableEq, Repr

def Format.ofName? (s : String) : Option Format :=
  if s = "json" then some .json else if s = "yaml" then some .yaml else none

/-- What is to be done with a repository. -/
inductive Command where
  | check
  | classes
  | params (class_ : String) (assignments : List String) (format : Format) (withBase : Bool)
  | common (class_ : String)
deriving DecidableEq, Repr

/-- A command with the repository it is about and the file of load options. -/
structure Invocation where
  repo : String
  config : Option String
  command : Command
deriving DecidableEq, Repr

/-- Why a command line is not carried out: it asks for help, or it is none. -/
inductive Refusal where
  | help
  | misuse
deriving DecidableEq, Repr

/-! ## Options -/

/-- The options. -/
inductive Switch where
  | verbose
  | help
  | config
  | set
  | format
  | noBase
deriving DecidableEq, Repr

namespace Switch

def long : Switch → String
  | .verbose => "verbose"
  | .help => "help"
  | .config => "config"
  | .set => "set"
  | .format => "format"
  | .noBase => "no-base"

def short? : Switch → Option Char
  | .verbose => some 'v'
  | .help => some 'h'
  | _ => none

def takesValue : Switch → Bool
  | .config | .set | .format => true
  | _ => false

/-- Whether an option may be given a value. -/
def accepts : Switch → String → Bool
  | .config, value => !value.isEmpty
  | .format, value => (Format.ofName? value).isSome
  | _, _ => true

/-- The options of every command. -/
def shared : List Switch := [.verbose, .help, .config]

end Switch

/-! ## Words -/

/-- A word as what it looks like. -/
inductive Word where
  | end_
  | long (name : String) (value : Option String)
  | short (letters : List Char)
  | operand (s : String)

namespace Word

/-- The parts of a text before and after the first equals sign. -/
def splitAtEquals (cs : List Char) : String × Option String :=
  let name := String.ofList (cs.takeWhile (· ≠ '='))
  match cs.dropWhile (· ≠ '=') with
  | _ :: value => (name, some (String.ofList value))
  | [] => (name, none)

def of (s : String) : Word :=
  match s.toList with
  | ['-', '-'] => .end_
  | '-' :: '-' :: cs => .long (splitAtEquals cs).1 (splitAtEquals cs).2
  | ['-'] => .operand s
  | '-' :: letters => .short letters
  | _ => .operand s

/-- Whether a word can be the value of the option before it. -/
def isValue (s : String) : Bool :=
  match of s with
  | .operand _ => true
  | _ => false

end Word

/-! ## Reading words -/

/-- What a command takes: its options and the number of its operands. -/
structure Takes where
  switches : List Switch
  operands : Nat

/-- What has been read: options with values, operands, the option that waits for its
value, and whether `--` has been passed. -/
structure Given where
  switches : List (Switch × String)
  operands : List String
  waiting : Option Switch
  ended : Bool

namespace Given

def nothing : Given := ⟨[], [], none, false⟩

/-- The values of an option, in order. -/
def valuesOf (given : Given) (switch : Switch) : List String :=
  (given.switches.filter (·.1 = switch)).map (·.2)

def has (given : Given) (switch : Switch) : Bool := given.switches.any (·.1 = switch)

/-- Add an option. Only `--set` may be repeated. -/
def addSwitch (given : Given) (switch : Switch) (value : String) : Except Refusal Given :=
  if switch = .help then .error .help
  else if (given.has switch && switch ≠ .set) || !switch.accepts value then .error .misuse
  else .ok { given with switches := given.switches ++ [(switch, value)] }

/-- Add an operand. The first, a path, is not empty. -/
def addOperand (takes : Takes) (given : Given) (s : String) : Except Refusal Given :=
  if given.operands.length < takes.operands && !(given.operands.isEmpty && s.isEmpty) then
    .ok { given with operands := given.operands ++ [s] }
  else .error .misuse

/-- Add an option by its long name. -/
def addLong (takes : Takes) (given : Given) (name : String) (value : Option String) :
    Except Refusal Given :=
  match takes.switches.find? (·.long = name), value with
  | none, _ => .error .misuse
  | some switch, none =>
    if switch.takesValue then .ok { given with waiting := some switch }
    else given.addSwitch switch ""
  | some switch, some value =>
    if switch.takesValue then given.addSwitch switch value else .error .misuse

/-- Add an option by its letter. -/
def addShort (takes : Takes) (given : Given) (letter : Char) : Except Refusal Given :=
  match takes.switches.find? (·.short? = some letter) with
  | some switch => given.addSwitch switch ""
  | none => .error .misuse

/-- Read one word. -/
def read (takes : Takes) (given : Given) (s : String) : Except Refusal Given :=
  match given.waiting with
  | some switch =>
    if Word.isValue s then { given with waiting := none }.addSwitch switch s
    else .error .misuse
  | none =>
    if given.ended then given.addOperand takes s
    else match Word.of s with
      | .end_ => .ok { given with ended := true }
      | .long name value => given.addLong takes name value
      | .short letters => letters.foldlM (addShort takes) given
      | .operand s => given.addOperand takes s

/-- Whether the next word may be the name of a command. -/
def awaitsCommand (given : Given) : Bool := given.waiting.isNone && !given.ended

end Given

/-! ## Command lines -/

/-- The names of the commands. -/
inductive CommandName where
  | check
  | classes
  | params
  | common
deriving DecidableEq, Repr

namespace CommandName

def all : List CommandName := [.check, .classes, .params, .common]

def text : CommandName → String
  | .check => "check"
  | .classes => "classes"
  | .params => "params"
  | .common => "common"

def ofText? (s : String) : Option CommandName := all.find? (·.text = s)

def takes : CommandName → Takes
  | .check | .classes => ⟨Switch.shared, 1⟩
  | .params => ⟨Switch.shared ++ [.set, .format, .noBase], 2⟩
  | .common => ⟨Switch.shared, 2⟩

end CommandName

/-- The command of a name with what it was given. -/
def command (name : CommandName) (given : Given) (class_ : String) : Command :=
  match name with
  | .check => .check
  | .classes => .classes
  | .common => .common class_
  | .params =>
    let format := ((given.valuesOf .format).head?.bind Format.ofName?).getD .json
    .params class_ (given.valuesOf .set) format (!given.has .noBase)

/-- The invocation of a command with all its operands. -/
def invocation (name : CommandName) (outer inner : Given) : Except Refusal Invocation :=
  let config := (inner.valuesOf .config ++ outer.valuesOf .config).head?
  if inner.waiting.isSome || inner.operands.length ≠ name.takes.operands then .error .misuse
  else
    match inner.operands with
    | repo :: rest => .ok ⟨repo, config, command name inner (rest.headD "")⟩
    | [] => .error .misuse

/-- Asking for help on one command or on none. -/
def helpOn (topics : List String) : Refusal :=
  match topics with
  | [] => .help
  | [topic] => if topic = "help" ∨ (CommandName.ofText? topic).isSome then .help else .misuse
  | _ => .misuse

/-- The rest of a command line after what stands before the command. -/
def parseFrom (outer : Given) : List String → Except Refusal Invocation
  | [] => .error .misuse
  | s :: rest =>
    match if outer.awaitsCommand then CommandName.ofText? s else none with
    | some name => do
      let inner ← rest.foldlM (Given.read name.takes) Given.nothing
      invocation name outer inner
    | none =>
      if outer.awaitsCommand && s = "help" then .error (helpOn rest)
      else do
        let outer ← outer.read ⟨Switch.shared, 0⟩ s
        parseFrom outer rest

/-- The invocation that a command line asks for. -/
def parse (args : List String) : Except Refusal Invocation := parseFrom Given.nothing args

end PartCatalog.CommandLine
