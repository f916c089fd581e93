import TemplateCost.Cost.Currency
import TemplateCost.Decimal.Scan
import TemplateCost.Path

/-! # Command lines

Arguments are read from left to right. An option takes its value after an equals sign or from the
next argument, which may not look like an option; after two hyphens everything is positional. The
first argument that cannot be accepted settles the outcome, as does a request for help.
-/
namespace TemplateCost.CommandLine

/-- Why reading ends early. -/
inductive Stop
  | rejected
  | help
deriving DecidableEq

/-- An option with a value. Only a repeatable one may be given several times. -/
structure OptionRule where
  name : String
  repeatable : Bool
  accepts : String → Bool

structure Rules where
  options : List OptionRule
  positionals : List (String → Bool)

structure Given where
  options : List (String × String)
  positionals : List String

namespace Given

def empty : Given := ⟨[], []⟩

def value? (given : Given) (name : String) : Option String :=
  (given.options.find? fun entry => entry.1 = name).map Prod.snd

def values (given : Given) (name : String) : List String :=
  (given.options.filter fun entry => entry.1 = name).map Prod.snd

end Given

/-- Whether an argument cannot be the value of an option before it. -/
def looksLikeOption (arg : String) : Bool :=
  arg.toList.head? = some '-' && arg ≠ "-"

/-- The name of a long option, and the value after its equals sign. -/
def splitOption (arg : String) : String × Option String :=
  match Text.findMark? ['='] arg.toList with
  | some (name, mark) => (String.ofList name, some (String.ofList (mark.drop 1)))
  | none => (arg, none)

def isHelp (arg : String) : Bool := arg = "--help" || "-h".toList.isPrefixOf arg.toList

namespace Rules

def addOption (rules : Rules) (given : Given) (name value : String) : Except Stop Given :=
  match rules.options.find? fun rule => rule.name = name with
  | some rule =>
    if rule.accepts value && (rule.repeatable || (given.value? name).isNone) then
      .ok { given with options := given.options ++ [(name, value)] }
    else .error .rejected
  | none => .error .rejected

def addPositional (rules : Rules) (given : Given) (value : String) : Except Stop Given :=
  match rules.positionals[given.positionals.length]? with
  | some accepts =>
    if accepts value then .ok { given with positionals := given.positionals ++ [value] }
    else .error .rejected
  | none => .error .rejected

def read (rules : Rules) (given : Given) : List String → Except Stop Given
  | [] => .ok given
  | arg :: rest =>
    if arg = "--" then rest.foldlM rules.addPositional given
    else if isHelp arg then .error .help
    else if looksLikeOption arg then
      match splitOption arg with
      | (name, some value) => do rules.read (← rules.addOption given name value) rest
      | (name, none) =>
        match rest with
        | value :: rest =>
          if looksLikeOption value then .error .rejected
          else do rules.read (← rules.addOption given name value) rest
        | [] => .error .rejected
    else do rules.read (← rules.addPositional given arg) rest

end Rules

/-! ## Commands -/

inductive Command where
  | parse (directory : Path) (vars : List (String × String)) (format : String)
  | estimate (directory : Path) (vars : List (String × String)) (priceBook : Path)
      (currency : Option Currency) (format : String) (output : Option Path)
  | convert (amount : Float) (source target : Currency)

structure Invocation where
  useConfig : Bool
  target : Option String
  command : Option Command

def anyText (_ : String) : Bool := true
def isPath (text : String) : Bool := text ≠ ""
def amount? (text : String) : Option Float := Decimal.readFloat? text.toList
def currency? (text : String) : Option Currency := (Currency.ofCode text).toOption

/-- A variable is split from its value at the first equals sign. -/
def assignment? (text : String) : Option (String × String) :=
  match splitOption text with
  | (name, some value) => some (name, value)
  | (_, none) => none

def dirRules : List OptionRule :=
  [⟨"--var", true, fun text => (assignment? text).isSome⟩, ⟨"--backend", false, anyText⟩]

def parseRules : Rules := ⟨dirRules, [isPath]⟩

def estimateRules : Rules where
  options := dirRules ++ [⟨"--price-book", false, isPath⟩,
    ⟨"--currency", false, fun text => (currency? text).isSome⟩, ⟨"--output", false, isPath⟩]
  positionals := [isPath]

def convertRules : Rules where
  options := [⟨"--from", false, fun text => (currency? text).isSome⟩,
    ⟨"--to", false, fun text => (currency? text).isSome⟩]
  positionals := [fun text => (amount? text).isSome]

def parseCommand? (given : Given) : Option Command := do
  let directory ← given.positionals.head?
  pure (.parse ⟨directory⟩ ((given.values "--var").filterMap assignment?)
    ((given.value? "--backend").getD "text"))

def estimateCommand? (given : Given) : Option Command := do
  let directory ← given.positionals.head?
  let priceBook ← given.value? "--price-book"
  pure (.estimate ⟨directory⟩ ((given.values "--var").filterMap assignment?) ⟨priceBook⟩
    (given.value? "--currency" >>= currency?) ((given.value? "--backend").getD "text")
    ((given.value? "--output").map Path.mk))

def convertCommand? (given : Given) : Option Command := do
  let amount ← given.positionals.head? >>= amount?
  let source ← given.value? "--from" >>= currency?
  let target ← given.value? "--to" >>= currency?
  pure (.convert amount source target)

def commandNames : List String := ["parse", "estimate", "convert", "help"]

def withRules (rules : Rules) (build : Given → Option Command) (args : List String) :
    Except Stop Command := do
  let given ← rules.read .empty args
  match build given with
  | some command => .ok command
  | none => .error .rejected

def readCommand (name : String) (args : List String) : Except Stop Command :=
  match name with
  | "parse" => withRules parseRules parseCommand? args
  | "estimate" => withRules estimateRules estimateCommand? args
  | "convert" => withRules convertRules convertCommand? args
  | "help" => .error (if args.all commandNames.contains && args.length ≤ 1 then .help else .rejected)
  | _ => .error .rejected

namespace Invocation

def setTarget (invocation : Invocation) (name : String) : Except Stop Invocation :=
  if invocation.target.isSome then .error .rejected
  else .ok { invocation with target := some name }

/-- Options of the whole program stand before the command. -/
def read (invocation : Invocation) : List String → Except Stop Invocation
  | [] => .ok invocation
  | arg :: rest =>
    if arg = "--" then (if rest = [] then .ok invocation else .error .rejected)
    else if isHelp arg then .error .help
    else if arg = "--config" then
      if invocation.useConfig then .error .rejected
      else Invocation.read { invocation with useConfig := true } rest
    else if arg = "--target" then
      match rest with
      | value :: rest =>
        if looksLikeOption value then .error .rejected
        else do Invocation.read (← invocation.setTarget value) rest
      | [] => .error .rejected
    else if looksLikeOption arg then
      match splitOption arg with
      | ("--target", some value) => do Invocation.read (← invocation.setTarget value) rest
      | _ => .error .rejected
    else do
      let command ← readCommand arg rest
      pure { invocation with command := some command }

def ofArguments (args : List String) : Except Stop Invocation :=
  Invocation.read ⟨false, none, none⟩ args

end Invocation
end TemplateCost.CommandLine
