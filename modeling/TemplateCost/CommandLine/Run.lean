import TemplateCost.CommandLine.Arguments
import TemplateCost.Config
import TemplateCost.Loading
import TemplateCost.Pricing.Toml
import TemplateCost.Report.Format

/-! # Running commands

A command works on a host: files that it reads and writes, a clock and an output. It ends with the
first failure, of which the outermost message is kept. What it has worked out is printed or written
last, so that after all else has succeeded only the writing itself can fail.
-/
namespace TemplateCost.CommandLine

inductive Attempt
  | done
  | failed (reason : String)
deriving DecidableEq

/-- What a command needs around it. -/
structure Host (m : Type → Type) where
  directory : Path → m Directory
  readFile : Path → m (Option String)
  pathExists : Path → m Bool
  createDirectories : List Path.Component → m Attempt
  writeFile : Path → String → m Bool
  print : String → m Unit
  now : m String

inductive Exit
  | success
  | help
  | failure (message : String)
  | rejected
deriving DecidableEq

def Exit.code : Exit → Nat
  | success => 0
  | help => 0
  | failure _ => 1
  | rejected => 2

def configFile : Path := ⟨"tfcost.toml"⟩

abbrev Run (m : Type → Type) := ExceptT String m

variable {m : Type → Type} [Monad m] (host : Host m)

def formatNamed (name : String) : Run m ReportFormat :=
  match ReportFormat.ofName? name with
  | some format => pure format
  | none => throw (ReportFormat.unknown name)

def loadInventory (path : Path) (overrides : Entries String) : Run m Inventory := do
  match load (← host.directory path) overrides none with
  | .ok loaded => pure loaded.inventory
  | .error _ => throw ("parsing template " ++ path.text)

def loadPriceBook (path : Path) : Run m PriceBook := do
  match ← host.readFile path with
  | none => throw ("reading price book " ++ path.text)
  | some text =>
    match PriceBook.ofText? text with
    | some book => pure book
    | none => throw ("in " ++ path.text)

/-- What an estimate is made of, wherever the request for it comes from. -/
structure EstimateRequest where
  template : Path
  overrides : Entries String
  priceBook : Path
  currency : Option Currency
  format : String
  output : Option Path

def converted (rates : RateTable) (currency : Option Currency) (e : Estimate) : Run m Estimate :=
  match currency with
  | none => pure e
  | some target =>
    match e.convert rates target with
    | .ok e => pure e
    | .error error => throw error.message

def estimateText (request : EstimateRequest) (rates : RateTable) : Run m String := do
  let format ← formatNamed request.format
  let book ← loadPriceBook host request.priceBook
  let inventory ← loadInventory host request.template request.overrides
  let estimate := Estimate.calculate book.lookup (← host.now) inventory.resources
  let estimate ← converted rates request.currency estimate
  pure (format.estimateText estimate)

def createParent (path : Path) : Run m Unit := do
  match path.parent? with
  | none | some [] => pure ()
  | some components =>
    match ← host.createDirectories components with
    | .done => pure ()
    | .failed reason => throw reason

def emit (text : String) (output : Option Path) : Run m Unit := do
  match output with
  | none => host.print text
  | some path =>
    createParent host path
    unless ← host.writeFile path text do throw ("writing " ++ path.text)

def runEstimate (request : EstimateRequest) (rates : RateTable) : Run m Unit := do
  let text ← estimateText host request rates
  emit host text request.output

def convertText (amount : Float) (source target : Currency) : Run m String :=
  match RateTable.initial.convert amount source target with
  | .ok result => pure (Decimal.plainText amount ++ " " ++ source.code ++ " = "
      ++ Decimal.fixedText 4 result ++ " " ++ target.code ++ "\n")
  | .error error => throw error.message

def runCommand : Command → Run m Unit
  | .parse directory vars format => do
    let inventory ← loadInventory host directory (Entries.ofList vars)
    let format ← formatNamed format
    host.print (format.inventoryText inventory)
  | .estimate directory vars priceBook currency format output =>
    runEstimate host ⟨directory, Entries.ofList vars, priceBook, currency, format, output⟩
      RateTable.initial
  | .convert amount source target => do host.print (← convertText amount source target)

/-! ## Targets of a configuration -/

def base : Path := ⟨"."⟩

def targetCurrency (config : Config) (target : Target) : Run m (Option Currency) :=
  match target.currencyIn config.settings with
  | none => pure none
  | some code =>
    match Currency.ofCode code with
    | .ok currency => pure (some currency)
    | .error error => throw error.message

def configuredRates (config : Config) : Run m RateTable :=
  match config.applyRates .initial with
  | .ok rates => pure rates
  | .error error => throw error.outermost

def outputOf (target : Target) : Option Path := target.output.map fun output => base.join ⟨output⟩

def runTarget (config : Config) (target : Target) : Run m Unit := do
  let some priceBook := target.priceBookIn config.settings
    | throw ("target '" ++ target.name ++ "' has no price_book")
  let currency ← targetCurrency config target
  let rates ← configuredRates config
  runEstimate host
    { template := base.join ⟨(target.templateIn config.settings).getD "."⟩
      overrides := target.overrides config.settings
      priceBook := base.join ⟨priceBook⟩
      currency := currency
      format := target.format
      output := outputOf target }
    rates

def loadConfig : Run m Config := do
  unless ← host.pathExists configFile do throw (configFile.text ++ " not found")
  match (← host.readFile configFile) >>= Config.ofText? with
  | some config => pure config
  | none => throw ("failed to load " ++ configFile.text)

def chosenTargets (config : Config) : Option String → Run m (List Target)
  | none => pure config.targets
  | some name =>
    match config.target? name with
    | some target => pure [target]
    | none => throw ("target '" ++ name ++ "' not found in " ++ configFile.text)

def runConfig (target : Option String) : Run m Unit := do
  let config ← loadConfig host
  let targets ← chosenTargets config target
  targets.forM (runTarget host config)

def runInvocation (invocation : Invocation) : Run m Unit :=
  match invocation.command with
  | some command => runCommand host command
  | none =>
    if invocation.useConfig then runConfig host invocation.target
    else throw "nothing to do: pass a subcommand or --config"

def run (args : List String) : m Exit := do
  match Invocation.ofArguments args with
  | .error .rejected => pure .rejected
  | .error .help => pure .help
  | .ok invocation =>
    match ← (runInvocation host invocation).run with
    | .ok () => pure .success
    | .error message => pure (.failure message)

end TemplateCost.CommandLine
