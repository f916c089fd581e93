import TemplateCost.Path
import TemplateCost.Resource.DataSource
import TemplateCost.Template.Parser.Body
import TemplateCost.Variable

/-! # Loading a template directory

All template files of a directory are read in the order of their paths and taken together. Loading
fails when the directory cannot be listed, holds no template file, or holds one that cannot be read
or parsed; an unreadable file is reported before any malformed one. The file of assigned variables
is used only if it is listed, readable and well formed.
-/
namespace TemplateCost
open Template

/-- The files of a directory, each with its contents or the reason why it cannot be read. -/
structure Directory where
  path : Path
  listing : Except String (List (Path × Except String String))

inductive LoadError
  | listing (directory : Path) (reason : String)
  | noTemplates (directory : Path)
  | unreadable (file : Path) (reason : String)
  | malformed (files : List Path)
deriving DecidableEq

def LoadError.message : LoadError → String
  | listing directory reason => "reading template directory " ++ directory.text ++ ": " ++ reason
  | noTemplates directory => "no .tf files found in " ++ directory.text
  | unreadable file reason => "reading template file " ++ file.text ++ ": " ++ reason
  | malformed _ => "template parsing errors"

def templateExtension : String := "tf"
def assignmentFile : Path := ⟨"terraform.tfvars"⟩

abbrev SourceFile := Path × Except String String

def insertByPath (file : SourceFile) : List SourceFile → List SourceFile
  | [] => [file]
  | other :: rest =>
    if file.1.le other.1 then file :: other :: rest else other :: insertByPath file rest

/-- Files in the order of their paths; files with equal paths keep their order. -/
def sortByPath (files : List SourceFile) : List SourceFile := files.foldr insertByPath []

def templateFiles (files : List SourceFile) : List SourceFile :=
  sortByPath (files.filter fun file => file.1.extension? = some templateExtension)

def readAll : List SourceFile → Except LoadError (List (Path × String))
  | [] => .ok []
  | (path, .error reason) :: _ => .error (.unreadable path reason)
  | (path, .ok text) :: rest => (readAll rest).map ((path, text) :: ·)

def parseAll (files : List (Path × String)) : Except LoadError (List Body) :=
  let parsed := files.map fun file => (file.1, Body.ofText? file.2)
  match parsed.filter fun file => file.2.isNone with
  | [] => .ok (parsed.filterMap Prod.snd)
  | failed => .error (.malformed (failed.map Prod.fst))

namespace Directory

def assigned (directory : Directory) (files : List SourceFile) : Option (Entries Value) := do
  let file ← files.find? fun file => file.1.same (directory.path.join assignmentFile)
  let text ← file.2.toOption
  let body ← Body.ofText? text
  pure (assignedValues body)

def bodies (directory : Directory) : Except LoadError (List Body) :=
  match directory.listing with
  | .error reason => .error (.listing directory.path reason)
  | .ok files =>
    match templateFiles files with
    | [] => .error (.noTemplates directory.path)
    | templates => readAll templates >>= parseAll

end Directory

/-- What loading gives: the resources and the queries that were asked. -/
structure Loaded where
  inventory : Inventory
  queries : List Query

def resourcesOf (bodies : List Body) (env : Environment) : List Resource :=
  bodies.flatMap (Resource.ofBody env (providerRegions bodies env))

/-- The resources of parsed bodies in a settled environment. Nothing is substituted where no query
was answered. -/
def assemble (bodies : List Body) (env : Environment) (sources : Option DataSources) : Loaded :=
  let queries := (sources.map fun s => s.queries env bodies).getD []
  let resolved := (sources.map fun s => s.answers queries).getD []
  let resources := resourcesOf bodies env
  { inventory := .of (if resolved.isEmpty then resources
      else resources.map (Resource.substitute resolved))
    queries := queries.map Prod.snd }

def load (directory : Directory) (overrides : Entries String) (sources : Option DataSources) :
    Except LoadError Loaded := do
  let bodies ← directory.bodies
  let assigned := directory.listing.toOption.bind directory.assigned
  let env := Variable.environment (Variable.declared bodies) assigned overrides
  pure (assemble bodies env sources)

end TemplateCost
