import TemplateCost.CommandLine.Run

/-! # A workspace in memory

A workspace holds files and directories under one root, by the names on the way to them. Commands
can be run on it like on any other host, and everything they print or write is in the final state.

What the system decides by itself is left to a disk: what may not be read, where no directory can be
made, and how each write ends. A write that fails may have opened its file before, which then keeps
whatever has reached it. Left out are links, so that paths lead where their names say, other programs
that change files meanwhile, and an output that nobody reads, which stops a program instead of failing
its command.
-/
namespace TemplateCost.CommandLine

abbrev Location := List String

/-- What a file holds: a text, or bytes that are not the UTF-8 form of any. -/
inductive Content where
  | text (text : String)
  | bytes (bytes : List UInt8)
deriving DecidableEq

inductive Entry where
  | file (content : Content)
  | directory
deriving DecidableEq

structure Workspace where
  entries : List (Location × Entry)
  output : String
deriving DecidableEq

/-- How a write ends. If it is cut, the file has been opened, and keeps what has reached it. -/
inductive WriteOutcome where
  | done
  | refused
  | cut (kept : Content)

/-- What the system decides by itself, with all there is in view. -/
structure Disk where
  /-- Why a file cannot be opened or a directory not be listed, if so. -/
  barsReading : Workspace → Location → Option String
  /-- Why a directory cannot be made, if so. -/
  barsMaking : Workspace → Location → Option String
  writing : Workspace → Location → String → WriteOutcome

/-- Everything can be read and made, and every write is done. -/
def Disk.sound : Disk where
  barsReading _ _ := none
  barsMaking _ _ := none
  writing _ _ _ := .done

namespace Workspace

def missing : String := "No such file or directory (os error 2)"
def notDirectory : String := "Not a directory (os error 20)"
def alreadyThere : String := "File exists (os error 17)"
def notText : String := "stream did not contain valid UTF-8"

/-! ## Paths in a workspace -/

/-- A step up from a location. Above the root there are only further parents. -/
def above (here : Location) : Location :=
  if here.all (· = "..") then here ++ [".."] else here.dropLast

/-- Where components lead from the root of the workspace. An absolute path leaves it. -/
def locate (components : List Path.Component) : Location :=
  components.foldl (fun here component => match component with
    | .root => ["/"]
    | .current => here
    | .parent => above here
    | .name text => here ++ [text]) []

def entry? (w : Workspace) (location : Location) : Option Entry :=
  (w.entries.find? fun entry => entry.1 = location).map Prod.snd

/-- A directory is the root or above it, an entry of its own, or on the way to another entry. -/
def isDirectory (w : Workspace) (location : Location) : Bool :=
  location.all (fun name => name = "/" || name = "..") || w.entry? location = some .directory ||
    w.entries.any fun entry => location.isPrefixOf entry.1 && location ≠ entry.1

def isFile (w : Workspace) (location : Location) : Bool :=
  match w.entry? location with
  | some (.file _) => true
  | _ => false

/-- The first place on the way that is not a directory. -/
def obstacle? (w : Workspace) (components : List Path.Component) : Option Location :=
  ((List.range components.length).map fun n => locate (components.take n)).find?
    fun location => !w.isDirectory location

/-- The last piece of a path that can name a file. -/
def namesFile (path : Path) : Bool :=
  match (Text.pieces '/' path.text.toList).getLast? with
  | some piece => piece ≠ [] && piece ≠ ['.'] && piece ≠ ['.', '.']
  | none => false

/-- What a path leads to. -/
def at? (w : Workspace) (path : Path) : Option Entry :=
  if (w.obstacle? path.components).isSome then none
  else if w.isDirectory (locate path.components) then some .directory
  else if namesFile path then w.entry? (locate path.components)
  else none

/-! ## Reading -/

def read (disk : Disk) (w : Workspace) (location : Location) (content : Content) :
    Except String String :=
  match disk.barsReading w location, content with
  | some reason, _ => .error reason
  | none, .text text => .ok text
  | none, .bytes _ => .error notText

def fileText? (disk : Disk) (w : Workspace) (path : Path) : Option String := do
  match ← w.at? path with
  | .file content => (w.read disk (locate path.components) content).toOption
  | .directory => none

def filesIn (disk : Disk) (w : Workspace) (path : Path) (location : Location) :
    List (Path × Except String String) :=
  w.entries.filterMap fun entry =>
    match entry.1.getLast?, entry.2 with
    | some name, .file content =>
      if entry.1.dropLast = location then some (path.join ⟨name⟩, w.read disk entry.1 content)
      else none
    | _, _ => none

/-- A file is listed like a directory that holds nothing. -/
def directory (disk : Disk) (w : Workspace) (path : Path) : Directory where
  path := path
  listing :=
    match w.at? path with
    | none => .error missing
    | some (.file _) => .ok []
    | some .directory =>
      match disk.barsReading w (locate path.components) with
      | some reason => .error reason
      | none => .ok (w.filesIn disk path (locate path.components))

/-! ## Writing -/

def put (w : Workspace) (location : Location) (entry : Entry) : Workspace :=
  { w with entries := (w.entries.filter fun e => e.1 ≠ location) ++ [(location, entry)] }

/-- A file can be opened under a name, in a directory that is there, where no directory is. -/
def canOpen (w : Workspace) (path : Path) : Bool :=
  namesFile path && (w.obstacle? path.components).isNone && !w.isDirectory (locate path.components)

/-- Whether the text has been written, and what is left. -/
def write (disk : Disk) (w : Workspace) (path : Path) (text : String) : Bool × Workspace :=
  if w.canOpen path then
    match disk.writing w (locate path.components) text with
    | .done => (true, w.put (locate path.components) (.file (.text text)))
    | .refused => (false, w)
    | .cut kept => (false, w.put (locate path.components) (.file kept))
  else (false, w)

/-- Why a directory is not made. What is on the way to it may have to be made first. -/
inductive Hindrance where
  | unreached
  | refused (reason : String)

def Hindrance.reason : Hindrance → String
  | unreached => missing
  | refused reason => reason

def makeDirectory (disk : Disk) (w : Workspace) (components : List Path.Component) :
    Except Hindrance Workspace :=
  match w.obstacle? components with
  | some obstacle => .error (if w.isFile obstacle then .refused notDirectory else .unreached)
  | none =>
    if w.isDirectory (locate components) then .ok w
    else if w.isFile (locate components) then .error (.refused alreadyThere)
    else
      match disk.barsMaking w (locate components) with
      | some reason => .error (.refused reason)
      | none => .ok (w.put (locate components) .directory)

/-- Makes a directory, after those on the way to it that are missing. The components stand in reverse. -/
def createDirectories (disk : Disk) (w : Workspace) : List Path.Component → Attempt × Workspace
  | [] => (.done, w)
  | last :: before =>
    match w.makeDirectory disk (last :: before).reverse with
    | .ok made => (.done, made)
    | .error (.refused reason) => (.failed reason, w)
    | .error .unreached =>
      match w.createDirectories disk before with
      | (.failed reason, reached) => (.failed reason, reached)
      | (.done, reached) =>
        match reached.makeDirectory disk (last :: before).reverse with
        | .ok made => (.done, made)
        | .error hindrance => (.failed hindrance.reason, reached)

/-! ## Running -/

def print (w : Workspace) (text : String) : Workspace := { w with output := w.output ++ text }

/-- Commands run on the state of a workspace, at a fixed time. -/
def host (disk : Disk) (now : String) : Host (StateM Workspace) where
  directory path := return (← get).directory disk path
  readFile path := return (← get).fileText? disk path
  pathExists path := return ((← get).at? path).isSome
  createDirectories components := modifyGet fun w => w.createDirectories disk components.reverse
  writeFile path text := modifyGet fun w => w.write disk path text
  print text := modify fun w => w.print text
  now := pure now

def run (disk : Disk) (w : Workspace) (now : String) (args : List String) : Exit × Workspace :=
  (CommandLine.run (host disk now) args).run w

end Workspace
end TemplateCost.CommandLine
