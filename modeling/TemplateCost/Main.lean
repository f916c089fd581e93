import Std.Time.Format
import TemplateCost.CommandLine.Run

/-! # The program

Commands run on the file system, relative to the current directory. Failures are reported on the
standard error output and by the exit code.
-/
namespace TemplateCost.CommandLine

def currentTime : IO String := do
  let now ← Std.Time.Timestamp.now
  let time := Std.Time.DateTime.ofTimestamp now .UTC
  pure (time.format "uuuu-MM-dd'T'HH:mm:ss.SSSSSSSSS'Z'")

def readText (path : String) : IO (Except String String) := do
  try pure (.ok (← IO.FS.readFile path)) catch e => pure (.error (toString e))

def listFiles (path : Path) : IO (Except String (List (Path × Except String String))) := do
  try
    let entries ← ((← IO.currentDir) / path.text).readDir
    let files ← entries.toList.filterMapM fun entry => do
      let file := path.join ⟨entry.fileName⟩
      let isFile := (← entry.path.metadata).type == .file
      if isFile then pure (some (file, ← readText file.text)) else pure none
    pure (.ok files)
  catch e => pure (.error (toString e))

def componentsText : List Path.Component → String
  | .root :: rest => "/" ++ String.intercalate "/" (rest.map Path.Component.text)
  | components => String.intercalate "/" (components.map Path.Component.text)

def systemHost : Host IO where
  directory path := return ⟨path, ← listFiles path⟩
  readFile path := return (← readText path.text).toOption
  pathExists path := do ((← IO.currentDir) / path.text).pathExists
  createDirectories components := do
    try
      IO.FS.createDirAll (componentsText components)
      pure .done
    catch e => pure (.failed (toString e))
  writeFile path text := do
    try
      IO.FS.writeFile path.text text
      pure true
    catch _ => pure false
  print text := do
    let out ← IO.getStdout
    out.putStr text
    out.flush
  now := currentTime

def usage : String :=
  "Usage: tfcost [--config] [--target NAME] [COMMAND]\n\n" ++
  "Commands:\n" ++
  "  parse DIR [--var KEY=VALUE] [--backend json|text]\n" ++
  "  estimate DIR --price-book FILE [--var KEY=VALUE] [--currency CODE]\n" ++
  "           [--backend json|text] [--output FILE]\n" ++
  "  convert AMOUNT --from CODE --to CODE\n"

end TemplateCost.CommandLine

open TemplateCost.CommandLine in
def main (args : List String) : IO UInt32 := do
  let exit ← run systemHost args
  match exit with
  | .help => IO.print usage
  | .rejected => IO.eprint usage
  | .failure message => IO.eprintln ("Error: " ++ message)
  | .success => pure ()
  return exit.code.toUInt32
