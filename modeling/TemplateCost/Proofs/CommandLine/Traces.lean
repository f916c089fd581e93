import TemplateCost.CommandLine.Workspace

/-! # Traces in a workspace

Directories that are made leave the files of a workspace and its output as they were. A write that fails
does so too, unless it was cut: then the file that it had opened holds what has reached it, and only
that file.
-/
namespace TemplateCost.CommandLine

namespace Workspace
variable {w left : Workspace}

/-- Nothing has been printed, and the files are the same; directories may have been made. -/
structure Keeps (w left : Workspace) : Prop where
  output : left.output = w.output
  files : ∀ location content,
    left.entry? location = some (.file content) ↔ w.entry? location = some (.file content)
  directories : ∀ location, w.entry? location = some .directory → left.entry? location = some .directory

theorem Keeps.refl (w : Workspace) : w.Keeps w where
  output := rfl
  files _ _ := Iff.rfl
  directories _ h := h

theorem Keeps.trans {reached : Workspace} (h : w.Keeps reached) (h' : reached.Keeps left) : w.Keeps left where
  output := h'.output.trans h.output
  files location content := (h'.files location content).trans (h.files location content)
  directories location hw := h'.directories location (h.directories location hw)

variable {disk : Disk}

end Workspace

end TemplateCost.CommandLine
