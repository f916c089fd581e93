import TemplateCost.Proofs.CommandLine.Traces

/-! # Commands on a workspace

Commands read first, whatever that gives, and print or write last of all. So a command that fails has
left no trace but directories on the way to its output, and that output itself if writing it was cut.
-/
namespace TemplateCost.CommandLine

/-- The file that a command is to write. -/
def Command.output : Command → Option Path
  | .estimate _ _ _ _ _ output => output
  | _ => none

/-- A command on a workspace in memory. -/
abbrev Session := Run (StateM Workspace)

namespace Session
open Workspace
variable {α β : Type}

/-- The outcome, and the workspace that is left. -/
def on (p : Session α) (w : Workspace) : Except String α × Workspace := (ExceptT.run p).run w

theorem on_bind (p : Session α) (f : α → Session β) (w : Workspace) :
    on (p >>= f) w =
      match p.on w with
      | (.ok a, left) => (f a).on left
      | (.error e, left) => (.error e, left) := by
  rw [on, ExceptT.run_bind, StateT.run_bind]
  rcases h : p.on w with ⟨_ | a, left⟩ <;>
    · rw [on] at h
      simp only [h]
      rfl

/-- Nothing is printed or written, whatever the outcome. -/
def Reads (p : Session α) : Prop := ∀ w, (p.on w).2 = w

theorem Reads.left_eq {p : Session α} (h : p.Reads) {w left : Workspace} {outcome : Except String α}
    (hp : p.on w = (outcome, left)) : left = w := by
  rw [← h w, hp]

theorem Reads.bind {p : Session α} {f : α → Session β} (hp : p.Reads) (hf : ∀ a, (f a).Reads) :
    Reads (p >>= f) := by
  intro w
  rw [on_bind]
  rcases h : p.on w with ⟨_ | a, left⟩
  · exact hp.left_eq h
  · rw [hp.left_eq h]
    exact hf a w

section
variable {disk : Disk} {output : Option Path}

end

variable (disk : Disk) (now : String)

end Session
end TemplateCost.CommandLine
