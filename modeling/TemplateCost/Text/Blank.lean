/-! # White space

Blank characters are those with the Unicode property White_Space. The class is a fixed table of
ten ranges, so that trimming does not stop at the ASCII blanks.
-/
namespace TemplateCost.Text

def blankRanges : List (Nat × Nat) :=
  [(0x09,0x0d), (0x20,0x20), (0x85,0x85), (0xa0,0xa0), (0x1680,0x1680), (0x2000,0x200a),
   (0x2028,0x2029), (0x202f,0x202f), (0x205f,0x205f), (0x3000,0x3000)]

def isBlank (c : Char) : Bool :=
  blankRanges.any fun range => range.1 ≤ c.toNat && c.toNat ≤ range.2

def trimLeft (text : List Char) : List Char := text.dropWhile isBlank

/-- Blank characters are removed at both ends and nowhere else. -/
def trim (text : List Char) : List Char := (trimLeft (trimLeft text).reverse).reverse

theorem mem_trimLeft {c : Char} {text : List Char} (hc : isBlank c = false) (h : c ∈ text) :
    c ∈ trimLeft text := by
  induction text with
  | nil => exact h
  | cons d text ih =>
    rw [trimLeft, List.dropWhile_cons]
    split
    · rename_i hd
      rcases List.mem_cons.mp h with rfl | h
      · simp [hc] at hd
      · exact ih h
    · exact h

theorem mem_trim {c : Char} {text : List Char} (hc : isBlank c = false) (h : c ∈ text) :
    c ∈ trim text :=
  List.mem_reverse.mpr (mem_trimLeft hc (List.mem_reverse.mpr (mem_trimLeft hc h)))

end TemplateCost.Text
