import TemplateCost.Proofs.Entries
import TemplateCost.Proofs.Text.Reader
import TemplateCost.Template.Parser.Body

/-! # Attributes of parsed bodies

No body that is read from text holds two attributes of one name, at any depth of its blocks. So an
attribute that is asked for by its name is the only one of it.
-/
namespace TemplateCost.Template
open Text Text.Reader

/-- No name stands twice among the attributes, here or in a nested block. -/
inductive Body.Distinct : Body → Prop
  | mk {attributes : List (String × Expr)} {blocks : List Block}
      (hnames : (attributes.map Prod.fst).Nodup) (hblocks : ∀ block ∈ blocks, block.body.Distinct) :
      Distinct (.mk attributes blocks)

namespace Body.Distinct
variable {body : Body}

theorem of_mem (h : body.Distinct) {block : Block} (hblock : block ∈ body.blocks) :
    block.body.Distinct := by
  cases h with
  | mk _ hblocks => exact hblocks block hblock

theorem attribute?_eq_some_iff (h : body.Distinct) {name : String} {e : Expr} :
    body.attribute? name = some e ↔ (name, e) ∈ body.attributes := by
  cases h with
  | mk hnames _ => exact Entries.find?_eq_some_iff_of_nodup hnames

end Body.Distinct

/-! ## Readers -/

/-- A block among the structures of a body has distinct names. -/
def Structure.Distinct (s : Structure) : Prop := ∀ block, s.block? = some block → block.body.Distinct

theorem Body.distinct_ofStructures? {structures : List Structure} {body : Body}
    (hstructures : ∀ s ∈ structures, s.Distinct) (h : Body.ofStructures? structures = some body) :
    body.Distinct := by
  simp only [Body.ofStructures?] at h
  split at h
  · rename_i hnames
    cases h
    refine .mk hnames ?_
    intro block hblock
    obtain ⟨s, hs, hsame⟩ := List.mem_filterMap.mp hblock
    exact hstructures s hs block hsame
  · cases h

namespace Parser

theorem yields_block {body onOneLine : Reader Body} (hbody : Yields Body.Distinct body)
    (honOneLine : Yields Body.Distinct onOneLine) :
    Yields (fun block : Block => block.body.Distinct) (block body onOneLine) := by
  unfold block
  refine yields_bind fun kind => yields_bind fun labels => yields_bind fun _ => yields_bind fun _ => ?_
  split
  · refine Yields.bind (P := Body.Distinct) ?_ fun inner hinner => yields_pure hinner
    exact yields_bind fun _ => hbody.bind fun inner hinner => yields_bind fun _ => yields_pure hinner
  · exact honOneLine.bind fun inner hinner => yields_pure hinner

theorem yields_bodyOnOneLine (levels : ℕ) : Yields Body.Distinct (bodyOnOneLine levels) := by
  cases levels with
  | zero => exact fun _ _ _ h => nomatch h
  | succ levels =>
    unfold bodyOnOneLine
    refine yields_bind fun only => yields_bind fun _ => yields_pure (.mk ?_ (by simp))
    cases only <;> simp

/-- A body holds what its blocks hold, which are read with one level less. -/
theorem yields_body (levels : ℕ) : Yields Body.Distinct (body levels) := by
  induction levels with
  | zero => exact fun _ _ _ h => nomatch h
  | succ levels ih =>
    have hblock := yields_block ih (yields_bodyOnOneLine levels)
    have hline : ∀ found : Structure, found.Distinct →
        Yields Structure.Distinct (do lineEnd; pure found) :=
      fun found hfound => yields_bind fun _ => yields_pure hfound
    unfold body
    refine Yields.bind (Yields.many (P := Structure.Distinct) ?_) fun structures hstructures =>
      yields_lift fun b hb => Body.distinct_ofStructures? hstructures hb
    refine yields_bind fun _ => yields_bind fun isMember => ?_
    split
    · refine Yields.bind (P := Structure.Distinct) ?_ hline
      exact yields_bind fun _ => yields_pure fun _ h => nomatch h
    · refine Yields.bind (hblock.map ?_) hline
      rintro block hinner _ ⟨⟩
      exact hinner

theorem yields_wholeBody : Yields Body.Distinct wholeBody := by
  unfold wholeBody
  exact (yields_body _).bind fun b hb => yields_bind fun _ => yields_pure hb

end Parser

theorem Body.distinct_ofText? {text : String} {body : Body} (h : Body.ofText? text = some body) :
    body.Distinct := by
  unfold Body.ofText? whole? at h
  split at h
  · rename_i hread
    cases h
    exact Parser.yields_wholeBody _ _ _ hread
  · cases h

end TemplateCost.Template
