import TemplateCost.Proofs.Decimal.Layout
import TemplateCost.Proofs.Text.Reader

/-! # Positional notation read

Digits on both sides of a point are taken for their value, and for no integer. Of the text of a double in
positional notation this is the value of its shortest decimal.
-/
namespace TemplateCost.Decimal
open Text Text.Reader

theorem looseParts_pointText {p : Parts} (hp : p.IsWritten) (hfraction : p.fraction ≠ []) :
    looseParts p.pointText = some (⟨p.whole, p.fraction, 0⟩, []) := by
  have hpoint : ∀ c ∈ ('.' :: p.fraction).head?, c.isDigit = false := by
    rintro c ⟨⟩
    rfl
  have hend : ∀ c ∈ ([] : List Char).head?, c.isDigit = false := nofun
  have hwhole := span_append hp.whole_digits hpoint
  have hrest := span_append hp.fraction_digits hend
  rw [List.append_nil] at hrest
  have hexponent : exponentPart [] = none := rfl
  rw [Parts.pointText, if_neg hfraction, looseParts, bind_apply, hwhole, Option.bind_some, bind_apply]
  simp [orElse_apply, seqRight_apply, char_cons, hrest, bind_apply, guardThat_apply, map_apply, hfraction,
    hexponent, pure_apply]

/-- No word for infinity or for what is not a number has a point in it. -/
theorem lowerAscii_ne {text : List Char} (hpoint : '.' ∈ text) {word : String} (hword : '.' ∉ word.toList) :
    lowerAscii text ≠ word.toList := by
  intro h
  have hlower : '.' ∈ lowerAscii text := List.mem_map.mpr ⟨'.', hpoint, rfl⟩
  exact hword (h ▸ hlower)

theorem point_mem_pointText {p : Parts} (hfraction : p.fraction ≠ []) : '.' ∈ p.pointText := by
  simp [Parts.pointText, hfraction]

theorem unsignedFloat?_pointText {p : Parts} (hp : p.IsWritten) (hfraction : p.fraction ≠ [])
    (hexponent : p.exponent = 0) : unsignedFloat? p.pointText = some p.value := by
  have hpoint := point_mem_pointText hfraction
  have hnan : lowerAscii p.pointText ≠ "nan".toList := lowerAscii_ne hpoint (by decide)
  have hinf : ¬(lowerAscii p.pointText = "inf".toList ∨ lowerAscii p.pointText = "infinity".toList) :=
    not_or.mpr ⟨lowerAscii_ne hpoint (by decide), lowerAscii_ne hpoint (by decide)⟩
  have hparts : (⟨p.whole, p.fraction, 0⟩ : Parts) = p := by
    rw [← hexponent]
  rw [unsignedFloat?, if_neg hnan, if_neg hinf, whole?, looseParts_pointText hp hfraction, hparts]
  rfl

theorem readFloat?_pointText {p : Parts} (hp : p.IsWritten) (hfraction : p.fraction ≠ [])
    (hexponent : p.exponent = 0) (negative : Bool) :
    readFloat? (signText negative ++ p.pointText) = some (negateIf negative p.value) := by
  have hread := unsignedFloat?_pointText hp hfraction hexponent
  cases negative with
  | true =>
    rw [signText, if_pos rfl, List.singleton_append, readFloat?, hread]
    rfl
  | false =>
    obtain ⟨c, whole, hwhole⟩ := List.exists_cons_of_ne_nil hp.whole_ne_nil
    have hdigit : c.isDigit = true := hp.whole_digits c (by simp [hwhole])
    have htext : p.pointText = c :: (whole ++ if p.fraction = [] then [] else '.' :: p.fraction) := by
      rw [Parts.pointText, hwhole, List.cons_append]
    change readFloat? p.pointText = some p.value
    rw [← hread, htext, readFloat?.eq_def]
    split
    · rename_i heq
      cases (List.cons.inj heq).1
      cases hdigit
    · rename_i heq
      cases (List.cons.inj heq).1
      cases hdigit
    · rfl

/-! ## Texts with a point -/

section
variable {layout : Layout} (hpositional : layout.positional = none) (hpoint : layout.wholePoint = true)

include hpositional hpoint in
theorem Layout.readFloat?_parts {f : Float} {b : Binary64} (hb : Binary64.ofFloat? f = some b) :
    readFloat? (layout.text f).toList =
      some (negateIf b.negative (layout.parts (shortest layout.tie b)).value) := by
  have hall : ∀ d, layout.isPositional d = true := fun d => by rw [Layout.isPositional, hpositional]; rfl
  rw [layout.toList_text hb, layout.toList_digitsText, if_pos (hall _), List.append_nil]
  exact readFloat?_pointText (layout.parts_isWritten _) (Layout.fraction_ne_nil hpoint (hall _))
    (Layout.exponent_eq_zero (hall _)) b.negative

include hpositional hpoint in
/-- What has a point in it is no integer. -/
theorem Layout.readInt64?_text {f : Float} {b : Binary64} (hb : Binary64.ofFloat? f = some b) :
    readInt64? (layout.text f).toList = none := by
  have hall : ∀ d, layout.isPositional d = true := fun d => by rw [Layout.isPositional, hpositional]; rfl
  have hmem : '.' ∈ (layout.text f).toList := by
    rw [layout.toList_text hb, layout.toList_digitsText, if_pos (hall _), List.append_nil]
    exact List.mem_append_right _ (point_mem_pointText (Layout.fraction_ne_nil hpoint (hall _)))
  rw [Option.eq_none_iff_forall_ne_some]
  intro i hi
  have hdigit := isDigit_or_sign_of_readInt64? hi '.' hmem
  revert hdigit
  decide

end

end TemplateCost.Decimal
