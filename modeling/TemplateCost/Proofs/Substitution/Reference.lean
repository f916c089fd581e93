import TemplateCost.Proofs.Substitution.Nesting
import TemplateCost.Proofs.Substitution.Splice

/-! # References become what they refer to

A reference to data that is bound to nothing is evaluated to its own token, and substitution reads that
token back: alone, bare or as the only part of a quoted text, it becomes the value itself, and with
text around it the display text of the value. This holds at every place of a body. A position in
brackets has to be in the signed range; a greater one is found after a dot, but not in brackets.
-/
namespace TemplateCost
open Template Substitution

/-- Literal text as the elements of a template, of which none is empty. -/
def literalElements (text : String) : List Element := if text = "" then [] else [.literal text]

/-- The ways of writing a reference to `w`, each with what it stands for. -/
inductive Spells (reference : Expr) (w : Value) : Expr → Value → Prop
  | bare : Spells reference w reference w
  | quoted : Spells reference w (.quoted [.interpolation reference]) w
  | embedded {before after : String} (hne : before ≠ "" ∨ after ≠ "")
      (hbefore : IsFree before.toList) (hafter : IsFree after.toList) :
      Spells reference w
        (.quoted (literalElements before ++ .interpolation reference :: literalElements after))
        (.string (before ++ w.display ++ after))

/-! ## Evaluation writes the token -/

section Evaluation
variable {env : Environment} {type name : String} {path : List Access}

theorem eval_dataReference (hsigned : ∀ a ∈ path, a.IsSigned)
    (hunbound : env.get? (dataPath type name path) = none) :
    (dataReference type name path).eval env = .ok (.placeholder (token (dataPath type name path))) := by
  rw [dataReference, Expr.eval, path?_dataReference hsigned]
  change Except.ok (env.resolve _) = _
  rw [resolve_dataPath hunbound, Value.unresolved]

theorem text_dataReference (hsigned : ∀ a ∈ path, a.IsSigned)
    (hunbound : env.get? (dataPath type name path) = none) :
    Element.text env (.interpolation (dataReference type name path)) =
      token (dataPath type name path) := by
  rw [dataReference, Element.text, path?_dataReference hsigned]
  change (env.resolve _).display = _
  rw [resolve_dataPath hunbound, Value.unresolved, Value.display]

theorem render_literalElements (env : Environment) (text : String) :
    Element.render env (literalElements text) = text := by
  by_cases h : text = "" <;> simp [Element.render, literalElements, Element.text, h]

theorem render_append (env : Environment) (elements others : List Element) :
    Element.render env (elements ++ others) =
      Element.render env elements ++ Element.render env others := by
  rw [Element.render, List.map_append, String.join_append]
  rfl

theorem render_embedded (hsigned : ∀ a ∈ path, a.IsSigned)
    (hunbound : env.get? (dataPath type name path) = none) (before after : String) :
    Element.render env (literalElements before ++
        .interpolation (dataReference type name path) :: literalElements after) =
      before ++ token (dataPath type name path) ++ after := by
  have hcons : Element.interpolation (dataReference type name path) :: literalElements after =
    [.interpolation (dataReference type name path)] ++ literalElements after := rfl
  have hone : Element.render env [.interpolation (dataReference type name path)] =
      token (dataPath type name path) := by
    simp [Element.render, text_dataReference hsigned hunbound]
  rw [hcons, render_append, render_append, render_literalElements, render_literalElements, hone,
    String.append_assoc]

end Evaluation

/-! ## Substitution reads it back -/

theorem isDataPath_dataPath {type name : String} {path : List Access} (htype : IsName type)
    (hname : IsName name) (hpath : ∀ a ∈ path, a.IsParsed) :
    IsDataPath (dataPath type name path).toList where
  data := by
    obtain ⟨tail, ht⟩ := toList_dataPath type name path
    exact ⟨tail, ht.symm⟩
  closing := not_mem_dotted (by decide) fun part hp =>
    (isPart_of_mem_dataPath htype hname hpath hp).closing

/-- However a reference is spelled, evaluation and substitution together give what it stands for. -/
theorem Spells.eval_replace {env : Environment} {resolved : Entries Value} {type name : String}
    {path : List Access} {v w : Value} (htype : IsName type) (hname : IsName name)
    (hpath : ∀ a ∈ path, a.IsParsed) (hsigned : ∀ a ∈ path, a.IsSigned)
    (hknown : resolved.get? (dotted ["data", type, name]) = some v) (hleads : Leads v path w)
    (hunbound : env.get? (dataPath type name path) = none) {e : Expr} {result : Value}
    (h : Spells (dataReference type name path) w e result) :
    ∃ u, e.eval env = .ok u ∧ replace resolved u = result := by
  have hdata := isDataPath_dataPath htype hname hpath
  have hlookup := lookup?_dataPath htype hname hpath hknown hleads
  cases h with
  | bare =>
    refine ⟨_, eval_dataReference hsigned hunbound, ?_⟩
    rw [replace, hlookup, Option.getD_some]
  | quoted =>
    refine ⟨.string (token (dataPath type name path)), ?_, ?_⟩
    · rw [Expr.eval, Element.render]
      simp [text_dataReference hsigned hunbound]
    · rw [replace, replaceText_token resolved hdata hlookup]
  | embedded hne hbefore hafter =>
    refine ⟨_, Expr.eval_quoted .., ?_⟩
    rw [render_embedded hsigned hunbound, replace,
      replaceText_embedded resolved hne hbefore hdata hafter hlookup]

/-- A reference whose path leads to `w` inside resolved data becomes what its spelling stands for, by
itself and at every place of a body that it holds. Its positions are such that can be written: in
brackets those of the signed range, after a dot also those above it. -/
theorem reference_substituted {env : Environment} {resolved : Entries Value} {type name : String}
    {path : List Access} {v w : Value} (htype : IsName type) (hname : IsName name)
    (hpath : ∀ a ∈ path, a.IsParsed) (hsigned : ∀ a ∈ path, a.IsSigned)
    (hknown : resolved.get? (dotted ["data", type, name]) = some v) (hleads : Leads v path w)
    (hunbound : env.get? (dataPath type name path) = none) {e : Expr} {result : Value}
    (h : Spells (dataReference type name path) w e result) :
    (e.eval env).map (replace resolved) = .ok result ∧
    ∀ (body : Body) (spots : List Spot), Body.Holds env body spots e →
      (Value.map (replaceEntries resolved (body.values env))).at? spots = some result := by
  obtain ⟨u, hu, hr⟩ := h.eval_replace htype hname hpath hsigned hknown hleads hunbound
  refine ⟨by rw [hu, Except.map, hr], ?_⟩
  intro body spots hholds
  have hat := at?_replace resolved (hholds.value_at hu)
  rw [replace, hr] at hat
  exact hat

/-- A zone chosen by its position, in a text inside an object inside a list of a nested block. -/
theorem zone_reference_substituted :
    let zones : Value := .map [("ids", .list [.string "a", .string "b"])]
    let zone := dataReference "aws_zones" "all" [.name "ids", .bracket 1]
    let label := Expr.quoted [.literal "zone-", .interpolation zone]
    let disk := Block.mk "disk" [] (.mk [("zones",
      .list [.null, .object [(.identifier "first", label)]])] [])
    (Value.map (replaceEntries [("data.aws_zones.all", zones)]
      (Body.values [] (.mk [] [disk])))).at? [.key "disk", .key "zones", .position 0, .key "first"] =
        some (.string "zone-b") := by
  intro zones zone label disk
  have hleads : Leads zones [.name "ids", .bracket 1] (.string "b") :=
    .key rfl (.item rfl rfl (.here _))
  have hbefore : IsFree "zone-".toList := by decide
  have hafter : IsFree "".toList := by decide
  have hspells : Spells zone (.string "b") label (.string "zone-b") :=
    .embedded (Or.inl (by decide)) hbefore hafter
  have hlast : ∀ item ∈ ([] : List (Key × Expr)), item.1.text? ≠ some "first" := by simp
  have hfirst : Expr.Holds [] (.object ([] ++ [(.identifier "first", label)])) [.key "first"] label :=
    .entry rfl hlast (.here label)
  have hzones : Expr.Holds [] (.list ([.null] ++ [.object [(.identifier "first", label)]]))
      [.position 0, .key "first"] label := .item hfirst
  have hown : Body.Holds [] (.mk ([] ++ [("zones",
      .list [.null, .object [(.identifier "first", label)]])]) [])
      [.key "zones", .position 0, .key "first"] label := .own rfl rfl hzones
  have hholds : Body.Holds [] (.mk [] ([] ++ [disk]))
      [.key "disk", .key "zones", .position 0, .key "first"] label := .nested rfl hown
  exact (reference_substituted (by decide) (by decide) (by decide) (by decide) rfl hleads rfl hspells).2 _ _
    hholds

/-- A key that is a position above the signed range is found after a dot. In brackets the position is
written with them, and the reference keeps its token. -/
theorem great_position_not_substituted :
    let shelves : Value := .map [("9223372036854775808", .string "top")]
    let resolved := [("data.aws_shelves.all", shelves)]
    (Access.bracket (2 ^ 63)).IsParsed ∧ Leads shelves [.bracket (2 ^ 63)] (.string "top") ∧
    Entries.get? (dataPath "aws_shelves" "all" [.bracket (2 ^ 63)]) ([] : Environment) = none ∧
    ((dataReference "aws_shelves" "all" [.dot (2 ^ 63)]).eval []).map (replace resolved) =
      .ok (.string "top") ∧
    ((dataReference "aws_shelves" "all" [.bracket (2 ^ 63)]).eval []).map (replace resolved) =
      .ok (.placeholder (token (dotted ["data", "aws_shelves", "all", "[9223372036854775808]"]))) := by
  intro shelves resolved
  have hleads : Leads shelves [.bracket (2 ^ 63)] (.string "top") := .key rfl (.here _)
  exact ⟨by decide, hleads, rfl, rfl, rfl⟩

end TemplateCost
