import TemplateCost.Proofs.Loading.Extraction
import TemplateCost.Proofs.Template.Condition
import TemplateCost.Proofs.Template.Failure
import TemplateCost.Proofs.Variable

/-! # Resources selected by a variable

A template can hold one block for each provider and let a variable choose: a gate counts one instance
where the variable has the block's own text, and none elsewhere. The text is that of the override, else
of the assigned value, else of the default, and an unbound variable is compared by its placeholder. A
gate that is turned around, comparison and branches, is the same gate.
-/
namespace TemplateCost
open Template Entries

namespace Template

/-- One instance where the variable has this text. -/
def gate (name text : String) : Expr :=
  .conditional (.binary .equal (.traversal (.variable "var") [.member name]) (.string text))
    (.number (.integer 1)) (.number (.integer 0))

/-- The opposite comparison with exchanged branches. -/
def Expr.mirrored : Expr → Expr
  | .conditional (.binary .equal left right) yes no =>
    .conditional (.binary .notEqual left right) no yes
  | .conditional (.binary .notEqual left right) yes no =>
    .conditional (.binary .equal left right) no yes
  | e => e

/-- A block that is counted by a gate for this text, in either spelling. -/
structure Block.IsGated (name text : String) (block : Block) : Prop where
  labels : block.labels.length = 2
  forEach : block.body.attribute? "for_each" = none
  count : block.body.attribute? "count" = some (gate name text) ∨
    block.body.attribute? "count" = some (gate name text).mirrored

/-- The text of a gate, in either spelling. -/
def Expr.gateText? (name : String) : Expr → Option String
  | .conditional (.binary op (.traversal (.variable scope) [.member member]) (.string text))
      (.number yes) (.number no) =>
    if scope = "var" ∧ member = name ∧
        ((op, yes, no) = (.equal, .integer 1, .integer 0) ∨
          (op, yes, no) = (.notEqual, .integer 0, .integer 1)) then some text else none
  | _ => none

def Block.gateText? (name : String) (block : Block) : Option String :=
  (block.body.attribute? "count").bind (Expr.gateText? name)

def Body.mirrorCount : Body → Body
  | .mk attributes blocks =>
    .mk (attributes.map fun entry =>
      (entry.1, if entry.1 = "count" then entry.2.mirrored else entry.2)) blocks

def Block.mirrored (block : Block) : Block :=
  if block.kind = "resource" then .mk block.kind block.labels block.body.mirrorCount else block

/-- The body with the counts of its resources in their other spelling. -/
def Body.mirrored : Body → Body
  | .mk attributes blocks => .mk attributes (blocks.map Block.mirrored)

end Template

/-- The text by which gates compare a variable. -/
def Variable.comparedText (bodies : List Body) (assigned : Option (Entries Value))
    (overrides : Entries String) (name : String) : String :=
  match overrides.get? name with
  | some raw => raw
  | none =>
    match (assigned.bind fun values => values.get? name).or
        ((declaration? bodies name).bind Block.default?) with
    | some value => value.display
    | none => token ("var." ++ name)

/-! ## Gates -/

theorem bareName_var (name : String) : bareName ("var." ++ name) = name := by
  have hdropped : Text.dropMark? "var.".toList ("var." ++ name).toList = some name.toList := by
    rw [String.toList_append]
    rfl
  simp only [bareName, hdropped, String.ofList_toList]

theorem token_var (name : String) : token ("var." ++ name) = "$\x7bvar." ++ name ++ "\x7d" := by
  rw [token, ← String.append_assoc]
  rfl

namespace Template

theorem eval_gate (env : Environment) (name text : String) :
    (gate name text).eval env =
      .ok (.int (if (env.resolve ("var." ++ name)).display = text then 1 else 0)) := by
  have hvariable : (Expr.traversal (.variable "var") [.member name]).eval env =
      .ok (env.resolve ("var." ++ name)) := Expr.eval_reference rfl
  have hstring : (Expr.string text).eval env = .ok (.string text) := by rw [Expr.eval]
  have hone : (Expr.number (.integer 1)).eval env = .ok (.int 1) := by rw [Expr.eval]; rfl
  have hzero : (Expr.number (.integer 0)).eval env = .ok (.int 0) := by rw [Expr.eval]; rfl
  rw [gate, Expr.eval_conditional (.equal hvariable hstring), hone, hzero]
  by_cases h : (env.resolve ("var." ++ name)).display = text <;> simp [Value.display, h]

/-- Both spellings have the same value or fail alike, whatever is compared. -/
theorem Expr.eval_mirrored (env : Environment) (e : Expr) : e.mirrored.eval env = e.eval env := by
  rw [mirrored.eq_def]
  split
  · exact eval_choice_notEqual ..
  · exact (eval_choice_notEqual ..).symm
  · rfl

theorem Expr.gateText?_eq_some_iff {name text : String} {e : Expr} :
    e.gateText? name = some text ↔ e = gate name text ∨ e = (gate name text).mirrored := by
  constructor
  · intro h
    rw [gateText?.eq_def] at h
    split at h
    · split at h
      · rename_i hgate
        obtain ⟨rfl, rfl, hspelling | hspelling⟩ := hgate
        · cases hspelling
          cases h
          exact Or.inl rfl
        · cases hspelling
          cases h
          exact Or.inr rfl
      · cases h
    · cases h
  · rintro (rfl | rfl)
    · simp [gateText?, gate]
    · simp [gateText?, gate, mirrored]

instance (name text : String) (block : Block) : Decidable (block.IsGated name text) :=
  decidable_of_iff (block.labels.length = 2 ∧ (block.body.attribute? "for_each").isNone = true ∧
      block.gateText? name = some text) (by
    simp only [Block.gateText?, Option.bind_eq_some_iff, Expr.gateText?_eq_some_iff,
      Option.isNone_iff_eq_none]
    constructor
    · rintro ⟨hlabels, hforEach, e, he, rfl | rfl⟩
      · exact ⟨hlabels, hforEach, Or.inl he⟩
      · exact ⟨hlabels, hforEach, Or.inr he⟩
    · rintro ⟨hlabels, hforEach, hcount | hcount⟩
      · exact ⟨hlabels, hforEach, _, hcount, Or.inl rfl⟩
      · exact ⟨hlabels, hforEach, _, hcount, Or.inr rfl⟩)

/-! ## Mirrored templates -/

section
variable (env : Environment)

/-- Mirroring changes expressions under their names and no value. -/
theorem eval_mirrored_of_count (entry : String × Expr) :
    (if entry.1 = "count" then entry.2.mirrored else entry.2).eval env = entry.2.eval env := by
  split
  · exact Expr.eval_mirrored env entry.2
  · rfl

theorem Body.eval_attribute?_mirrorCount (name : String) (body : Body) :
    (body.mirrorCount.attribute? name).map (Expr.eval env) =
      (body.attribute? name).map (Expr.eval env) := by
  obtain ⟨attributes, blocks⟩ := body
  simp only [mirrorCount, attribute?, Body.attributes, List.find?_map, Option.map_map]
  refine congrArg (fun f => (attributes.find? fun entry => entry.1 = name).map f) ?_
  funext entry
  exact eval_mirrored_of_count env entry

theorem Body.values_mirrorCount (body : Body) : body.mirrorCount.values env = body.values env := by
  obtain ⟨attributes, blocks⟩ := body
  rw [mirrorCount, values, values, evaluated, evaluated, List.filterMap_map]
  congr 2
  refine congrArg (fun f => attributes.filterMap f) ?_
  funext entry
  simp only [Function.comp, Expr.value?, eval_mirrored_of_count env entry]

theorem Block.kind_mirrored (block : Block) : block.mirrored.kind = block.kind := by
  rw [mirrored]
  split <;> rfl

theorem Block.labels_mirrored (block : Block) : block.mirrored.labels = block.labels := by
  rw [mirrored]
  split <;> rfl

theorem Block.instances?_mirrored (block : Block) :
    block.mirrored.instances? env = block.instances? env := by
  rw [mirrored]
  split
  · simp only [instances?, Block.body, Body.eval_attribute?_mirrorCount]
  · rfl

theorem Block.values_mirrored (block : Block) :
    block.mirrored.body.values env = block.body.values env := by
  rw [mirrored]
  split
  · exact Body.values_mirrorCount env block.body
  · rfl

theorem Body.blocksOf_mirrored (kind : String) (body : Body) :
    body.mirrored.blocksOf kind = (body.blocksOf kind).map Block.mirrored := by
  obtain ⟨attributes, blocks⟩ := body
  simp only [mirrored, blocksOf, Body.blocks, List.filter_map, Function.comp_def,
    Block.kind_mirrored]

/-- Only resources are written anew. -/
theorem flatMap_blocksOf_mirrored {kind : String} (h : kind ≠ "resource") (bodies : List Body) :
    (bodies.map Body.mirrored).flatMap (Body.blocksOf kind) =
      bodies.flatMap (Body.blocksOf kind) := by
  rw [List.flatMap_map]
  refine List.flatMap_congr ?_
  intro body _
  have hkept : ∀ block ∈ body.blocksOf kind, block.mirrored = id block := by
    intro block hblock
    have hkind : block.kind = kind := by simpa using (List.mem_filter.mp hblock).2
    rw [Block.mirrored, if_neg (hkind ▸ h), id]
  rw [Body.blocksOf_mirrored, List.map_congr_left hkept, List.map_id]

end

end Template

theorem Resource.ofBlock?_mirrored (env : Environment) (regions : Entries String) (block : Block) :
    ofBlock? env regions block.mirrored = ofBlock? env regions block := by
  rw [ofBlock?, ofBlock?, Block.labels_mirrored, Block.instances?_mirrored, Block.values_mirrored]

theorem resourcesOf_mirrored (bodies : List Body) (env : Environment) :
    resourcesOf (bodies.map Body.mirrored) env = resourcesOf bodies env := by
  rw [resourcesOf, resourcesOf, providerRegions, providerRegions,
    flatMap_blocksOf_mirrored (by decide), List.flatMap_map]
  refine List.flatMap_congr ?_
  intro body _
  rw [Resource.ofBody, Resource.ofBody, Body.blocksOf_mirrored, List.filterMap_map]
  refine List.filterMap_congr ?_
  intro block _
  exact Resource.ofBlock?_mirrored env _ block

/-- A template in which the gates are mirrored is assembled to the same. -/
theorem assemble_mirrored (bodies : List Body) (env : Environment) (sources : Option DataSources) :
    assemble (bodies.map Body.mirrored) env sources = assemble bodies env sources := by
  have hqueries : (sources.map fun s => s.queries env (bodies.map Body.mirrored)) =
      sources.map fun s => s.queries env bodies := by
    cases sources with
    | none => rw [Option.map_none, Option.map_none]
    | some s =>
      rw [Option.map_some, Option.map_some, DataSources.queries, DataSources.queries,
        flatMap_blocksOf_mirrored (by decide)]
  simp only [assemble, hqueries, resourcesOf_mirrored]

theorem Variable.declared_mirrored (bodies : List Body) :
    declared (bodies.map Body.mirrored) = declared bodies := by
  rw [declared, declared, flatMap_blocksOf_mirrored (by decide)]

/-! ## Gated resources -/

theorem display_resolve_var (env : Environment) (name : String) :
    (env.resolve ("var." ++ name)).display =
      ((env.get? name).map Value.display).getD (token ("var." ++ name)) := by
  rw [Environment.resolve, bareName_var]
  cases env.get? name with
  | none => rw [Value.unresolved, Value.display, Option.map_none, Option.getD_none]
  | some value => rfl

theorem VarType.coerce_of_text {type : VarType} (hnumber : type ≠ .number) (hbool : type ≠ .bool)
    (raw : String) : type.coerce raw = .ok (.string raw) := by
  cases type with
  | number => exact absurd rfl hnumber
  | bool => exact absurd rfl hbool
  | string => rfl
  | other => rfl

namespace Variable
variable {bodies : List Body} {assigned : Option (Entries Value)} {overrides : Entries String}
  {name : String}

/-- A variable that holds text is compared by what is bound to it in the first place. -/
theorem display_resolve_environment (hassigned : ∀ values ∈ assigned, values.Sorted)
    (hoverrides : overrides.Sorted)
    (htype : ∀ block ∈ declaration? bodies name,
      block.declaredType ≠ .number ∧ block.declaredType ≠ .bool) :
    (Environment.resolve (environment (declared bodies) assigned overrides)
      ("var." ++ name)).display = comparedText bodies assigned overrides name := by
  rw [display_resolve_var, get?_environment_declared bodies hassigned hoverrides, comparedText]
  cases overrides.get? name with
  | some raw =>
    have hraw : ((declaration? bodies name).bind fun block =>
        (block.declaredType.coerce raw).toOption).getD (.string raw) = .string raw := by
      cases hdeclared : declaration? bodies name with
      | none => rfl
      | some block =>
        obtain ⟨hnumber, hbool⟩ := htype block hdeclared
        rw [Option.bind_some, VarType.coerce_of_text hnumber hbool]
        rfl
    simp only [hraw, Option.map_some, Option.getD_some, Value.display]
  | none =>
    cases (assigned.bind fun values => values.get? name).or
      ((declaration? bodies name).bind Block.default?) <;> rfl

end Variable

theorem Directory.sorted_of_assigned {directory : Directory} {values : Entries Value}
    (h : values ∈ directory.listing.toOption.bind directory.assigned) : values.Sorted := by
  obtain ⟨files, _, hfiles⟩ := Option.bind_eq_some_iff.mp h
  obtain ⟨file, _, hfile⟩ := Option.bind_eq_some_iff.mp hfiles
  obtain ⟨text, _, htext⟩ := Option.bind_eq_some_iff.mp hfile
  obtain ⟨body, _, hbody⟩ := Option.bind_eq_some_iff.mp htext
  cases hbody
  exact sorted_ofList _

namespace Template.Block.IsGated
variable {env : Environment} {name text : String} {block : Block}

theorem standsFor_iff (h : block.IsGated name text) {n : Int64} :
    block.StandsFor env n ↔
      n = if (env.resolve ("var." ++ name)).display = text then 1 else 0 := by
  have hcount : (block.body.attribute? "count").map (Expr.eval env) = some (.ok (.int
      (if (env.resolve ("var." ++ name)).display = text then 1 else 0))) := by
    rcases h.count with hcount | hcount
    · rw [hcount, Option.map_some, eval_gate]
    · rw [hcount, Option.map_some, Expr.eval_mirrored, eval_gate]
  rw [← instances?_eq_some_iff, instances?, hcount, h.forEach]
  exact Option.some_inj.trans eq_comm

/-- What is counted by a gate is counted once. -/
theorem eq_one_of_standsFor (h : block.IsGated name text) {n : Int64} (hn : block.StandsFor env n)
    (hpos : 0 < n) : n = 1 := by
  rw [h.standsFor_iff] at hn
  split at hn
  · exact hn
  · exact absurd (hn ▸ hpos) (by decide)

theorem isMaterialized_iff (h : block.IsGated name text) :
    block.IsMaterialized env ↔ text = (env.resolve ("var." ++ name)).display := by
  simp only [IsMaterialized, h.labels, h.standsFor_iff, exists_eq_left]
  by_cases heq : (env.resolve ("var." ++ name)).display = text
  · simp [heq]
  · simp [heq, Ne.symm heq]

end Template.Block.IsGated

/-- The gates of the compared text are those that let their block in. -/
theorem filter_isMaterialized_of_gated {blocks : List Block} {env : Environment}
    {name compared : String} {text : Block → String}
    (hgated : ∀ block ∈ blocks, block.IsGated name (text block))
    (hcompared : (env.resolve ("var." ++ name)).display = compared) :
    blocks.filter (Block.IsMaterialized env ·) = blocks.filter (text · = compared) := by
  refine List.filter_congr ?_
  intro block hblock
  rw [decide_eq_decide, (hgated block hblock).isMaterialized_iff, hcompared]

/-- Bodies give the blocks whose gates have the compared text, in order and once each. -/
theorem Resource.forall₂_of_gated {bodies : List Body} {env : Environment} {name compared : String}
    {text : Block → String} (regions : Entries String)
    (hgated : ∀ block ∈ bodies.flatMap (Body.blocksOf "resource"), block.IsGated name (text block))
    (hcompared : (env.resolve ("var." ++ name)).display = compared) :
    List.Forall₂ (fun block r => r.IsOf env regions block ∧ r.count = 1)
      ((bodies.flatMap (Body.blocksOf "resource")).filter (text · = compared))
      (bodies.flatMap (ofBody env regions)) := by
  rw [← filter_isMaterialized_of_gated hgated hcompared]
  have hgates : ∀ block ∈ (bodies.flatMap (Body.blocksOf "resource")).filter
      (Block.IsMaterialized env ·), block.IsGated name (text block) :=
    fun block hblock => hgated block (List.mem_of_mem_filter hblock)
  have hresources := forall₂_ofBodies bodies env regions
  refine ((List.forall₂_and_left _ _).mpr ⟨hgates, hresources⟩).imp ?_
  rintro block r ⟨hgate, hof⟩
  exact ⟨hof, hgate.eq_one_of_standsFor hof.count hof.count_pos⟩

/-- If every resource has a gate for the same variable, which holds text, then loading gives those whose
gates have the compared text, in order and once each. Whether a gate is mirrored does not matter to what
is assembled. -/
theorem gated_resources_loaded {directory : Directory} {bodies : List Body}
    {overrides : Entries String} {name : String} {text : Block → String}
    (hbodies : directory.bodies = .ok bodies) (hoverrides : overrides.Sorted)
    (htype : ∀ block ∈ Variable.declaration? bodies name,
      block.declaredType ≠ .number ∧ block.declaredType ≠ .bool)
    (hgated : ∀ block ∈ bodies.flatMap (Body.blocksOf "resource"), block.IsGated name (text block)) :
    let env := directory.environment overrides bodies
    let compared := Variable.comparedText bodies (directory.listing.toOption.bind directory.assigned)
      overrides name
    (∃ loaded, load directory overrides none = .ok loaded ∧
      List.Forall₂ (fun block r => r.IsOf env (providerRegions bodies env) block ∧ r.count = 1)
        ((bodies.flatMap (Body.blocksOf "resource")).filter (text · = compared))
        loaded.inventory.resources ∧
      (env.get? name = none →
        (∀ block ∈ bodies.flatMap (Body.blocksOf "resource"),
          text block ≠ "$\x7bvar." ++ name ++ "\x7d") →
        loaded.inventory.resources = [])) ∧
    ∀ sources, assemble (bodies.map Body.mirrored)
      (directory.environment overrides (bodies.map Body.mirrored)) sources =
        assemble bodies env sources := by
  intro env compared
  have hcompared : (env.resolve ("var." ++ name)).display = compared :=
    Variable.display_resolve_environment (fun _ => Directory.sorted_of_assigned) hoverrides htype
  have hresources := Resource.forall₂_of_gated (providerRegions bodies env) hgated hcompared
  refine ⟨⟨assemble bodies env none, load_eq_ok_iff.mpr ⟨bodies, hbodies, rfl⟩, hresources, ?_⟩, ?_⟩
  · intro hunbound hother
    -- an unbound variable is compared by its placeholder, which is no gate's text
    have hnone : (bodies.flatMap (Body.blocksOf "resource")).filter (text · = compared) = [] := by
      rw [← hcompared, display_resolve_var, hunbound, Option.map_none, Option.getD_none, token_var,
        List.filter_eq_nil_iff]
      intro block hblock
      simpa using hother block hblock
    rw [hnone] at hresources
    exact List.forall₂_nil_left_iff.mp hresources
  · intro sources
    rw [assemble_mirrored, Directory.environment, Variable.declared_mirrored]
    rfl

/-- Instances for two clouds and a disk whose gate is mirrored. -/
def cloudsDirectory : Directory :=
  .ofLines [
    "variable \"cloud\" \x7b",
    "  type = string",
    "  default = \"aws\"",
    "\x7d",
    "resource \"aws_instance\" \"web\" \x7b",
    "  count = var.cloud == \"aws\" ? 1 : 0",
    "\x7d",
    "resource \"gcp_instance\" \"web\" \x7b",
    "  count = var.cloud == \"gcp\" ? 1 : 0",
    "\x7d",
    "resource \"aws_disk\" \"data\" \x7b",
    "  count = var.cloud != \"aws\" ? 0 : 1",
    "\x7d"]

def cloudText (block : Block) : String := (block.gateText? "cloud").getD ""

theorem types_of_forall₂ {env : Environment} {regions : Entries String} {blocks : List Block}
    {resources : List Resource}
    (h : List.Forall₂ (fun block r => r.IsOf env regions block ∧ r.count = 1) blocks resources) :
    resources.map (fun r => (some r.type, r.count)) =
      blocks.map fun block => (block.labels.head?, 1) := by
  induction h with
  | nil => rfl
  | cons hof _ ih =>
    obtain ⟨⟨⟨others, hlabels⟩, _⟩, hcount⟩ := hof
    rw [List.map_cons, List.map_cons, ih, hcount, hlabels, List.head?_cons]

/-- The types that a text selects, each once. -/
def cloudTypes (overrides : Entries String) (bodies : List Body) : List (Option String × Int64) :=
  ((bodies.flatMap (Body.blocksOf "resource")).filter (cloudText · =
    Variable.comparedText bodies (cloudsDirectory.listing.toOption.bind cloudsDirectory.assigned)
      overrides "cloud")).map fun block => (block.labels.head?, 1)

theorem clouds_selected :
    ∃ unset gcp, load cloudsDirectory [] none = .ok unset ∧
      load cloudsDirectory [("cloud", "gcp")] none = .ok gcp ∧
      unset.inventory.resources.map (fun r => (some r.type, r.count)) =
        [(some "aws_instance", 1), (some "aws_disk", 1)] ∧
      gcp.inventory.resources.map (fun r => (some r.type, r.count)) = [(some "gcp_instance", 1)] := by
  have hparsed : cloudsDirectory.bodies.toOption.any (fun bodies =>
      (∀ block ∈ Variable.declaration? bodies "cloud",
        block.declaredType ≠ .number ∧ block.declaredType ≠ .bool) ∧
      (∀ block ∈ bodies.flatMap (Body.blocksOf "resource"),
        block.IsGated "cloud" (cloudText block)) ∧
      cloudTypes [] bodies = [(some "aws_instance", 1), (some "aws_disk", 1)] ∧
      cloudTypes [("cloud", "gcp")] bodies = [(some "gcp_instance", 1)]) = true := by
    decide +kernel
  obtain ⟨bodies, hbodies, hview⟩ := Directory.exists_bodies hparsed
  obtain ⟨htype, hgated, hunset, hgcp⟩ := of_decide_eq_true hview
  obtain ⟨⟨unset, hloaded, hfirst, _⟩, _⟩ :=
    gated_resources_loaded hbodies sorted_nil htype hgated
  obtain ⟨⟨gcp, hloaded', hsecond, _⟩, _⟩ :=
    gated_resources_loaded hbodies (by decide : Sorted [("cloud", "gcp")]) htype hgated
  exact ⟨unset, gcp, hloaded, hloaded', (types_of_forall₂ hfirst).trans hunset,
    (types_of_forall₂ hsecond).trans hgcp⟩

end TemplateCost
