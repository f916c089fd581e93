import TemplateCost.Config
import TemplateCost.Proofs.Decimal.RoundTrip
import TemplateCost.Proofs.Variable

/-! # Configured variables

The variables of a target stand over those of the settings. A variable is passed on as text and takes
the type that it is declared with from there: what was a number, a truth value or a text in the
configuration is bound as the same number, truth value or text.
-/
namespace TemplateCost
open Decimal Template

/-! ## Through text -/

theorem VarType.coerce_integer (n : Int64) :
    VarType.number.coerce (overrideText (.integer n.toInt)) = .ok (.int n) := by
  have hread : readInt64? (integerText n.toInt).toList = some n := readInt64?_int64Text n
  rw [VarType.coerce, overrideText, Toml.text, hread]
  nofun

theorem VarType.coerce_float {f : Float} (hfinite : f.isFinite = true) :
    VarType.number.coerce (overrideText (.float f)) = .ok (.float f) := by
  obtain ⟨b, hb⟩ := Option.isSome_iff_exists.mp ((Double.isSome_ofFloat? f).trans hfinite)
  have hpositional : Toml.floatLayout.positional = none := rfl
  have hread := Layout.readFloat?_text hpositional rfl hb
  have hnone := Layout.readInt64?_text hpositional rfl hb
  rw [VarType.coerce, overrideText, Toml.text, hnone, hread]
  nofun

theorem VarType.coerce_bool (b : Bool) : VarType.bool.coerce (overrideText (.bool b)) = .ok (.bool b) := by
  cases b <;> rfl

/-! ## Through the layers -/

/-- The value of a variable in a configuration: that of the target, or else that of the settings. -/
def Target.configured? (target : Target) (settings : Settings) (name : String) : Option Toml :=
  ((Entries.ofList target.vars).get? name).or ((Entries.ofList settings.vars).get? name)

theorem Target.get?_overrides (target : Target) (settings : Settings) (name : String) :
    (target.overrides settings).get? name = (target.configured? settings name).map overrideText := by
  rw [Target.overrides, Entries.get?_mapValues, Entries.get?_overlay, Target.configured?,
    Entries.get?_ofList name target.vars]

theorem Target.sorted_overrides (target : Target) (settings : Settings) :
    (target.overrides settings).Sorted :=
  (Entries.sorted_overlay (Entries.sorted_ofList _) _).mapValues overrideText

theorem Target.get?_environment {target : Target} {settings : Settings} {name : String} {value : Toml}
    (h : target.configured? settings name = some value) (bodies : List Body)
    (assigned : Option (Entries Value)) :
    (Variable.environment (Variable.declared bodies) assigned (target.overrides settings)).get? name =
      some (((Variable.declaration? bodies name).bind fun block =>
        (block.declaredType.coerce (overrideText value)).toOption).getD (.string (overrideText value))) := by
  rw [Variable.get?_environment _ _ (target.sorted_overrides settings), target.get?_overrides, h,
    Option.map_some, Option.map_some, Option.some_or, Variable.overrideValue_declared]

/-- A configured integer, finite double, truth value or text is bound as what it is under the type that it
is declared with. -/
theorem Config.environment_configured (config : Config) (target : Target) (bodies : List Body)
    (assigned : Option (Entries Value)) {name : String} {value : Toml}
    (h : target.configured? config.settings name = some value) :
    let env := Variable.environment (Variable.declared bodies) assigned (target.overrides config.settings)
    let type? := (Variable.declaration? bodies name).map Block.declaredType
    (∀ n : Int64, value = .integer n.toInt → type? = some .number → env.get? name = some (.int n)) ∧
    (∀ f : Float, value = .float f → f.isFinite = true → type? = some .number →
      env.get? name = some (.float f)) ∧
    (∀ b, value = .bool b → type? = some .bool → env.get? name = some (.bool b)) ∧
    (∀ text, value = .string text → type? = none ∨ type? = some .string →
      env.get? name = some (.string text)) := by
  intro env type?
  have hbound := target.get?_environment h bodies assigned
  have hdeclared : ∀ {type v}, type? = some type → type.coerce (overrideText value) = .ok v →
      env.get? name = some v := by
    intro type v htype hcoerce
    obtain ⟨block, hblock, rfl⟩ := Option.map_eq_some_iff.mp htype
    rw [hbound, hblock, Option.bind_some, hcoerce]
    rfl
  refine ⟨?_, ?_, ?_, ?_⟩
  · rintro n rfl htype
    exact hdeclared htype (VarType.coerce_integer n)
  · rintro f rfl hfinite htype
    exact hdeclared htype (VarType.coerce_float hfinite)
  · rintro b rfl htype
    exact hdeclared htype (VarType.coerce_bool b)
  · rintro text rfl (hnone | hstring)
    · rw [hbound, Option.map_eq_none_iff.mp hnone]
      rfl
    · exact hdeclared hstring rfl

/-- A target that replaces the number of nodes, by the least integer. -/
def nodesTarget : Target where
  name := "web"
  template := none
  format := "text"
  output := none
  currency := none
  vars := [("nodes", .integer (-0x8000000000000000)), ("share", .float (-0.1))]
  priceBook := none

def nodesConfig : Config where
  settings := ⟨none, none, none,
    [("name", .string "a \x22b\x22"), ("nodes", .integer 3), ("spot", .bool true)]⟩
  targets := [nodesTarget]
  rates := []

def nodesBodies : List Body :=
  [.mk [] [.mk "variable" ["nodes"] (.mk [("type", .variable "number")] []),
    .mk "variable" ["share"] (.mk [("type", .string "number")] []),
    .mk "variable" ["spot"] (.mk [("type", .variable "bool")] [])]]

theorem nodes_configured :
    let env := Variable.environment (Variable.declared nodesBodies) none
      (nodesTarget.overrides nodesConfig.settings)
    env.get? "nodes" = some (.int Int64.minValue) ∧ env.get? "share" = some (.float (-0.1)) ∧
      env.get? "spot" = some (.bool true) ∧ env.get? "name" = some (.string "a \x22b\x22") := by
  have hnodes : nodesTarget.configured? nodesConfig.settings "nodes" =
      some (.integer Int64.minValue.toInt) := rfl
  have hshare : nodesTarget.configured? nodesConfig.settings "share" = some (.float (-0.1)) := rfl
  have hspot : nodesTarget.configured? nodesConfig.settings "spot" = some (.bool true) := rfl
  have hname : nodesTarget.configured? nodesConfig.settings "name" = some (.string "a \x22b\x22") := rfl
  refine ⟨?_, ?_, ?_, ?_⟩
  · exact (nodesConfig.environment_configured nodesTarget nodesBodies none hnodes).1 _ rfl rfl
  · exact (nodesConfig.environment_configured nodesTarget nodesBodies none hshare).2.1 _ rfl
      (by decide) rfl
  · exact (nodesConfig.environment_configured nodesTarget nodesBodies none hspot).2.2.1 _ rfl rfl
  · exact (nodesConfig.environment_configured nodesTarget nodesBodies none hname).2.2.2 _ rfl (Or.inl rfl)

end TemplateCost
