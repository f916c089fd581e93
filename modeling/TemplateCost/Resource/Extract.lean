import TemplateCost.Multiplicity
import TemplateCost.Resource.Attributes

/-! # Resources

A `resource` block with a type and a name becomes a resource if its multiplicity is known and
positive. Its region is its own attribute where that is plain text, else the region of its
provider, else empty.
-/
namespace TemplateCost
open Template

structure Resource where
  type : String
  name : String
  count : Int64
  attributes : Entries Value
  provider : String
  region : String
deriving Inhabited

/-- Text that is not empty and holds no unresolved reference. -/
def Value.plainText? : Value → Option String
  | .string text =>
    if text ≠ "" ∧ !Text.contains ['$', '{'] text.toList then some text else none
  | _ => none

/-- The provider of a type is what stands before its first underscore. -/
def providerOf (type : String) : String := String.ofList (type.toList.takeWhile (· ≠ '_'))

namespace Resource

def text? (r : Resource) (name : String) : Option String := r.attributes.get? name >>= Value.string?

end Resource

/-- The region that a `provider` block settles for its provider. -/
def providerRegion? (env : Environment) (block : Block) : Option (String × String) := do
  let provider ← block.labels.head?
  let e ← block.body.attribute? "region"
  let value ← e.value? env
  let region ← value.plainText?
  pure (provider, region)

/-- Regions by provider; the first block that settles one counts. -/
def providerRegions (bodies : List Body) (env : Environment) : Entries String :=
  Entries.ofList ((bodies.flatMap (Body.blocksOf "provider")).filterMap (providerRegion? env)).reverse

def Template.Block.instances? (env : Environment) (block : Block) : Option Int64 :=
  Multiplicity.instances? ((block.body.attribute? "count").map (Expr.eval env))
    ((block.body.attribute? "for_each").map (Expr.eval env))

namespace Resource

def ownRegion? (attributes : Entries Value) : Option String :=
  attributes.get? "region" >>= Value.plainText?

def ofBlock? (env : Environment) (regions : Entries String) (block : Block) : Option Resource :=
  match block.labels with
  | type :: name :: _ => do
    let count ← block.instances? env
    if 0 < count then
      let attributes := block.body.values env
      let provider := providerOf type
      some {
        type, name, count, attributes, provider
        region := ((ownRegion? attributes).or (regions.get? provider)).getD "" }
    else none
  | _ => none

def ofBody (env : Environment) (regions : Entries String) (body : Body) : List Resource :=
  (body.blocksOf "resource").filterMap (ofBlock? env regions)

end Resource

/-- The resources of a template, with the provider of the first one and the first known region. -/
structure Inventory where
  provider : String
  region : String
  resources : List Resource
deriving Inhabited

def Inventory.of (resources : List Resource) : Inventory where
  provider := (resources.head?.map fun r => providerOf r.type).getD ""
  region := ((resources.map Resource.region).find? (· ≠ "")).getD ""
  resources := resources

end TemplateCost
