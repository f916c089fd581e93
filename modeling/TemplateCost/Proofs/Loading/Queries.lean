import TemplateCost.Proofs.Loading.Extraction

/-! # Queries of data

The `data` blocks of a template are gone through in order. A block with a type and a name is asked of the
provider that its type begins with, if there are credentials for it, and what is answered is bound to the
type and the name. Blocks without credentials or without an answer bind nothing and hide nothing: under
each key the last answer counts.
-/
namespace TemplateCost
open Template Entries

/-- The query of a block, with the credentials of its provider. -/
structure Query.IsOf (sources : DataSources) (env : Environment) (block : Block) (query : Query) :
    Prop where
  labels : ∃ name others, block.labels = query.type :: name :: others
  attributes : query.attributes = block.body.values env
  credentials : ∃ provider, IsTypePrefix provider query.type ∧
    sources.credentials provider = some query.credentials

namespace Template.Block

/-- The block has a type and a name, and there are credentials for its provider. -/
def IsAsked (sources : DataSources) (block : Block) : Prop :=
  ∃ type name others provider credentials, block.labels = type :: name :: others ∧
    IsTypePrefix provider type ∧ sources.credentials provider = some credentials

/-- The block binds this key to the answer to its query. -/
inductive Binds (sources : DataSources) (env : Environment) (block : Block) : String → Value → Prop
  | mk {type name : String} {others : List String} {query : Query} {value : Value}
      (hlabels : block.labels = type :: name :: others) (hquery : query.IsOf sources env block)
      (hanswer : sources.answer query = some value) :
      Binds sources env block ("data." ++ type ++ "." ++ name) value

/-- The ways to bind nothing. -/
inductive BindsNothing (sources : DataSources) (env : Environment) (block : Block) : Prop
  | unnamed (h : block.labels.length < 2)
  | uncredited {type name provider : String} {others : List String}
      (hlabels : block.labels = type :: name :: others) (hprovider : IsTypePrefix provider type)
      (h : sources.credentials provider = none)
  | unanswered {query : Query} (hquery : query.IsOf sources env block)
      (h : sources.answer query = none)

end Template.Block

/-- What is bound and what has been asked on the way. -/
structure Resolution where
  bound : Entries Value
  asked : List Query

namespace DataSources
variable (sources : DataSources) (env : Environment)

/-- One block is resolved: its query is asked, and an answer is bound. -/
def step (state : Resolution) (block : Block) : Resolution :=
  match sources.query? env block with
  | none => state
  | some (key, query) =>
    match sources.answer query with
    | none => { state with asked := state.asked ++ [query] }
    | some value => ⟨state.bound.insert key value, state.asked ++ [query]⟩

def resolve (bodies : List Body) : Resolution :=
  (bodies.flatMap (Body.blocksOf "data")).foldl (sources.step env) ⟨[], []⟩

/-- The entry that a block writes. -/
def binding? (block : Block) : Option (String × Value) :=
  (sources.query? env block).bind fun entry => (sources.answer entry.2).map fun value => (entry.1, value)

/-! ## Runs over blocks -/

theorem foldl_step (state : Resolution) (blocks : List Block) :
    blocks.foldl (sources.step env) state =
      ⟨state.bound.overlay (blocks.filterMap (sources.binding? env)),
        state.asked ++ (blocks.filterMap (sources.query? env)).map Prod.snd⟩ := by
  induction blocks generalizing state with
  | nil => simp [overlay]
  | cons block rest ih =>
    rw [List.foldl_cons, ih, step]
    cases hquery : sources.query? env block with
    | none => simp [binding?, hquery]
    | some entry =>
      cases hanswer : sources.answer entry.2 <;> simp [binding?, hquery, hanswer, overlay]

theorem answers_eq_ofList (blocks : List Block) :
    sources.answers (blocks.filterMap (sources.query? env)) =
      ofList (blocks.filterMap (sources.binding? env)) := by
  rw [answers, List.filterMap_filterMap]
  rfl

/-- The run asks the queries and binds the answers to them. -/
theorem resolve_eq (bodies : List Body) :
    sources.resolve env bodies =
      ⟨sources.answers (sources.queries env bodies), (sources.queries env bodies).map Prod.snd⟩ := by
  rw [resolve, foldl_step, queries, answers_eq_ofList]
  rfl

variable {sources env} {block : Block}

/-! ## Single blocks -/

theorem dotted_eq (type name : String) :
    dotted ["data", type, name] = "data." ++ type ++ "." ++ name := by
  rw [← String.toList_inj]
  simp [dotted]

theorem query?_eq_some_iff {key : String} {query : Query} :
    sources.query? env block = some (key, query) ↔ query.IsOf sources env block ∧
      ∃ name others, block.labels = query.type :: name :: others ∧
        key = "data." ++ query.type ++ "." ++ name := by
  rw [query?]
  constructor
  · intro h
    split at h
    · rename_i type name others hlabels
      obtain ⟨credentials, hcredentials, hentry⟩ := Option.map_eq_some_iff.mp h
      cases hentry
      exact ⟨⟨⟨name, others, hlabels⟩, rfl, providerOf type, isTypePrefix_iff.mpr rfl, hcredentials⟩,
        name, others, hlabels, dotted_eq type name⟩
    · cases h
  · rintro ⟨⟨_, hattributes, provider, hprovider, hcredentials⟩, name, others, hlabels, rfl⟩
    rw [isTypePrefix_iff] at hprovider
    subst hprovider
    simp [hlabels, hcredentials, dotted_eq, ← hattributes]

theorem exists_query?_iff {query : Query} :
    (∃ key, sources.query? env block = some (key, query)) ↔ query.IsOf sources env block := by
  simp only [query?_eq_some_iff]
  constructor
  · rintro ⟨_, hquery, _⟩
    exact hquery
  · intro hquery
    obtain ⟨name, others, hlabels⟩ := hquery.labels
    exact ⟨_, hquery, name, others, hlabels, rfl⟩

theorem isSome_query?_iff :
    (sources.query? env block).isSome = true ↔ block.IsAsked sources := by
  rw [Option.isSome_iff_exists, Prod.exists, exists_comm]
  simp only [exists_query?_iff]
  constructor
  · rintro ⟨query, ⟨name, others, hlabels⟩, _, provider, hprovider, hcredentials⟩
    exact ⟨_, name, others, provider, _, hlabels, hprovider, hcredentials⟩
  · rintro ⟨type, name, others, provider, credentials, hlabels, hprovider, hcredentials⟩
    exact ⟨⟨type, block.body.values env, credentials⟩, ⟨name, others, hlabels⟩, rfl, provider,
      hprovider, hcredentials⟩

instance (sources : DataSources) (block : Block) : Decidable (block.IsAsked sources) :=
  decidable_of_iff ((sources.query? [] block).isSome = true) isSome_query?_iff

theorem binding?_eq_some_iff {key : String} {value : Value} :
    sources.binding? env block = some (key, value) ↔ block.Binds sources env key value := by
  constructor
  · intro h
    obtain ⟨⟨_, query⟩, hquery, h⟩ := Option.bind_eq_some_iff.mp h
    obtain ⟨_, hanswer, hentry⟩ := Option.map_eq_some_iff.mp h
    cases hentry
    obtain ⟨hof, name, others, hlabels, rfl⟩ := query?_eq_some_iff.mp hquery
    exact .mk hlabels hof hanswer
  · rintro ⟨hlabels, hquery, hanswer⟩
    obtain ⟨_, _, hown⟩ := hquery.labels
    cases hlabels.symm.trans hown
    rw [binding?, query?_eq_some_iff.mpr ⟨hquery, _, _, hlabels, rfl⟩, Option.bind_some, hanswer]
    rfl

theorem binding?_eq_none_iff :
    sources.binding? env block = none ↔ ∀ key value, ¬ block.Binds sources env key value := by
  rw [Option.eq_none_iff_forall_ne_some, Prod.forall]
  simp only [ne_eq, binding?_eq_some_iff]

/-- A block binds nothing because it is not asked or because it is not answered. -/
theorem bindsNothing_iff :
    block.BindsNothing sources env ↔ ∀ key value, ¬ block.Binds sources env key value := by
  constructor
  · rintro h _ _ ⟨hlabels, hquery, hanswer⟩
    obtain ⟨_, _, hown⟩ := hquery.labels
    cases h with
    | unnamed h => simp [hlabels] at h
    | uncredited hother hprovider hnone =>
      cases hother.symm.trans hown
      obtain ⟨_, _, provider, hsame, hcredentials⟩ := hquery
      rw [isTypePrefix_iff] at hprovider hsame
      cases hprovider.symm.trans hsame
      cases hnone.symm.trans hcredentials
    | unanswered hother hnone =>
      obtain ⟨_, hentry⟩ := exists_query?_iff.mpr hquery
      obtain ⟨_, hsame⟩ := exists_query?_iff.mpr hother
      cases hentry.symm.trans hsame
      cases hnone.symm.trans hanswer
  · intro h
    have hnone := binding?_eq_none_iff.mpr h
    by_cases hasked : block.IsAsked sources
    · obtain ⟨⟨key, query⟩, hentry⟩ := Option.isSome_iff_exists.mp (isSome_query?_iff.mpr hasked)
      rw [binding?, hentry, Option.bind_some, Option.map_eq_none_iff] at hnone
      exact .unanswered (exists_query?_iff.mp ⟨key, hentry⟩) hnone
    · match hlabels : block.labels with
      | [] | [_] => exact .unnamed (by simp [hlabels])
      | type :: name :: others =>
        have hprovider : IsTypePrefix (providerOf type) type := isTypePrefix_iff.mpr rfl
        refine .uncredited hlabels hprovider (Option.eq_none_iff_forall_ne_some.mpr ?_)
        intro credentials hcredentials
        exact hasked ⟨type, name, others, _, credentials, hlabels, hprovider, hcredentials⟩

/-! ## Blocks beside each other -/

theorem forall₂_asked (blocks : List Block) :
    List.Forall₂ (fun block query => query.IsOf sources env block)
      (blocks.filter (Block.IsAsked sources ·))
      ((blocks.filterMap (sources.query? env)).map Prod.snd) := by
  rw [List.forall₂_map_right_iff]
  refine (forall₂_filterMap (fun _ => isSome_query?_iff) blocks).imp ?_
  rintro block ⟨key, query⟩ hentry
  exact exists_query?_iff.mp ⟨key, hentry⟩

/-- Under each key the last block counts that binds it. -/
theorem get?_bound_eq_some_iff {bodies : List Body} {key : String} {value : Value} :
    (sources.resolve env bodies).bound.get? key = some value ↔
      ∃ before block after, bodies.flatMap (Body.blocksOf "data") = before ++ block :: after ∧
        block.Binds sources env key value ∧
        ∀ later ∈ after, ∀ other, ¬ later.Binds sources env key other := by
  rw [resolve, foldl_step, get?_overlay, get?_nil, Option.or_none, get?_reverse_filterMap_eq_some_iff]
  simp only [ne_eq, binding?_eq_some_iff]

/-- What a stretch of blocks adds to the blocks of one kind stands in its place among them. -/
theorem exists_blocksOf_split (kind : String) (earlier later : List Body)
    (attributes : List (String × Expr)) (before after : List Block) :
    ∃ first last, ∀ own : List Block,
      (earlier ++ Body.mk attributes (before ++ own ++ after) :: later).flatMap (Body.blocksOf kind) =
        first ++ own.filter (·.kind = kind) ++ last := by
  refine ⟨earlier.flatMap (Body.blocksOf kind) ++ before.filter (·.kind = kind),
    after.filter (·.kind = kind) ++ later.flatMap (Body.blocksOf kind), ?_⟩
  intro own
  simp [Body.blocksOf, Body.blocks]

/-- The blocks around one that binds nothing are asked and bound as if it were not there. -/
theorem resolve_without (h : block.BindsNothing sources env) (earlier later : List Body)
    (attributes : List (String × Expr)) (before after : List Block) :
    let whole := sources.resolve env (earlier ++ .mk attributes (before ++ block :: after) :: later)
    let rest := sources.resolve env (earlier ++ .mk attributes (before ++ after) :: later)
    rest.bound = whole.bound ∧ ∃ first own last, whole.asked = first ++ own ++ last ∧
      rest.asked = first ++ last ∧
      List.Forall₂ (fun block query => query.IsOf sources env block)
        (([block].filter (·.kind = "data")).filter (Block.IsAsked sources ·)) own := by
  obtain ⟨first, last, hsplit⟩ := exists_blocksOf_split "data" earlier later attributes before after
  have hwhole := hsplit [block]
  have hrest := hsplit []
  rw [List.append_assoc before, List.singleton_append] at hwhole
  rw [List.append_nil, List.filter_nil, List.append_nil] at hrest
  have hnothing : ([block].filter (·.kind = "data")).filterMap (sources.binding? env) = [] := by
    rw [List.filterMap_eq_nil_iff]
    intro other hother
    obtain rfl := List.mem_singleton.mp (List.mem_filter.mp hother).1
    exact binding?_eq_none_iff.mpr (bindsNothing_iff.mp h)
  simp only [resolve, foldl_step, hwhole, hrest, List.filterMap_append, List.map_append, hnothing,
    List.append_nil, List.nil_append]
  exact ⟨trivial, _, _, _, rfl, rfl, forall₂_asked _⟩

end DataSources

/-- Each block with credentials is asked once, in order, and no other; what is bound to a key is the
answer to the last block that is answered under it. So the blocks that bind nothing, for want of
credentials or of an answer, can be left out: nothing changes but their own query. -/
theorem blocks_resolved_alone (sources : DataSources) (env : Environment) (bodies : List Body) :
    let run := sources.resolve env bodies
    run.bound = sources.answers (sources.queries env bodies) ∧
    run.asked = (sources.queries env bodies).map Prod.snd ∧
    List.Forall₂ (fun block query => query.IsOf sources env block)
      ((bodies.flatMap (Body.blocksOf "data")).filter (Block.IsAsked sources ·)) run.asked ∧
    run.bound.Sorted ∧
    (∀ key value, run.bound.get? key = some value ↔
      ∃ before block after, bodies.flatMap (Body.blocksOf "data") = before ++ block :: after ∧
        block.Binds sources env key value ∧
        ∀ later ∈ after, ∀ other, ¬ later.Binds sources env key other) ∧
    ∀ block : Block, (block.BindsNothing sources env ↔
        ∀ key value, ¬ block.Binds sources env key value) ∧
      (block.BindsNothing sources env → ∀ earlier later attributes before after,
        let whole := sources.resolve env
          (earlier ++ .mk attributes (before ++ block :: after) :: later)
        let rest := sources.resolve env (earlier ++ .mk attributes (before ++ after) :: later)
        rest.bound = whole.bound ∧ ∃ first own last, whole.asked = first ++ own ++ last ∧
          rest.asked = first ++ last ∧
          List.Forall₂ (fun block query => query.IsOf sources env block)
            (([block].filter (·.kind = "data")).filter (Block.IsAsked sources ·)) own) := by
  intro run
  have hrun : run = ⟨sources.answers (sources.queries env bodies), _⟩ := sources.resolve_eq env bodies
  refine ⟨congrArg Resolution.bound hrun, congrArg Resolution.asked hrun, ?_, ?_, ?_, ?_⟩
  · rw [hrun]
    exact DataSources.forall₂_asked _
  · rw [hrun]
    exact sorted_ofList _
  · intro key value
    exact DataSources.get?_bound_eq_some_iff
  · intro block
    refine ⟨DataSources.bindsNothing_iff, ?_⟩
    intro h
    exact DataSources.resolve_without h

/-- One provider has credentials, and a query is answered with the name of its zone. -/
def zoneSources : DataSources where
  credentials provider := if provider = "aws" then some ⟨"key", "secret", "us"⟩ else none
  answer query := query.attributes.get? "zone"

def namedZone : Block := .mk "data" ["aws_zone", "main"] (.mk [("zone", .string "a")] [])
def namelessZone : Block := .mk "data" ["aws_zone", "main"] (.mk [] [])
def foreignZone : Block := .mk "data" ["gcp_zone", "main"] (.mk [("zone", .string "b")] [])

theorem nameless_zone_hides_nothing :
    namelessZone.BindsNothing zoneSources [] ∧ foreignZone.BindsNothing zoneSources [] ∧
    let whole := zoneSources.resolve [] [.mk [] [namedZone, namelessZone, foreignZone]]
    let rest := zoneSources.resolve [] [.mk [] [namedZone, foreignZone]]
    rest.bound = whole.bound ∧ whole.bound = [("data.aws_zone.main", .string "a")] ∧
      whole.asked.length = 2 ∧ rest.asked.length = 1 := by
  have hquery : Query.IsOf zoneSources [] namelessZone ⟨"aws_zone", [], "key", "secret", "us"⟩ :=
    ⟨⟨_, _, rfl⟩, rfl, "aws", isTypePrefix_iff.mpr rfl, rfl⟩
  have hnameless : namelessZone.BindsNothing zoneSources [] := .unanswered hquery rfl
  have hforeign : foreignZone.BindsNothing zoneSources [] :=
    .uncredited rfl (isTypePrefix_iff.mpr rfl) rfl
  obtain ⟨_, _, _, _, _, halone⟩ := blocks_resolved_alone zoneSources [] []
  have hwithout := (halone namelessZone).2 hnameless [] [] [] [namedZone] [foreignZone]
  exact ⟨hnameless, hforeign, hwithout.1, rfl, rfl, rfl⟩

end TemplateCost
