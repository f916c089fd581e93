import TemplateCost.Proofs.Template.Collections
import TemplateCost.Template.Parser.Body

/-! # Attributes and nested blocks of one name

What a body has under a name is given by the last nested block of that kind that has entries; where no
block of that kind has any, it is given by the last attribute of that name that does not fail. So a block
replaces the earlier ones of its kind iff it has entries itself. One without entries leaves what they gave
in place, as if it were not there.
-/
namespace TemplateCost.Template
open Entries
variable {env : Environment}

/-- Something in the block has a value. -/
def Block.HasEntries (env : Environment) (block : Block) : Prop := block.body.values env ≠ []

instance (block : Block) : Decidable (block.HasEntries env) :=
  decidable_of_iff (¬ (block.body.values env).isEmpty = true)
    (not_congr List.isEmpty_iff)

/-- What a body has under a name. -/
inductive Body.Gives (env : Environment) (body : Body) (name : String) : Value → Prop
  | nested {before after : List Block} {block : Block}
      (hblocks : body.blocks = before ++ block :: after) (hkind : block.kind = name)
      (hentries : block.HasEntries env)
      (hlast : ∀ later ∈ after, later.kind = name → ¬ later.HasEntries env) :
      Gives env body name (.map (block.body.values env))
  | own {before after : List (String × Expr)} {e : Expr} {v : Value}
      (hblocks : ∀ block ∈ body.blocks, block.kind = name → ¬ block.HasEntries env)
      (hattributes : body.attributes = before ++ (name, e) :: after) (hv : e.eval env = .ok v)
      (hlast : ∀ later ∈ after, later.1 = name → later.2.Fails env) :
      Gives env body name v

/-! ## Entries of blocks -/

/-- What a block adds to the body around it. -/
def Block.entry? (env : Environment) (block : Block) : Option (String × Value) :=
  if block.HasEntries env then some (block.kind, .map (block.body.values env)) else none

theorem Block.entry?_eq_some_iff {block : Block} {name : String} {v : Value} :
    block.entry? env = some (name, v) ↔
      block.kind = name ∧ block.HasEntries env ∧ .map (block.body.values env) = v := by
  unfold entry?
  split <;> simp_all

theorem Block.entry?_ne_some_iff {block : Block} {name : String} :
    (∀ v, block.entry? env ≠ some (name, v)) ↔ (block.kind = name → ¬ block.HasEntries env) := by
  simp [entry?_eq_some_iff]

theorem Block.entries_eq_filterMap (env : Environment) (blocks : List Block) :
    Block.entries env blocks = blocks.filterMap (Block.entry? env) := by
  induction blocks with
  | nil => rfl
  | cons block rest ih =>
    obtain ⟨kind, labels, body⟩ := block
    by_cases hentries : body.values env = []
    · simp [Block.entries, Block.entry?, Block.HasEntries, Block.body, hentries, ih]
    · simp [Block.entries_cons hentries, Block.entry?, Block.HasEntries, Block.body, Block.kind,
        hentries, ih]

theorem Block.get?_entries_eq_none_iff {blocks : List Block} {name : String} :
    get? name (Block.entries env blocks).reverse = none ↔
      ∀ block ∈ blocks, block.kind = name → ¬ block.HasEntries env := by
  rw [get?_reverse_eq_none, get?_eq_none_iff, Block.entries_eq_filterMap]
  simp only [List.mem_filterMap]
  constructor
  · intro h block hblock hkind hentries
    exact h _ ⟨block, hblock, Block.entry?_eq_some_iff.mpr ⟨hkind, hentries, rfl⟩⟩ rfl
  · rintro h ⟨_, v⟩ ⟨block, hblock, hentry⟩ rfl
    obtain ⟨hkind, hentries, _⟩ := Block.entry?_eq_some_iff.mp hentry
    exact h block hblock hkind hentries

/-- Blocks of other kinds do not count for a name. -/
theorem Block.get?_entries_filter {p : Block → Bool} {name : String} {blocks : List Block}
    (hp : ∀ block ∈ blocks, block.kind = name → p block = true) :
    get? name (Block.entries env (blocks.filter p)).reverse =
      get? name (Block.entries env blocks).reverse := by
  induction blocks with
  | nil => rfl
  | cons block rest ih =>
    have hrest := ih fun other hother => hp other (List.mem_cons_of_mem _ hother)
    simp only [Block.entries_eq_filterMap] at hrest ⊢
    by_cases hkept : p block = true
    · simp only [List.filter_cons_of_pos hkept, List.filterMap_cons]
      cases block.entry? env <;> simp [get?_append, hrest]
    · have hkind : block.kind ≠ name := fun hkind => hkept (hp block List.mem_cons_self hkind)
      rw [List.filter_cons_of_neg hkept, hrest, List.filterMap_cons]
      cases hentry : block.entry? env with
      | none => rfl
      | some entry =>
        have hother : entry.1 ≠ name := by
          rintro rfl
          exact hkind (Block.entry?_eq_some_iff.mp hentry).1
        simp [get?_append, get?_cons, hother, get?_nil]

/-! ## What stands under a name -/

theorem evaluatedEntry_eq_some_iff {entry : String × Expr} {name : String} {v : Value} :
    ((entry.2.value? env).map fun value => (entry.1, value)) = some (name, v) ↔
      entry.1 = name ∧ entry.2.eval env = .ok v := by
  simp only [Option.map_eq_some_iff, Expr.value?_eq_some_iff, Prod.mk.injEq]
  constructor
  · rintro ⟨_, hv, hname, rfl⟩
    exact ⟨hname, hv⟩
  · rintro ⟨hname, hv⟩
    exact ⟨v, hv, hname, rfl⟩

theorem evaluatedEntry_ne_some_iff {entry : String × Expr} {name : String} :
    (∀ v, ((entry.2.value? env).map fun value => (entry.1, value)) ≠ some (name, v)) ↔
      (entry.1 = name → entry.2.Fails env) := by
  simp only [ne_eq, evaluatedEntry_eq_some_iff, not_and, ← Expr.value?_eq_some_iff]
  rw [forall_comm]
  simp [← Expr.value?_eq_none_iff, Option.eq_none_iff_forall_ne_some]

theorem Body.get?_values_eq_some_iff {body : Body} {name : String} {v : Value} :
    (body.values env).get? name = some v ↔ body.Gives env name v := by
  obtain ⟨attributes, blocks⟩ := body
  rw [Body.get?_values, Option.or_eq_some_iff, Block.get?_entries_eq_none_iff, Block.entries_eq_filterMap,
    get?_reverse_filterMap_eq_some_iff, evaluated, get?_reverse_filterMap_eq_some_iff]
  simp only [Block.entry?_eq_some_iff, Block.entry?_ne_some_iff, evaluatedEntry_eq_some_iff,
    evaluatedEntry_ne_some_iff]
  constructor
  · rintro (⟨before, block, after, hblocks, ⟨hkind, hentries, rfl⟩, hlast⟩ |
      ⟨hblocks, before, ⟨_, e⟩, after, hattributes, ⟨rfl, hv⟩, hlast⟩)
    · exact .nested hblocks hkind hentries hlast
    · exact .own hblocks hattributes hv hlast
  · intro h
    cases h with
    | nested hblocks hkind hentries hlast =>
      exact Or.inl ⟨_, _, _, hblocks, ⟨hkind, hentries, rfl⟩, hlast⟩
    | own hblocks hattributes hv hlast =>
      exact Or.inr ⟨hblocks, _, _, _, hattributes, ⟨rfl, hv⟩, hlast⟩

theorem Body.sorted_values (env : Environment) (body : Body) : (body.values env).Sorted := by
  cases body
  rw [Body.values]
  exact sorted_overlay (sorted_ofList _) _

/-- A block without entries is as good as none. -/
theorem Body.values_without {block : Block} (h : ¬ block.HasEntries env)
    (attributes : List (String × Expr)) (before after : List Block) :
    (Body.mk attributes (before ++ block :: after)).values env =
      (Body.mk attributes (before ++ after)).values env := by
  have hnone : block.entry? env = none := if_neg h
  simp [Body.values, Block.entries_eq_filterMap, hnone]

/-! ## Repeated blocks -/

/-- A block with entries hides the earlier ones of its kind. -/
theorem Body.values_congr_earlier {before others after : List Block} {last : Block}
    (h : last.HasEntries env)
    (hothers : others.filter (·.kind ≠ last.kind) = before.filter (·.kind ≠ last.kind))
    (attributes : List (String × Expr)) :
    (Body.mk attributes (others ++ last :: after)).values env =
      (Body.mk attributes (before ++ last :: after)).values env := by
  apply (sorted_values env _).eq_of_get? (sorted_values env _)
  intro name
  simp only [Body.get?_values, Block.entries_append, List.reverse_append, get?_append]
  by_cases hname : last.kind = name
  · have hgiven : get? name (Block.entries env (last :: after)).reverse ≠ none := by
      intro hnone
      exact Block.get?_entries_eq_none_iff.mp hnone last List.mem_cons_self hname h
    obtain ⟨v, hv⟩ := Option.ne_none_iff_exists'.mp hgiven
    simp [hv]
  · have hfilter : ∀ blocks, get? name (Block.entries env blocks).reverse =
        get? name (Block.entries env (blocks.filter (·.kind ≠ last.kind))).reverse := by
      intro blocks
      symm
      apply Block.get?_entries_filter
      intro block _ hkind
      simpa [hkind] using Ne.symm hname
    rw [hfilter others, hothers, ← hfilter before]

/-- A block that holds one flag. -/
def Block.flagged (kind : String) (b : Bool) : Block := .mk kind [] (.mk [("flag", .bool b)] [])

theorem Body.get?_values_flagged {kind : String} {after : List Block}
    (hafter : ∀ later ∈ after, later.kind = kind → ¬ later.HasEntries env)
    (attributes : List (String × Expr)) (before : List Block) (b : Bool) :
    ((Body.mk attributes (before ++ Block.flagged kind b :: after)).values env).get? kind =
      some (.map [("flag", .bool b)]) := by
  have hvalues : (Block.flagged kind b).body.values env = [("flag", .bool b)] := rfl
  have hentries : (Block.flagged kind b).HasEntries env := by simp [Block.HasEntries, hvalues]
  rw [Body.get?_values_eq_some_iff, ← hvalues]
  exact .nested rfl rfl hentries hafter

/-- What the last block of its kind leaves to the earlier ones: nothing iff it has entries itself. Without
entries it is as good as none, and what they gave stays. -/
theorem earlier_blocks_replaced_iff (env : Environment) (attributes : List (String × Expr))
    (before : List Block) {last : Block} {after : List Block}
    (hafter : ∀ block ∈ after, block.kind ≠ last.kind) :
    (last.HasEntries env ↔
      ∀ others : List Block,
        others.filter (·.kind ≠ last.kind) = before.filter (·.kind ≠ last.kind) →
        (Body.mk attributes (others ++ last :: after)).values env =
          (Body.mk attributes (before ++ last :: after)).values env) ∧
    (¬ last.HasEntries env →
      (Body.mk attributes (before ++ last :: after)).values env =
        (Body.mk attributes (before ++ after)).values env) := by
  refine ⟨⟨?_, ?_⟩, fun h => Body.values_without h attributes before after⟩
  · intro h others hothers
    exact Body.values_congr_earlier h hothers attributes
  · intro hsame
    by_contra h
    have hlast : ∀ later ∈ last :: after, later.kind = last.kind → ¬ later.HasEntries env := by
      intro later hlater hkind
      rcases List.mem_cons.mp hlater with rfl | hlater
      · exact h
      · exact absurd hkind (hafter later hlater)
    -- two earlier blocks that differ would both be seen
    have hseen : ∀ b, ((Body.mk attributes (before ++ last :: after)).values env).get? last.kind =
        some (.map [("flag", .bool b)]) := by
      intro b
      have hothers : (before.filter (·.kind ≠ last.kind) ++ [Block.flagged last.kind b]).filter
          (·.kind ≠ last.kind) = before.filter (·.kind ≠ last.kind) := by
        simp [Block.flagged, Block.kind]
      have hflag := Body.get?_values_flagged hlast attributes (before.filter (·.kind ≠ last.kind)) b
      rw [← hsame _ hothers, List.append_assoc]
      exact hflag
    have hequal := (hseen true).symm.trans (hseen false)
    simp at hequal

/-- A disk on this device. -/
def disk (device : String) : Block :=
  .mk "ebs_block_device" [] (.mk [("device_name", .string device)] [])

theorem second_disk_replaces :
    (Body.mk [] [disk "/dev/sdb", disk "/dev/sdc"]).values [] =
      (Body.mk [] [disk "/dev/sdc"]).values [] ∧
    (Body.mk [] [disk "/dev/sdb", .mk "ebs_block_device" [] (.mk [] [])]).values [] =
      (Body.mk [] [disk "/dev/sdb"]).values [] := by
  have hafter : ∀ last, ∀ block ∈ ([] : List Block), block.kind ≠ Block.kind last := by simp
  constructor
  · have hlast := earlier_blocks_replaced_iff [] [] [] (hafter (disk "/dev/sdc"))
    exact hlast.1.mp (List.cons_ne_nil _ _) [disk "/dev/sdb"] rfl
  · have hlast := earlier_blocks_replaced_iff [] [] [disk "/dev/sdb"]
      (hafter (.mk "ebs_block_device" [] (.mk [] [])))
    exact hlast.2 fun hentries => hentries rfl

/-- A disk and after it another one of which nothing is said. -/
def emptiedDisk : String :=
  "ebs_block_device \x7b\n  device_name = \"/dev/sdb\"\n\x7d\nebs_block_device \x7b\n\x7d\n"

/-- The two blocks of a body that holds nothing else. -/
def Body.pair? : Body → Option (Block × Block)
  | .mk [] [first, last] => some (first, last)
  | _ => none

/-- An earlier block counts beside an empty one of its kind, and it would not if it were taken away. -/
theorem emptied_disk_stays :
    ∃ first last, Body.ofText? emptiedDisk = some (.mk [] [first, last]) ∧ first.kind = last.kind ∧
      (Body.mk [] [first, last]).values [] ≠ (Body.mk [] [last]).values [] := by
  have hparsed : ((Body.ofText? emptiedDisk).bind Body.pair?).any (fun pair =>
      pair.1.kind = pair.2.kind ∧
        keys ((Body.mk [] [pair.1, pair.2]).values []) ≠ keys ((Body.mk [] [pair.2]).values [])) =
      true := by
    decide +kernel
  obtain ⟨⟨first, last⟩, hpair, hview⟩ := (Option.any_eq_true _ _).mp hparsed
  obtain ⟨hkind, hkeys⟩ := of_decide_eq_true hview
  obtain ⟨body, hbody, hblocks⟩ := Option.bind_eq_some_iff.mp hpair
  refine ⟨first, last, ?_, hkind, fun hsame => hkeys (congrArg keys hsame)⟩
  unfold Body.pair? at hblocks
  split at hblocks
  · cases hblocks
    exact hbody
  · cases hblocks

end TemplateCost.Template
