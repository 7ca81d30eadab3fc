import Rulebook.Proofs.Forest.Snapshot
import Rulebook.Proofs.Interchange.Reading

/-!
# Lines that spell a tree

Reading the lines of a whole tree adds the tree at one place and touches nothing
else: nodes that were there stay as they are, except that the holder of the new
root has one slot more filled. `Grafted` says so for a tree, `Filled` for several
slots of one node, read one after the other.

Lines *spell* a tree at a path if reading them grafts the tree wherever the path
is open. Lines that spell a node and lines that spell what is in its slots, put
together, spell the node with its slots.
-/

namespace Rulebook

open Reading (Reads)

/-- The number of the next node. -/
def Progress.nextNode (progress : Progress) : NodeId := ⟨progress.forest.nextId⟩

/-- A tree was read at a path: its root has the number that was next, and nothing else has changed
but the slot that now holds it. -/
structure Grafted (progress : Progress) (path : Path) (tree : NodeTree) (after : Progress) : Prop
    where
  linked : Forest.Linked after.forest
  idle : after.pending = none
  shows : after.forest.Shows progress.nextNode tree
  detached : path = [] → ∃ node, after.forest.get? progress.nextNode = some node ∧
    node.owner = .detached
  /-- Nodes that the path does not lead to stay as they are. -/
  old : ∀ x node, progress.forest.get? x = some node →
    (∀ above param, path.split? = some (above, param) → progress.placed.find? above ≠ some x) →
    after.forest.get? x = some node
  /-- The holder has the new root in the slot that the path leads to. -/
  holder : ∀ above param parent node, path.split? = some (above, param) →
    progress.placed.find? above = some parent → progress.forest.get? parent = some node →
    after.forest.get? parent = some (node.fill param progress.nextNode)
  /-- Places elsewhere are what they were. -/
  places : ∀ other, ¬ path <+: other → after.placed.find? other = progress.placed.find? other
  root : after.root = if path.isEmpty then some progress.nextNode else progress.root

/-- The node at the path has slots of the given names left to fill. -/
structure Filling (progress : Progress) (path : Path) (id : NodeId) (node : Node)
    (names : List String) : Prop where
  linked : Forest.Linked progress.forest
  idle : progress.pending = none
  here : progress.placed.find? path = some id
  found : progress.forest.get? id = some node
  vacant : ∀ name ∈ names, ∀ other, path ++ [name] <+: other → progress.placed.find? other = none
  free : ∀ name ∈ names, node.argument? name = none

/-- The slots were filled with trees, and nothing else has changed. -/
structure Filled (progress : Progress) (path : Path) (id : NodeId) (node : Node)
    (trees : List (String × NodeTree)) (after : Progress) : Prop where
  linked : Forest.Linked after.forest
  idle : after.pending = none
  slots : ∃ added, after.forest.get? id = some { node with arguments := node.arguments ++ added } ∧
    List.Forall₂ (fun binding pair => binding.param = pair.1 ∧
      after.forest.Shows binding.child pair.2) added trees
  old : ∀ x other, x ≠ id → progress.forest.get? x = some other → after.forest.get? x = some other
  places : ∀ other, (∀ pair ∈ trees, ¬ path ++ [pair.1] <+: other) →
    after.placed.find? other = progress.placed.find? other
  root : after.root = progress.root

/-- Reading the lines grafts the tree wherever the path is open for its type. -/
def Reading.Spells {σ : Type} [Services σ] (scene : ReadingScene σ) (path : Path)
    (result : ValueType) (lines : List (List Char)) (tree : NodeTree) : Prop :=
  ∀ progress, Open scene.registry progress path result →
    ∃ after, Reads scene progress lines after ∧ Grafted progress path tree after

/-! ## One node -/

section Node

variable {registry : Registry} {progress after mid : Progress} {path : Path} {id : NodeId}
  {node : Node} {variant : Variant} {literal : Option Literal}

theorem grownForest_root (hs : path.split? = none) :
    progress.grownForest path variant literal = progress.forest.plant variant literal := by
  unfold Progress.grownForest
  rw [hs]

theorem grownForest_slot {above : Path} {param : String} {parent : NodeId}
    (hs : path.split? = some (above, param)) (hf : progress.placed.find? above = some parent) :
    progress.grownForest path variant literal =
      (progress.forest.plant variant literal).fillSlot parent param progress.nextNode := by
  unfold Progress.grownForest
  rw [hs]
  dsimp only
  rw [hf]
  rfl

theorem ne_nextNode (h : Forest.Linked progress.forest) {x : NodeId}
    (hx : progress.forest.get? x = some node) : x ≠ progress.nextNode := by
  rintro rfl
  rw [Progress.nextNode, h.get?_next] at hx
  exact absurd hx (by simp)

theorem get?_planted (h : Forest.Linked progress.forest) :
    (progress.forest.plant variant literal).get? progress.nextNode
      = some (progress.forest.planted variant literal) :=
  (Forest.get?_plant_iff h).mpr (Or.inl ⟨rfl, rfl⟩)

/-- The new node. -/
theorem exists_grown (ho : Open registry progress path variant.result) :
    ∃ node, (progress.grownForest path variant literal).get? progress.nextNode = some node ∧
      node.variant = variant.id ∧ node.literal = literal ∧ node.arguments = [] ∧
      (path = [] → node.owner = .detached) := by
  have hnew : (progress.forest.plant variant literal).get? progress.nextNode
      = some (progress.forest.planted variant literal) := get?_planted ho.linked
  cases hs : path.split? with
  | none =>
      rw [grownForest_root hs]
      exact ⟨_, hnew, rfl, rfl, rfl, fun _ => rfl⟩
  | some place =>
      obtain ⟨above, param⟩ := place
      obtain ⟨parent, holder, _, _, hf, hp, _⟩ := ho.slot above param hs
      have hne := ne_nextNode ho.linked hp
      rw [grownForest_slot hs hf]
      refine ⟨_, (Forest.get?_fillSlot_iff hne).mpr ⟨_, hnew, rfl⟩, ?_⟩
      rw [if_neg hne.symm, if_pos rfl]
      -- a node that was put into a slot has a path that is not empty
      refine ⟨rfl, rfl, rfl, fun hnil => ?_⟩
      rw [hnil] at hs
      exact absurd hs (by simp [Path.split?_nil])

/-- The nodes that were there, other than the holder. -/
theorem grown_old (ho : Open registry progress path variant.result) {x : NodeId}
    (hx : progress.forest.get? x = some node)
    (hapart : ∀ above param, path.split? = some (above, param) →
      progress.placed.find? above ≠ some x) :
    (progress.grownForest path variant literal).get? x = some node := by
  have hold : (progress.forest.plant variant literal).get? x = some node :=
    Forest.get?_plant_old ho.linked hx
  cases hs : path.split? with
  | none =>
      rw [grownForest_root hs]
      exact hold
  | some place =>
      obtain ⟨above, param⟩ := place
      obtain ⟨parent, holder, _, _, hf, hp, _⟩ := ho.slot above param hs
      have hne := ne_nextNode ho.linked hp
      have hx' := ne_nextNode ho.linked hx
      -- the holder is the only old node that changes
      have hxp : x ≠ parent := by
        rintro rfl
        exact hapart above param hs hf
      rw [grownForest_slot hs hf]
      exact (Forest.get?_fillSlot_iff hne).mpr ⟨node, hold, by rw [if_neg hxp, if_neg hx']⟩

/-- The holder. -/
theorem grown_holder (ho : Open registry progress path variant.result) {above : Path}
    {param : String} {parent : NodeId} (hs : path.split? = some (above, param))
    (hf : progress.placed.find? above = some parent)
    (hp : progress.forest.get? parent = some node) :
    (progress.grownForest path variant literal).get? parent
      = some (node.fill param progress.nextNode) := by
  have hold : (progress.forest.plant variant literal).get? parent = some node :=
    Forest.get?_plant_old ho.linked hp
  rw [grownForest_slot hs hf]
  exact (Forest.get?_fillSlot_iff (ne_nextNode ho.linked hp)).mpr ⟨node, hold, if_pos rfl⟩

theorem linked_grown (ho : Open registry progress path variant.result) :
    Forest.Linked (progress.grownForest path variant literal) := by
  have hplant := Forest.linked_plant ho.linked variant literal
  cases hs : path.split? with
  | none =>
      rw [grownForest_root hs]
      exact hplant
  | some place =>
      obtain ⟨above, param⟩ := place
      obtain ⟨parent, holder, hvariant, slot, hf, hp, hvar, hslot, ht, ha⟩ := ho.slot above param hs
      have hset : Forest.Changes registry (progress.forest.plant variant literal)
          ((Forest.setArgument registry parent param progress.nextNode).runOn
            (progress.forest.plant variant literal)).2 := Forest.setArgument_changes hplant
      rw [Progress.nextNode, Reading.setArgument_planted ho.linked hp hvar hslot ht ha] at hset
      rw [grownForest_slot hs hf]
      exact hset.linked hplant

/-- A node that was just put at the path has all its slots to fill. -/
theorem filling_grown (ho : Open registry progress path variant.result) (names : List String)
    (hn : (progress.grownForest path variant literal).get? progress.nextNode = some node)
    (ha : node.arguments = []) :
    Filling (progress.grow path variant literal) path progress.nextNode node names := by
  refine ⟨linked_grown ho, rfl, ?_, hn, fun name _ other hother => ?_, fun name _ => ?_⟩
  · exact (Places.find?_put ..).trans (if_pos rfl)
  · -- everything below the path was vacant, and only the path itself was taken
    have hpre : path <+: other := (List.prefix_append path [name]).trans hother
    have hne : other ≠ path := by
      rintro rfl
      have hlen := hother.length_le
      simp at hlen
    exact (Places.find?_put ..).trans ((if_neg hne).trans (ho.vacant other hpre))
  · rw [Node.argument?, ha]
    rfl

/-- The node with its slots filled. -/
theorem grafted_of_filled (ho : Open registry progress path variant.result)
    {trees : List (String × NodeTree)}
    (hvar : node.variant = variant.id) (hlit : node.literal = literal) (ha : node.arguments = [])
    (hdet : path = [] → node.owner = .detached)
    (hf : Filled (progress.grow path variant literal) path progress.nextNode node trees after) :
    Grafted progress path ⟨variant.id, literal, NodeTree.slots trees⟩ after := by
  obtain ⟨added, hafter, hslots⟩ := hf.slots
  refine ⟨hf.linked, hf.idle, ?_, fun hnil => ⟨_, hafter, hdet hnil⟩, ?_, ?_, ?_, hf.root⟩
  · refine Forest.Shows.iff_slots.mpr ⟨_, trees, hafter, ?_, ?_⟩
    · rw [ha]
      exact hslots
    · rw [hvar, hlit]
  · intro x other hx hapart
    exact hf.old x other (ne_nextNode ho.linked hx) (grown_old ho hx hapart)
  · intro above param parent other hs hfind hp
    exact hf.old parent _ (ne_nextNode ho.linked hp) (grown_holder ho hs hfind hp)
  · intro other hother
    have hne : other ≠ path := fun he => hother (he ▸ List.prefix_rfl)
    rw [hf.places other fun pair _ hpre => hother ((List.prefix_append path [pair.1]).trans hpre)]
    exact (Places.find?_put ..).trans (if_neg hne)

end Node

/-! ## The slots of a node -/

variable {registry : Registry} {progress mid after : Progress} {path : Path} {id : NodeId}
  {node : Node} {variant : Variant} {name : String} {names : List String} {tree : NodeTree}
  {trees : List (String × NodeTree)}

theorem Path.not_prefix_of_ne {other : String} (hne : name ≠ other) {long : Path}
    (h : path ++ [name] <+: long) : ¬ path ++ [other] <+: long := by
  intro ho
  obtain ⟨rest, rfl⟩ := h
  obtain ⟨others, he⟩ := ho
  simp at he
  exact hne he.1.symm

theorem Path.not_prefix_self : ¬ path ++ [name] <+: path := by
  intro h
  have hlen := h.length_le
  simp at hlen

/-- An empty slot is open for what the variant says. -/
theorem Filling.isOpen (h : Filling progress path id node names) {param : Param}
    (hv : registry.get? node.variant = some variant) (hm : name ∈ names)
    (hp : variant.param? name = some param) :
    Open registry progress (path ++ [name]) param.type := by
  refine ⟨h.linked, h.idle, h.vacant name hm, ?_⟩
  intro above slot hs
  rw [Path.split?_concat] at hs
  cases hs
  exact ⟨id, node, variant, param, h.here, h.found, hv, hp, rfl, h.free name hm⟩

/-- One slot less to fill. -/
theorem Filling.step (h : Filling progress path id node (name :: names)) (hn : name ∉ names)
    (hg : Grafted progress (path ++ [name]) tree mid) :
    Filling mid path id (node.fill name progress.nextNode) names := by
  have hsplit := Path.split?_concat path name
  refine ⟨hg.linked, hg.idle, ?_, hg.holder _ _ _ _ hsplit h.here h.found, ?_, ?_⟩
  · rw [hg.places path Path.not_prefix_self]
    exact h.here
  · intro other hm long hpre
    have hne : other ≠ name := fun he => hn (he ▸ hm)
    rw [hg.places long (Path.not_prefix_of_ne hne hpre)]
    exact h.vacant other (List.mem_cons_of_mem _ hm) long hpre
  · intro other hm
    have hne : other ≠ name := fun he => hn (he ▸ hm)
    have hfree := Node.argument?_eq_none.mp (h.free other (List.mem_cons_of_mem _ hm))
    rw [Node.argument?_eq_none]
    simp only [Node.fill, List.map_append, List.map_cons, List.map_nil, List.mem_append,
      List.mem_singleton, not_or]
    exact ⟨hfree, hne⟩

theorem Filled.nil (h : Filling progress path id node []) :
    Filled progress path id node [] progress := by
  refine ⟨h.linked, h.idle, ⟨[], ?_, .nil⟩, fun _ _ _ hx => hx, fun _ _ => rfl, rfl⟩
  rw [List.append_nil]
  exact h.found

/-- What was put into a slot stays there while the others are filled. -/
theorem Filled.cons (h : Filling progress path id node (name :: names))
    (hg : Grafted progress (path ++ [name]) tree mid)
    (hf : Filled mid path id (node.fill name progress.nextNode) trees after) :
    Filled progress path id node ((name, tree) :: trees) after := by
  have hsplit := Path.split?_concat path name
  have hholder := hg.holder _ _ _ _ hsplit h.here h.found
  obtain ⟨added, hafter, hslots⟩ := hf.slots
  refine ⟨hf.linked, hf.idle, ⟨⟨name, progress.nextNode⟩ :: added, ?_, .cons ⟨rfl, ?_⟩ hslots⟩,
    ?_, ?_, ?_⟩
  · rw [hafter, Node.fill, List.append_assoc]
    rfl
  · -- the holder is not below what it holds, and nothing else changes
    refine hg.shows.frame fun x other hb hx => ⟨other, hf.old x other ?_ hx, ⟨rfl, rfl, rfl⟩⟩
    rintro rfl
    have hholds : mid.forest.Holds x progress.nextNode := ⟨_, hholder, by simp⟩
    exact hg.linked.not_below_of_holds hholds hb
  · intro x other hne hx
    refine hf.old x other hne (hg.old x other hx fun above param hs hfind => ?_)
    rw [hsplit] at hs
    cases hs
    rw [h.here] at hfind
    cases hfind
    exact hne rfl
  · intro other hall
    rw [hf.places other fun pair hp => hall pair (List.mem_cons_of_mem _ hp)]
    exact hg.places other (hall (name, tree) List.mem_cons_self)
  · rw [hf.root, hg.root, if_neg (by simp)]

namespace Reading

variable {σ : Type} [Services σ] {scene : ReadingScene σ} {blocks : List (List (List Char))}
  {literal : Option Literal}

/-- Lines that spell what is in the slots fill these one by one. -/
theorem exists_filled (hv : scene.registry.get? node.variant = some variant)
    (hs : List.Forall₂ (fun pair lines => ∃ param, variant.param? pair.1 = some param ∧
      Spells scene (path ++ [pair.1]) param.type lines pair.2) trees blocks)
    (hn : (trees.map Prod.fst).Nodup) (h : Filling progress path id node (trees.map Prod.fst)) :
    ∃ after, Reads scene progress blocks.flatten after ∧
      Filled progress path id node trees after := by
  induction hs generalizing progress node with
  | nil => exact ⟨progress, .nil, .nil h⟩
  | @cons pair lines rest blocks hpair _ ih =>
      obtain ⟨param, hp, hspells⟩ := hpair
      obtain ⟨hnew, hrest⟩ := List.nodup_cons.mp hn
      obtain ⟨mid, hread, hg⟩ := hspells progress (h.isOpen hv List.mem_cons_self hp)
      have hfill : scene.registry.get? (node.fill pair.1 progress.nextNode).variant
          = some variant := hv
      obtain ⟨after, hreads, hf⟩ := ih hfill hrest (h.step hnew hg)
      exact ⟨after, hread.append hreads, .cons h hg hf⟩

/-- **A node and its slots are spelled one after the other.** -/
theorem Spells.of_slots {name : VariantId} {own : List Entry}
    (hv : scene.registry.get? name = some variant) (hsound : variant.Sound) (hpath : path.Named)
    (hl : variant.literal = literal.map (·.type))
    (hown : (literal = none ∧ own = [⟨path, .definition, name.toList⟩]) ∨
      ∃ value payload, literal = some value ∧
        own = [⟨path, .definition, name.toList⟩, ⟨path, .value, payload⟩] ∧
        LiteralText.read scene.scenario scene.services value.type payload = .ok value)
    (hs : List.Forall₂ (fun pair lines => ∃ param, variant.param? pair.1 = some param ∧
      Spells scene (path ++ [pair.1]) param.type lines pair.2) trees blocks)
    (hn : (trees.map Prod.fst).Nodup) :
    Spells scene path variant.result (own.map Entry.chars ++ blocks.flatten)
      ⟨name, literal, NodeTree.slots trees⟩ := by
  intro progress ho
  have hid := Registry.id_of_get? hv
  have hread := Reads.entries ho hv hsound hpath hl hown
  obtain ⟨new, hnew, hvar, hlit, ha, hdet⟩ : ∃ new,
      (progress.grownForest path variant literal).get? progress.nextNode = some new ∧
        new.variant = variant.id ∧ new.literal = literal ∧ new.arguments = [] ∧
        (path = [] → new.owner = .detached) := exists_grown ho
  have hfilling := filling_grown ho (trees.map Prod.fst) hnew ha
  rw [← hid] at hv
  obtain ⟨after, hreads, hf⟩ := exists_filled (hvar ▸ hv) hs hn hfilling
  rw [← hid]
  exact ⟨after, hread.append hreads, grafted_of_filled ho hvar hlit ha hdet hf⟩

end Reading

end Rulebook
