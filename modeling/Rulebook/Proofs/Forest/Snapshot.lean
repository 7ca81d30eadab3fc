import Rulebook.Proofs.Forest.Linked
import Rulebook.Proofs.NodeTree
import Rulebook.Proofs.SideBySide

/-!
# What a node shows

A node *shows* a tree if walking down from it far enough yields that tree. How
far does not matter: in a linked forest every node shows exactly one tree, the
one of its snapshot. What a node shows depends on the nodes below it only, so it
outlives every change that leaves these alone.
-/

namespace Rulebook

/-- The nodes look the same, whoever holds them. -/
structure Node.Alike (node other : Node) : Prop where
  variant : other.variant = node.variant
  literal : other.literal = node.literal
  arguments : other.arguments = node.arguments

/-- What the slots hold, looked up by name. -/
theorem Node.mem_slots {node : Node} {S : NodeId → NodeTree → Prop}
    {filled : List (String × NodeTree)} (hn : (node.arguments.map Binding.param).Nodup)
    (hf : List.Forall₂ (fun binding pair => binding.param = pair.1 ∧ S binding.child pair.2)
      node.arguments filled)
    (hu : ∀ {child tree other}, S child tree → S child other → tree = other) {name : String}
    {tree : NodeTree} :
    (name, tree) ∈ NodeTree.slots filled ↔
      ∃ child, node.argument? name = some child ∧ S child tree := by
  have he : node.arguments.map Binding.param = filled.map Prod.fst :=
    SideBySide.map_eq (hf.imp fun _ _ hpair => hpair.1)
  rw [NodeTree.mem_slots (he ▸ hn)]
  constructor
  · intro hm
    obtain ⟨binding, hb, hname, hs⟩ := SideBySide.exists_left hf hm
    have hname' : binding.param = name := hname
    exact ⟨binding.child, hname' ▸ argument?_of_mem hn hb, hs⟩
  · intro h
    obtain ⟨child, ha, hs⟩ := h
    obtain ⟨⟨other, inner⟩, hp, hname, hi⟩ := SideBySide.exists_right hf (mem_of_argument? ha)
    have hname' : name = other := hname
    rw [hname', hu hs hi]
    exact hp

namespace Forest

variable {forest after : Forest} {id : NodeId} {tree : NodeTree} {fuel : Nat}

/-- Walking down from the node far enough yields the tree. -/
def Shows (forest : Forest) (id : NodeId) (tree : NodeTree) : Prop :=
  ∃ fuel, forest.treeWithin fuel id = some tree

theorem mapM_eq_some {α β : Type} {f : α → Option β} {as : List α} :
    ∀ {bs : List β}, as.mapM f = some bs ↔ List.Forall₂ (fun a b => f a = some b) as bs := by
  induction as with
  | nil =>
      intro bs
      rw [List.mapM_nil, List.forall₂_nil_left_iff]
      exact ⟨fun h => (Option.some.inj h).symm, fun h => h ▸ rfl⟩
  | cons a rest ih =>
      intro bs
      rw [List.mapM_cons, List.forall₂_cons_left_iff]
      constructor
      · intro h
        obtain ⟨b, hb, h⟩ := Option.bind_eq_some_iff.mp h
        obtain ⟨others, ho, he⟩ := Option.bind_eq_some_iff.mp h
        exact ⟨b, others, hb, ih.mp ho, (Option.some.inj he).symm⟩
      · intro hx
        obtain ⟨b, others, hb, ho, rfl⟩ := hx
        rw [hb, ih.mpr ho]
        rfl

/-- One level of the walk. -/
theorem treeWithin_succ :
    forest.treeWithin (fuel + 1) id = some tree ↔
      ∃ node filled, forest.get? id = some node ∧
        List.Forall₂ (fun binding pair => binding.param = pair.1 ∧
          forest.treeWithin fuel binding.child = some pair.2) node.arguments filled ∧
        tree = ⟨node.variant, node.literal, NodeTree.slots filled⟩ := by
  have hpair : ∀ (binding : Binding) (pair : String × NodeTree),
      (do return (binding.param, ← forest.treeWithin fuel binding.child)) = some pair ↔
        binding.param = pair.1 ∧ forest.treeWithin fuel binding.child = some pair.2 := by
    intro binding pair
    obtain ⟨param, inner⟩ := pair
    cases forest.treeWithin fuel binding.child <;> simp
  rw [treeWithin]
  constructor
  · intro h
    obtain ⟨node, hn, h⟩ := Option.bind_eq_some_iff.mp h
    obtain ⟨filled, hf, he⟩ := Option.bind_eq_some_iff.mp h
    refine ⟨node, filled, hn, ?_, (Option.some.inj he).symm⟩
    exact (mapM_eq_some.mp hf).imp fun binding pair hb => (hpair binding pair).mp hb
  · intro hx
    obtain ⟨node, filled, hn, hf, rfl⟩ := hx
    rw [hn, Option.bind_eq_bind, Option.bind_some,
      mapM_eq_some.mpr (hf.imp fun binding pair hb => (hpair binding pair).mpr hb)]
    rfl

/-- A walk that came to its end may be given more fuel. -/
theorem treeWithin_mono {more : Nat} (hle : fuel ≤ more)
    (h : forest.treeWithin fuel id = some tree) : forest.treeWithin more id = some tree := by
  induction fuel generalizing id tree more with
  | zero => simp [treeWithin] at h
  | succ fuel ih =>
      obtain ⟨more, rfl⟩ : ∃ k, more = k + 1 := ⟨more - 1, by omega⟩
      obtain ⟨node, filled, hn, hf, rfl⟩ := treeWithin_succ.mp h
      refine treeWithin_succ.mpr ⟨node, filled, hn, ?_, rfl⟩
      exact hf.imp fun _ _ hb => ⟨hb.1, ih (by omega) hb.2⟩

namespace Shows

theorem unique {other : NodeTree} (h : Shows forest id tree) (ho : Shows forest id other) :
    tree = other := by
  obtain ⟨n, hn⟩ := h
  obtain ⟨m, hm⟩ := ho
  -- with the larger of the two bounds both walks come to their end
  have hn' := treeWithin_mono (Nat.le_max_left n m) hn
  have hm' := treeWithin_mono (Nat.le_max_right n m) hm
  rw [hn'] at hm'
  exact Option.some.inj hm'

/-- The bindings show the trees. -/
theorem exists_fuel {bindings : List Binding} {filled : List (String × NodeTree)}
    (h : List.Forall₂ (fun binding pair => binding.param = pair.1 ∧
      Shows forest binding.child pair.2) bindings filled) :
    ∃ fuel, List.Forall₂ (fun binding pair => binding.param = pair.1 ∧
      forest.treeWithin fuel binding.child = some pair.2) bindings filled := by
  induction h with
  | nil => exact ⟨0, .nil⟩
  | cons hb _ ih =>
      obtain ⟨n, hn⟩ := hb.2
      obtain ⟨m, hm⟩ := ih
      refine ⟨max n m, .cons ⟨hb.1, treeWithin_mono (Nat.le_max_left n m) hn⟩ ?_⟩
      exact hm.imp fun _ _ hb => ⟨hb.1, treeWithin_mono (Nat.le_max_right n m) hb.2⟩

/-- **What a node shows is made of what the nodes in its slots show.** -/
theorem iff_slots :
    Shows forest id tree ↔
      ∃ node filled, forest.get? id = some node ∧
        List.Forall₂ (fun binding pair => binding.param = pair.1 ∧
          Shows forest binding.child pair.2) node.arguments filled ∧
        tree = ⟨node.variant, node.literal, NodeTree.slots filled⟩ := by
  constructor
  · intro hx
    obtain ⟨fuel, h⟩ := hx
    cases fuel with
    | zero => simp [treeWithin] at h
    | succ fuel =>
        obtain ⟨node, filled, hn, hf, rfl⟩ := treeWithin_succ.mp h
        exact ⟨node, filled, hn, hf.imp fun _ _ hb => ⟨hb.1, fuel, hb.2⟩, rfl⟩
  · intro hx
    obtain ⟨node, filled, hn, hf, rfl⟩ := hx
    -- the children need fuel each, and the most of it is enough for all
    obtain ⟨fuel, hf⟩ := exists_fuel hf
    exact ⟨fuel + 1, treeWithin_succ.mpr ⟨node, filled, hn, hf, rfl⟩⟩

theorem exists_node (h : Shows forest id tree) : ∃ node, forest.get? id = some node := by
  obtain ⟨node, _, hn, _⟩ := iff_slots.mp h
  exact ⟨node, hn⟩

end Shows

/-- Every node shows a tree. -/
theorem Linked.exists_shows (h : Linked forest) {node : Node} (hn : forest.get? id = some node) :
    ∃ tree, forest.snapshot id = some tree := by
  refine h.descend (motive := fun fuel x => ∃ tree, forest.treeWithin fuel x = some tree) ?_
    (Nat.le_refl _) hn
  intro fuel x node hx ih
  have hall : ∃ filled : List (String × NodeTree), List.Forall₂ (fun binding pair =>
      binding.param = pair.1 ∧ forest.treeWithin fuel binding.child = some pair.2)
      node.arguments filled := by
    refine SideBySide.exists_list fun binding hb => ?_
    obtain ⟨tree, ht⟩ := ih _ (Node.mem_children.mpr ⟨binding, hb, rfl⟩)
    exact ⟨(binding.param, tree), rfl, ht⟩
  obtain ⟨filled, hf⟩ := hall
  exact ⟨_, treeWithin_succ.mpr ⟨node, filled, hx, hf, rfl⟩⟩

/-- **The snapshot of a node is the tree that it shows.** -/
theorem Linked.snapshot_iff (h : Linked forest) :
    forest.snapshot id = some tree ↔ Shows forest id tree := by
  refine ⟨fun hs => ⟨_, hs⟩, fun hs => ?_⟩
  obtain ⟨node, hn⟩ := hs.exists_node
  obtain ⟨other, ho⟩ := h.exists_shows hn
  have hsame : tree = other := hs.unique ⟨_, ho⟩
  rw [ho, hsame]

/-! ## What outlives a change -/

/-- A node shows the same tree in another forest if all nodes below it look the same there. -/
theorem Shows.frame (h : Shows forest id tree)
    (hsame : ∀ x node, forest.Below id x → forest.get? x = some node →
      ∃ other, after.get? x = some other ∧ node.Alike other) : Shows after id tree := by
  obtain ⟨fuel, h⟩ := h
  induction fuel generalizing id tree with
  | zero => simp [treeWithin] at h
  | succ fuel ih =>
      obtain ⟨node, filled, hn, hf, rfl⟩ := treeWithin_succ.mp h
      obtain ⟨other, ho, halike⟩ := hsame id node .refl hn
      refine iff_slots.mpr ⟨other, filled, ho, ?_, by rw [halike.variant, halike.literal]⟩
      rw [halike.arguments]
      have hall : ∀ binding ∈ node.arguments, forest.Holds id binding.child :=
        fun binding hb => ⟨node, hn, Node.mem_children.mpr ⟨binding, hb, rfl⟩⟩
      -- slot by slot, keeping that the node holds what is in each
      clear h hn halike
      generalize node.arguments = bindings at hf hall
      induction hf with
      | nil => exact .nil
      | @cons binding pair rest filled hb _ ihr =>
          refine .cons ⟨hb.1, ih (fun x node hx => hsame x node (.head ?_ hx)) hb.2⟩ ?_
          · exact hall binding List.mem_cons_self
          · exact ihr fun other ho => hall other (List.mem_cons_of_mem _ ho)

/-- Who holds a node does not matter for what it shows. -/
theorem Shows.setOwner (h : Shows forest id tree) (root : NodeId) (owner : Owner) :
    Shows (forest.setOwner root owner) id tree := by
  refine h.frame fun x node _ hx => ?_
  rw [get?_setOwner, hx]
  split
  · exact ⟨_, rfl, ⟨rfl, rfl, rfl⟩⟩
  · exact ⟨_, rfl, ⟨rfl, rfl, rfl⟩⟩

end Forest

end Rulebook
