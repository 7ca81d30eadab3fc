import Mathlib.Algebra.GroupWithZero.Nat
import Rulebook.Proofs.Forest.Locality

/-!
# Walks down a forest

What lies below a node is walked through in three ways. One puts the slots of a
node on a stack and lists what it comes by. One makes a tree of it, slot by
slot. One takes the nodes away, with a stack of its own and in another order.
Neither stack is bounded, and nothing is marked as seen.

On a linked forest the first and the second come by the same nodes, each once:
two slots have nothing in common below them, and no way down leads back. The
third ends on any forest, since it never finds a node again that it has taken
away, and what is left depends on where it started only.
-/

namespace Rulebook

namespace NodeTree

theorem sizes_eq_sum (filled : List (String × NodeTree)) :
    sizes filled = (filled.map fun pair => pair.2.size).sum := by
  induction filled with
  | nil => rfl
  | cons pair rest ih => rw [sizes, ih, List.map_cons, List.sum_cons]

/-- Slots of different names hold as many nodes as the trees that they are filled with. -/
theorem sizes_slots {filled : List (String × NodeTree)} (hn : (filled.map Prod.fst).Nodup) :
    sizes (slots filled) = (filled.map fun pair => pair.2.size).sum := by
  have hnames : ((slots filled).map Prod.fst).Nodup :=
    (slots_ordered filled).imp fun hlt => ne_of_lt hlt
  have hperm : (slots filled).Perm filled :=
    (List.perm_ext_iff_of_nodup (hnames.of_map _) (hn.of_map _)).mpr fun _ => mem_slots hn
  rw [sizes_eq_sum]
  exact (hperm.map _).sum_nat

end NodeTree

/-- A node whose children are all different loses one slot when it lets go of a child. -/
theorem Node.exists_release {node : Node} {child : NodeId} (hn : node.children.Nodup)
    (hc : child ∈ node.children) :
    ∃ before slot rest, node.arguments = before ++ slot :: rest ∧ slot.child = child ∧
      (∀ other ∈ before ++ rest, other.child ≠ child) ∧
      node.release child = { node with arguments := before ++ rest } := by
  obtain ⟨slot, hs, hslot⟩ := mem_children.mp hc
  obtain ⟨before, rest, hsplit⟩ := List.append_of_mem hs
  -- no child is in two slots, so the other slots stay
  have hothers : ∀ other ∈ before ++ rest, other.child ≠ child := by
    rw [children, hsplit, List.map_append, List.map_cons, List.nodup_middle,
      ← List.map_append, hslot] at hn
    exact fun other ho he => (List.nodup_cons.mp hn).1 (he ▸ List.mem_map_of_mem ho)
  refine ⟨before, slot, rest, hsplit, hslot, hothers, ?_⟩
  have hkept : (before ++ rest).filter (fun binding => binding.child != child) = before ++ rest :=
    List.filter_eq_self.mpr fun other ho => bne_iff_ne.mpr (hothers other ho)
  rw [release, hsplit, List.filter_append, List.filter_cons_of_neg (by simp [hslot]),
    ← List.filter_append, hkept]

namespace Forest

open Attempt

variable {forest after : Forest} {id x : NodeId} {node : Node}

/-! ## Listing what is below a node -/

/-- What holds of a node whenever it holds of all that is in its slots holds of every node. -/
theorem Linked.downward (h : Linked forest) {motive : NodeId → Prop}
    (hstep : ∀ x node, forest.get? x = some node → (∀ c ∈ node.children, motive c) → motive x)
    (hid : forest.get? id = some node) : motive id :=
  h.descend (motive := fun _ x => motive x) (fun _ => hstep) (Nat.le_refl _) hid

theorem preorder_absent (hid : forest.get? id = none) (fuel : Nat) :
    forest.preorder fuel id = [] := by
  cases fuel with
  | zero => rfl
  | succ fuel => rw [preorder, hid]

theorem subtree_absent (hid : forest.get? id = none) : forest.subtree id = [] :=
  preorder_absent hid _

/-- To go down more levels than there are nodes makes no difference. -/
theorem Linked.preorder_eq_subtree (h : Linked forest) {fuel : Nat} (hle : forest.size ≤ fuel) :
    forest.preorder fuel id = forest.subtree id := by
  cases hid : forest.get? id with
  | none => rw [preorder_absent hid, subtree_absent hid]
  | some node =>
      refine h.descend (motive := fun fuel x => ∀ more, fuel ≤ more →
        forest.preorder more x = forest.preorder fuel x) ?_ (Nat.le_refl _) hid fuel hle
      intro fuel x node hx ih more hmore
      obtain ⟨more, rfl⟩ : ∃ k, more = k + 1 := ⟨more - 1, by omega⟩
      have hslots : node.children.flatMap (forest.preorder more)
          = node.children.flatMap (forest.preorder fuel) :=
        List.flatMap_congr fun c hc => ih c hc more (by omega)
      rw [preorder, preorder, hx]
      exact congrArg _ hslots

/-- **A node comes first, then what is below its slots**, in the order in which they were
filled. -/
theorem Linked.subtree_cons (h : Linked forest) (hid : forest.get? id = some node) :
    forest.subtree id = id :: node.children.flatMap forest.subtree := by
  rw [← h.preorder_eq_subtree (Nat.le_succ forest.size), preorder, hid]
  rfl

theorem Linked.mem_subtree (h : Linked forest) :
    x ∈ forest.subtree id ↔ (∃ node, forest.get? id = some node) ∧ forest.Below id x := by
  cases hid : forest.get? id with
  | none => simp [subtree_absent hid]
  | some node =>
      refine (h.downward (motive := fun id => x ∈ forest.subtree id ↔ forest.Below id x) ?_
        hid).trans (by simp)
      intro id node hid ih
      rw [h.subtree_cons hid, List.mem_cons, List.mem_flatMap, Below,
        Relation.ReflTransGen.cases_head_iff]
      refine or_congr eq_comm (exists_congr fun c => ?_)
      constructor
      · intro hw
        obtain ⟨hc, hx⟩ := hw
        exact ⟨⟨node, hid, hc⟩, (ih c hc).mp hx⟩
      · intro hw
        obtain ⟨⟨found, hf, hc⟩, hx⟩ := hw
        cases hid.symm.trans hf
        exact ⟨hc, (ih c hc).mpr hx⟩

/-- What is listed exists. -/
theorem Linked.exists_of_mem_subtree (h : Linked forest) (hx : x ∈ forest.subtree id) :
    ∃ node, forest.get? x = some node := by
  obtain ⟨hid, hb⟩ := h.mem_subtree.mp hx
  rcases Relation.ReflTransGen.cases_tail hb with rfl | ⟨parent, _, hp⟩
  · exact hid
  · exact h.exists_of_holds hp

/-- What lies above a node is a node. -/
theorem exists_of_below (hb : forest.Below id x) (hx : forest.get? x = some node) :
    ∃ top, forest.get? id = some top := by
  rcases Relation.ReflTransGen.cases_head hb with rfl | ⟨c, ⟨top, ht, _⟩, _⟩
  · exact ⟨node, hx⟩
  · exact ⟨top, ht⟩

/-- **Nothing is listed twice.** -/
theorem Linked.nodup_subtree (h : Linked forest) (id : NodeId) : (forest.subtree id).Nodup := by
  cases hid : forest.get? id with
  | none => simp [subtree_absent hid]
  | some node =>
      refine h.downward (motive := fun id => (forest.subtree id).Nodup) ?_ hid
      intro id node hid ih
      have hholds : ∀ c ∈ node.children, forest.Holds id c := fun c hc => ⟨node, hid, hc⟩
      rw [h.subtree_cons hid, List.nodup_cons, List.nodup_flatMap]
      refine ⟨fun hm => ?_, ih, ?_⟩
      · obtain ⟨c, hc, hx⟩ := List.mem_flatMap.mp hm
        exact h.not_below_of_holds (hholds c hc) (h.mem_subtree.mp hx).2
      · refine (h.nodup hid).imp_of_mem fun {c d} hc hd hne y hy hy' => ?_
        exact h.siblings_apart (hholds c hc) (hholds d hd) hne (h.mem_subtree.mp hy).2
          (h.mem_subtree.mp hy').2

/-- What is listed below a node depends on the nodes below it only. -/
theorem Linked.subtree_congr (h : Linked forest) (ha : Linked after)
    (hid : forest.get? id = some node)
    (hsame : ∀ x, forest.Below id x → after.get? x = forest.get? x) :
    after.subtree id = forest.subtree id := by
  refine h.downward (motive := fun id => (∀ x, forest.Below id x → after.get? x = forest.get? x) →
    after.subtree id = forest.subtree id) ?_ hid hsame
  intro id node hid ih hsame
  rw [h.subtree_cons hid, ha.subtree_cons ((hsame id .refl).trans hid)]
  refine congrArg _ (List.flatMap_congr fun c hc => ih c hc fun x hx => ?_)
  exact hsame x (.head ⟨node, hid, hc⟩ hx)

/-! ## Listing it with a stack -/

/-- What a walk comes by that takes a node from the stack, lists it if it exists, and puts what
is in its slots on the stack, that of the first slot on top, until the stack is empty. -/
inductive Visits (forest : Forest) : (stack order : List NodeId) → Prop where
  | done : Visits forest [] []
  | absent {id : NodeId} {stack order : List NodeId} :
      forest.get? id = none → Visits forest stack order → Visits forest (id :: stack) order
  | present {id : NodeId} {node : Node} {stack order : List NodeId} :
      forest.get? id = some node → Visits forest (node.children ++ stack) order →
      Visits forest (id :: stack) (id :: order)

namespace Visits

variable {stack order other : List NodeId}

/-- The walk goes one way only. -/
theorem unique (h : Visits forest stack order) (ho : Visits forest stack other) :
    order = other := by
  induction h generalizing other with
  | done => cases ho; rfl
  | absent hid _ ih =>
      cases ho with
      | absent _ ho => exact ih ho
      | present hid' _ => exact absurd (hid.symm.trans hid') (by simp)
  | present hid _ ih =>
      cases ho with
      | absent hid' _ => exact absurd (hid'.symm.trans hid) (by simp)
      | present hid' ho =>
          cases hid.symm.trans hid'
          rw [ih ho]

/-- The walk is through with a node once it has listed what is below it. -/
theorem push (h : Linked forest) (hs : Visits forest stack order) :
    Visits forest (id :: stack) (forest.subtree id ++ order) := by
  cases hid : forest.get? id with
  | none =>
      rw [subtree_absent hid]
      exact .absent hid hs
  | some node =>
      refine h.downward (motive := fun id => ∀ stack order, Visits forest stack order →
        Visits forest (id :: stack) (forest.subtree id ++ order)) ?_ hid stack order hs
      intro id node hid ih stack order hs
      rw [h.subtree_cons hid, List.cons_append]
      refine .present hid ?_
      -- slot by slot, the last one first
      clear hid
      generalize node.children = children at ih ⊢
      induction children with
      | nil => exact hs
      | cons c rest ihr =>
          obtain ⟨hc, hrest⟩ := List.forall_mem_cons.mp ih
          rw [List.flatMap_cons, List.append_assoc]
          exact hc _ _ (ihr hrest)

end Visits

/-- **The walk with a stack ends, and lists what is below the node.** -/
theorem Linked.visits_iff (h : Linked forest) {order : List NodeId} :
    forest.Visits [id] order ↔ order = forest.subtree id := by
  have hwalk : forest.Visits [id] (forest.subtree id ++ []) := .push h .done
  rw [List.append_nil] at hwalk
  exact ⟨fun ho => ho.unique hwalk, fun he => he ▸ hwalk⟩

/-! ## Making a tree of it -/

/-- **A tree has as many nodes as are listed below the node that shows it.** -/
theorem Linked.size_of_shows (h : Linked forest) {tree : NodeTree} (hs : Shows forest id tree) :
    tree.size = (forest.subtree id).length := by
  obtain ⟨node, hid⟩ := hs.exists_node
  refine h.downward (motive := fun id => ∀ tree, Shows forest id tree →
    tree.size = (forest.subtree id).length) ?_ hid tree hs
  intro id node hid ih tree hs
  obtain ⟨found, filled, hf, hslots, rfl⟩ := Shows.iff_slots.mp hs
  cases hid.symm.trans hf
  have hnames : node.arguments.map Binding.param = filled.map Prod.fst :=
    SideBySide.map_eq (hslots.imp fun _ _ hpair => hpair.1)
  -- by the hypothesis each slot weighs as much as the subtree of its child
  have hsizes : filled.map (fun pair => pair.2.size)
      = node.arguments.map fun binding => (forest.subtree binding.child).length := by
    refine (SideBySide.map_eq ?_).symm
    refine (SideBySide.with_mem hslots.flip).flip.imp fun binding pair hpair => ?_
    obtain ⟨hb, _, hshows⟩ := hpair
    exact (ih _ (Node.mem_children.mpr ⟨binding, hb, rfl⟩) _ hshows).symm
  rw [NodeTree.size, NodeTree.sizes_slots (hnames ▸ h.names hid), hsizes, h.subtree_cons hid,
    List.length_cons, List.length_flatMap, Node.children, List.map_map, Nat.add_comm]
  rfl

/-! ## Taking it away -/

/-- What is left, and how many nodes are gone, when a walk ends that takes a node from the stack,
takes it out of the forest if it is there, and puts what is in its slots on the stack, that of
the last slot on top. -/
inductive Sweeps : (stack : List NodeId) → (nodes left : Std.ExtTreeMap NodeId Node) →
    (count : Nat) → Prop where
  | done {nodes : Std.ExtTreeMap NodeId Node} : Sweeps [] nodes nodes 0
  | absent {id : NodeId} {stack : List NodeId} {nodes left : Std.ExtTreeMap NodeId Node}
      {count : Nat} :
      nodes[id]? = none → Sweeps stack nodes left count → Sweeps (id :: stack) nodes left count
  | present {id : NodeId} {node : Node} {stack : List NodeId}
      {nodes left : Std.ExtTreeMap NodeId Node} {count : Nat} :
      nodes[id]? = some node → Sweeps (node.children.reverse ++ stack) (nodes.erase id) left count →
      Sweeps (id :: stack) nodes left (count + 1)

namespace Sweeps

variable {stack : List NodeId} {nodes left : Std.ExtTreeMap NodeId Node} {count : Nat}

/-- What the walk leaves. -/
theorem pruned (h : Sweeps stack nodes left count) : Pruned nodes stack left := by
  induction h with
  | done => exact .refl _
  | absent hid _ ih => exact (Pruned.absent hid).trans ih
  | present hid _ ih => exact .of_erase hid (by simp) ih

/-- The walk counts what it takes away. -/
theorem size_add (h : Sweeps stack nodes left count) : left.size + count = nodes.size := by
  induction h with
  | done => rfl
  | absent _ _ ih => exact ih
  | present hid _ ih =>
      rw [← size_erase_succ hid, ← ih, Nat.add_assoc]

end Sweeps

/-- The walk ends, whatever the slots hold: each turn takes away a node or shortens the stack. -/
theorem exists_sweeps : ∀ (stack : List NodeId) (nodes : Std.ExtTreeMap NodeId Node),
    ∃ left count, Sweeps stack nodes left count
  | [], nodes => ⟨nodes, 0, .done⟩
  | id :: stack, nodes => by
      cases hid : nodes[id]? with
      | none =>
          obtain ⟨left, count, hs⟩ := exists_sweeps stack nodes
          exact ⟨left, count, .absent hid hs⟩
      | some node =>
          have hsize := size_erase_succ hid
          obtain ⟨left, count, hs⟩ := exists_sweeps (node.children.reverse ++ stack)
            (nodes.erase id)
          exact ⟨left, count + 1, .present hid hs⟩
  termination_by stack nodes => (nodes.size, stack.length)

/-- **The walk leaves what pruning leaves.** -/
theorem sweeps_iff {nodes left : Std.ExtTreeMap NodeId Node} {count : Nat} :
    Sweeps [id] nodes left count ↔
      left = prune nodes.size id nodes ∧ left.size + count = nodes.size := by
  have hpruned := prune_pruned nodes.size id nodes (Nat.le_refl _)
  constructor
  · exact fun hs => ⟨hs.pruned.unique hpruned, hs.size_add⟩
  · intro hw
    obtain ⟨rfl, hcount⟩ := hw
    -- every sweep ends, and it cannot end in two ways
    obtain ⟨left, count', hs⟩ := exists_sweeps [id] nodes
    have hleft := hs.pruned.unique hpruned
    have hsize := hs.size_add
    rw [hleft] at hs hsize
    have he : count = count' := by omega
    rw [he]
    exact hs

/-- As many nodes are gone as were listed. -/
theorem Linked.size_removeSubtree (h : Linked forest) (id : NodeId) :
    (forest.removeSubtree id).size + (forest.subtree id).length = forest.size := by
  -- the nodes that are left and those that were listed are all nodes, each once
  have hn : ((forest.removeSubtree id).nodes.keys ++ forest.subtree id).Nodup := by
    refine List.nodup_append.mpr ⟨Std.ExtTreeMap.nodup_keys, h.nodup_subtree id, ?_⟩
    rintro x hx _ hy rfl
    obtain ⟨left, hl⟩ := mem_keys.mp hx
    exact ((get?_removeSubtree h).mp hl).1 (h.mem_subtree.mp hy).2
  have hm : ∀ x, x ∈ (forest.removeSubtree id).nodes.keys ++ forest.subtree id ↔
      ∃ node, forest.get? x = some node := by
    intro x
    rw [List.mem_append, mem_keys]
    constructor
    · intro hx
      rcases hx with ⟨left, hl⟩ | hx
      · obtain ⟨_, node, hx, _⟩ := (get?_removeSubtree h).mp hl
        exact ⟨node, hx⟩
      · exact h.exists_of_mem_subtree hx
    · intro hx
      obtain ⟨node, hx⟩ := hx
      by_cases hb : forest.Below id x
      · exact Or.inr (h.mem_subtree.mpr ⟨exists_of_below hb hx, hb⟩)
      · exact Or.inl ⟨_, (get?_removeSubtree h).mpr ⟨hb, node, hx, rfl⟩⟩
  rw [size_eq_length hn hm, List.length_append]
  exact congrArg (· + _) Std.ExtTreeMap.length_keys.symm

/-- **The walk that takes away what is below a node**, after the slot that holds the node has let
go of it, takes away as many nodes as are listed. -/
theorem Linked.sweeps_iff (h : Linked forest) (hid : forest.get? id = some node)
    {left : Std.ExtTreeMap NodeId Node} {count : Nat} :
    Sweeps [id] (forest.unhook id node.owner).nodes left count ↔
      left = (forest.removeSubtree id).nodes ∧ count = (forest.subtree id).length := by
  have hrest : (forest.removeSubtree id).nodes = prune (forest.unhook id node.owner).nodes.size id
      (forest.unhook id node.owner).nodes := by
    rw [removeSubtree, hid]
    rfl
  have hsize : (forest.unhook id node.owner).nodes.size = forest.size := by
    cases node.owner with
    | argument parent => exact Std.ExtTreeMap.size_modify
    | detached => rfl
    | trigger t => rfl
  rw [Forest.sweeps_iff, ← hrest, hsize, ← h.size_removeSubtree id]
  refine and_congr_right fun he => ?_
  rw [he]
  exact Nat.add_left_cancel_iff

/-- The second forest is the first without a node and all that is below it. Only the slot that
held the node is gone with it. -/
structure Without (forest : Forest) (id : NodeId) (after : Forest) : Prop where
  /-- What was listed is gone. -/
  gone : ∀ x ∈ forest.subtree id, after.get? x = none
  /-- Everything else is what it was, but for the node that held the root. -/
  same : ∀ x, x ∉ forest.subtree id →
    (∀ node, forest.get? id = some node → node.owner ≠ .argument x) →
    after.get? x = forest.get? x
  /-- That one has lost one slot and has kept all others. -/
  holder : ∀ node parent, forest.get? id = some node → node.owner = .argument parent →
    ∃ holder before slot rest, forest.get? parent = some holder ∧
      holder.arguments = before ++ slot :: rest ∧ slot.child = id ∧
      (∀ other ∈ before ++ rest, other.child ≠ id) ∧
      after.get? parent = some { holder with arguments := before ++ rest }
  nextId : after.nextId = forest.nextId

theorem Linked.without (h : Linked forest) (id : NodeId) :
    Without forest id (forest.removeSubtree id) where
  gone x hx := by
    cases hl : (forest.removeSubtree id).get? x with
    | none => rfl
    | some left => exact absurd (h.mem_subtree.mp hx).2 ((get?_removeSubtree h).mp hl).1
  same x hx hheld := by
    cases hid : forest.get? id with
    | none => rw [removeSubtree, hid]
    | some node =>
        have hb : ¬ forest.Below id x := fun hb => hx (h.mem_subtree.mpr ⟨⟨node, hid⟩, hb⟩)
        refine get?_removeSubtree_of_apart h (fun hholds => ?_) hb
        obtain ⟨found, hf, howner⟩ := h.holds_iff.mp hholds
        exact hheld found hf howner
  holder node parent hid ho := by
    have hholds : forest.Holds parent id := h.up hid ho
    obtain ⟨holder, hp, hc⟩ := h.up hid ho
    obtain ⟨before, slot, rest, hsplit, hslot, hothers, hrelease⟩ :=
      Node.exists_release (h.nodup hp) hc
    refine ⟨holder, before, slot, rest, hp, hsplit, hslot, hothers, ?_⟩
    exact (get?_removeSubtree h).mpr ⟨h.not_below_of_holds hholds, holder, hp, hrelease⟩
  nextId := nextId_removeSubtree

/-- Removal says how many nodes were listed. -/
theorem Linked.remove_runOn (h : Linked forest) (id : NodeId) :
    (remove id).runOn forest = (.ok (forest.subtree id).length, forest.removeSubtree id) := by
  have hcount : forest.size - (forest.removeSubtree id).size = (forest.subtree id).length := by
    rw [← h.size_removeSubtree id, Nat.add_sub_cancel_left]
  rw [← hcount]
  rfl

end Forest

end Rulebook
