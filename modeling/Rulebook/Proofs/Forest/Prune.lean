import Rulebook.Proofs.Forest.Linked

/-!
# What removing a subtree removes

`prune` takes a node out before it goes on below it, and walks over whatever is
left. Nothing about the shape of the forest is needed for that to be right: on
any forest, and with any bound of at least the number of nodes, exactly the
nodes that can be reached through slots are gone.

`removeSubtree` also empties the slot that held the node. On a linked forest
this makes it easy to say what is left: the nodes that do not lie below the one
removed, none of them holding it any more.
-/

namespace Rulebook

namespace Forest

/-- A slot of the one node holds the other, in a map of nodes. -/
def Leads (nodes : Std.ExtTreeMap NodeId Node) (parent child : NodeId) : Prop :=
  ∃ node, nodes[parent]? = some node ∧ child ∈ node.children

/-- The second map is what the first becomes when everything that can be reached from the
starting points is taken out. -/
structure Pruned (nodes : Std.ExtTreeMap NodeId Node) (starts : List NodeId)
    (rest : Std.ExtTreeMap NodeId Node) : Prop where
  /-- Nothing is added or changed. -/
  sub : ∀ {x : NodeId} {node : Node}, rest[x]? = some node → nodes[x]? = some node
  /-- The starting points are gone. -/
  gone : ∀ {x : NodeId}, x ∈ starts → rest[x]? = none
  /-- With a node its children are gone. -/
  closed : ∀ {x : NodeId} {node : Node} {c : NodeId}, nodes[x]? = some node → rest[x]? = none →
    c ∈ node.children → rest[c]? = none
  /-- Only what can be reached is gone. -/
  reached : ∀ {x : NodeId} {node : Node}, nodes[x]? = some node → rest[x]? = none →
    ∃ start ∈ starts, Relation.ReflTransGen (Leads nodes) start x

namespace Pruned

variable {nodes middle rest : Std.ExtTreeMap NodeId Node} {starts : List NodeId} {start : NodeId}

theorem refl (nodes : Std.ExtTreeMap NodeId Node) : Pruned nodes [] nodes where
  sub h := h
  gone h := absurd h (by simp)
  closed hx hr := absurd (hx.symm.trans hr) (by simp)
  reached hx hr := absurd (hx.symm.trans hr) (by simp)

theorem none_of_none (h : Pruned nodes starts rest) {x : NodeId} (hx : nodes[x]? = none) :
    rest[x]? = none := by
  cases hr : rest[x]? with
  | none => rfl
  | some node => exact absurd (hx.symm.trans (h.sub hr)) (by simp)

theorem leads_mono (h : Pruned nodes starts rest) {x y : NodeId}
    (hxy : Relation.ReflTransGen (Leads rest) x y) : Relation.ReflTransGen (Leads nodes) x y :=
  Relation.ReflTransGen.mono (fun _ _ ⟨node, hn, hc⟩ => ⟨node, h.sub hn, hc⟩) _ _ hxy

/-- Starting points may be taken out one after the other. -/
theorem trans (h : Pruned nodes [start] middle) (h' : Pruned middle starts rest) :
    Pruned nodes (start :: starts) rest where
  sub hx := h.sub (h'.sub hx)
  gone hm := by
    rcases List.mem_cons.mp hm with he | hm
    · exact h'.none_of_none (h.gone (he ▸ List.mem_singleton_self _))
    · exact h'.gone hm
  closed {x node c} hx hr hc := by
    cases hm : middle[x]? with
    | none => exact h'.none_of_none (h.closed hx hm hc)
    | some node' =>
        have he : node = node' := Option.some.inj (hx.symm.trans (h.sub hm))
        exact h'.closed hm hr (he ▸ hc)
  reached {x node} hx hr := by
    cases hm : middle[x]? with
    | none =>
        obtain ⟨s, hs, hsx⟩ := h.reached hx hm
        exact ⟨s, List.mem_cons.mpr (Or.inl (List.mem_singleton.mp hs)), hsx⟩
    | some node' =>
        obtain ⟨s, hs, hsx⟩ := h'.reached hm hr
        exact ⟨s, List.mem_cons_of_mem _ hs, h.leads_mono hsx⟩

/-- Where there is no node, there is nothing to take out. -/
theorem absent (hn : nodes[start]? = none) : Pruned nodes [start] nodes where
  sub h := h
  gone hx := by rw [List.mem_singleton.mp hx, hn]
  closed hx hr := absurd (hx.symm.trans hr) (by simp)
  reached hx hr := absurd (hx.symm.trans hr) (by simp)

/-- A node goes first, then what its slots hold and the other starting points, in any order. -/
theorem of_erase {node : Node} {pending : List NodeId} (hn : nodes[start]? = some node)
    (hp : ∀ x, x ∈ pending ↔ x ∈ node.children ∨ x ∈ starts)
    (h : Pruned (nodes.erase start) pending rest) : Pruned nodes (start :: starts) rest := by
  have herase : ∀ x, x ≠ start → (nodes.erase start)[x]? = nodes[x]? := fun x hx => by
    rw [Std.ExtTreeMap.getElem?_erase,
      if_neg fun he => hx (Std.LawfulEqOrd.eq_of_compare he).symm]
  have hgone : (nodes.erase start)[start]? = none := Std.ExtTreeMap.getElem?_erase_self
  -- erasing takes nodes away and changes none
  have hsub : ∀ {x : NodeId} {node : Node}, (nodes.erase start)[x]? = some node →
      nodes[x]? = some node := by
    intro x node hx
    by_cases hs : x = start
    · subst hs
      exact absurd (hgone.symm.trans hx) (by simp)
    · rw [← herase x hs]
      exact hx
  refine ⟨fun hx => hsub (h.sub hx), ?_, ?_, ?_⟩
  · intro x hx
    rcases List.mem_cons.mp hx with rfl | hx
    · exact h.none_of_none hgone
    · exact h.gone ((hp x).mpr (Or.inr hx))
  · intro x inner c hx hr hc
    by_cases hs : x = start
    · subst hs
      rw [hn] at hx
      cases hx
      exact h.gone ((hp c).mpr (Or.inl hc))
    · exact h.closed ((herase x hs).trans hx) hr hc
  · intro x inner hx hr
    by_cases hs : x = start
    · exact ⟨start, List.mem_cons_self, by rw [hs]⟩
    · obtain ⟨c, hc, hcx⟩ := h.reached ((herase x hs).trans hx) hr
      -- a way among the nodes that are left was there before
      have hway : Relation.ReflTransGen (Leads nodes) c x :=
        Relation.ReflTransGen.mono (fun _ _ ⟨n, hm, hd⟩ => ⟨n, hsub hm, hd⟩) _ _ hcx
      rcases (hp c).mp hc with hc | hc
      · exact ⟨start, List.mem_cons_self, .head ⟨node, hn, hc⟩ hway⟩
      · exact ⟨c, List.mem_cons_of_mem _ hc, hway⟩

/-- What can be reached is gone. -/
theorem none_of_reached (h : Pruned nodes starts rest) (hs : start ∈ starts) {x : NodeId}
    (hx : Relation.ReflTransGen (Leads nodes) start x) : rest[x]? = none := by
  induction hx with
  | refl => exact h.gone hs
  | tail _ hyz ih =>
      obtain ⟨inner, hi, hc⟩ := hyz
      exact h.closed hi ih hc

/-- The starting points say what is left. -/
theorem unique {other : Std.ExtTreeMap NodeId Node} (h : Pruned nodes starts rest)
    (ho : Pruned nodes starts other) : rest = other := by
  have hkept : ∀ {left right : Std.ExtTreeMap NodeId Node} {x : NodeId} {node : Node},
      Pruned nodes starts left → Pruned nodes starts right → left[x]? = some node →
      right[x]? = some node := by
    intro left right x node hl hr hx
    cases hn : right[x]? with
    | some inner => rw [← hr.sub hn, hl.sub hx]
    | none =>
        obtain ⟨start, hs, hway⟩ := hr.reached (hl.sub hx) hn
        rw [hl.none_of_reached hs hway] at hx
        exact absurd hx (by simp)
  refine Std.ExtTreeMap.ext_getElem? fun x => Option.ext fun node => ?_
  exact ⟨hkept h ho, hkept ho h⟩

end Pruned

/-- A node that is taken out was one of them. -/
theorem size_erase_succ {nodes : Std.ExtTreeMap NodeId Node} {id : NodeId} {node : Node}
    (hn : nodes[id]? = some node) : (nodes.erase id).size + 1 = nodes.size := by
  have hmem : nodes.contains id = true := by
    rw [Std.ExtTreeMap.contains_eq_isSome_getElem?, hn]
    rfl
  have hpos : nodes.size ≠ 0 := fun he => by
    rw [Std.ExtTreeMap.eq_empty_iff_size_eq_zero.mpr he] at hn
    simp at hn
  rw [Std.ExtTreeMap.size_erase, if_pos hmem]
  omega

theorem size_prune_le : ∀ (fuel : Nat) (id : NodeId) (nodes : Std.ExtTreeMap NodeId Node),
    (prune fuel id nodes).size ≤ nodes.size := by
  intro fuel
  induction fuel with
  | zero => intro id nodes; exact Nat.le_refl _
  | succ fuel ih =>
      have hfold : ∀ (ids : List NodeId) (nodes : Std.ExtTreeMap NodeId Node),
          (ids.foldl (fun rest child => prune fuel child rest) nodes).size ≤ nodes.size := by
        intro ids
        induction ids with
        | nil => intro nodes; exact Nat.le_refl _
        | cons c ids ihc =>
            intro nodes
            exact Nat.le_trans (ihc _) (ih c nodes)
      intro id nodes
      rw [prune]
      split
      · exact Nat.le_refl _
      · exact Nat.le_trans (hfold _ _) Std.ExtTreeMap.size_erase_le

/-- **Pruning takes out exactly what can be reached.** -/
theorem prune_pruned : ∀ (fuel : Nat) (id : NodeId) (nodes : Std.ExtTreeMap NodeId Node),
    nodes.size ≤ fuel → Pruned nodes [id] (prune fuel id nodes) := by
  intro fuel
  induction fuel with
  | zero =>
      intro id nodes hle
      have hempty : nodes = ∅ := Std.ExtTreeMap.eq_empty_iff_size_eq_zero.mpr (Nat.le_zero.mp hle)
      subst hempty
      rw [prune]
      constructor <;> intros <;> simp_all
  | succ fuel ih =>
      -- the children, one after the other, in what is left without the node
      have hfold : ∀ (ids : List NodeId) (nodes : Std.ExtTreeMap NodeId Node), nodes.size ≤ fuel →
          Pruned nodes ids (ids.foldl (fun rest child => prune fuel child rest) nodes) := by
        intro ids
        induction ids with
        | nil => intro nodes _; exact .refl nodes
        | cons c ids ihc =>
            intro nodes hle
            exact (ih c nodes hle).trans (ihc _ (Nat.le_trans (size_prune_le _ _ _) hle))
      intro id nodes hle
      rw [prune]
      split
      · rename_i hid
        exact .absent hid
      · rename_i node hid
        refine .of_erase hid (by simp) (hfold _ _ ?_)
        have hsize := size_erase_succ hid
        omega

/-- What is left after pruning, for a bound of at least the number of nodes. -/
theorem getElem?_prune {forest : Forest} {fuel : Nat} {id x : NodeId} {node : Node}
    (hle : forest.size ≤ fuel) :
    (prune fuel id forest.nodes)[x]? = some node ↔
      forest.get? x = some node ∧ ¬ forest.Below id x := by
  have h := prune_pruned fuel id forest.nodes hle
  constructor
  · intro hx
    refine ⟨h.sub hx, fun hb => ?_⟩
    rw [h.none_of_reached (List.mem_singleton_self _) hb] at hx
    exact absurd hx (by simp)
  · intro hw
    obtain ⟨hx, hb⟩ := hw
    cases hr : (prune fuel id forest.nodes)[x]? with
    | some inner => rw [← h.sub hr]; exact hx
    | none =>
        obtain ⟨s, hs, hsx⟩ := h.reached hx hr
        rw [List.mem_singleton.mp hs] at hsx
        exact absurd hsx hb

/-! ## On a linked forest -/

variable {forest : Forest} {id other : NodeId}

@[simp] theorem nextId_unhook (owner : Owner) :
    (forest.unhook id owner).nextId = forest.nextId := by
  cases owner <;> rfl

@[simp] theorem nextId_removeSubtree : (forest.removeSubtree id).nextId = forest.nextId := by
  rw [removeSubtree]
  split
  · rfl
  · exact nextId_unhook _

theorem not_mem_children_of_root (h : Linked forest) {node top : Node}
    (hid : forest.get? id = some top) (hroot : ∀ parent, top.owner ≠ .argument parent)
    (hn : forest.get? other = some node) : id ∉ node.children := by
  intro hc
  obtain ⟨inner, hi, ho⟩ := h.down hn hc
  rw [hid] at hi
  cases hi
  exact hroot _ ho

/-- After a node is let go of, nothing holds it. -/
theorem get?_unhook (h : Linked forest) {node : Node} (hid : forest.get? id = some node) :
    (forest.unhook id node.owner).get? other
      = (forest.get? other).map fun inner => inner.release id := by
  have hsame : (∀ inner, forest.get? other = some inner → id ∉ inner.children) →
      forest.get? other = (forest.get? other).map fun inner => inner.release id := by
    intro hno
    cases ho : forest.get? other with
    | none => rfl
    | some inner => rw [Option.map_some, Node.release_of_not_mem (hno inner ho)]
  -- a root is in no slot, so there is nothing to unhook it from
  cases hown : node.owner with
  | argument parent =>
      rw [unhook, get?_update]
      split
      · rfl
      · rename_i hne
        refine hsame fun inner hi hc => hne ?_
        exact h.holds_unique ⟨inner, hi, hc⟩ (h.up hid hown)
  | detached =>
      refine hsame fun inner hi => ?_
      exact not_mem_children_of_root h hid (by simp [hown]) hi
  | trigger t =>
      refine hsame fun inner hi => ?_
      exact not_mem_children_of_root h hid (by simp [hown]) hi

/-- A forest that differs only in that nothing holds a certain node has the same below it. -/
theorem below_of_holds_iff (h : Linked forest) {freed : Forest}
    (hholds : ∀ x y, freed.Holds x y ↔ forest.Holds x y ∧ y ≠ id) :
    freed.Below id other ↔ forest.Below id other := by
  constructor
  · intro hb
    exact Relation.ReflTransGen.mono (fun x y hxy => ((hholds x y).mp hxy).1) _ _ hb
  · intro hb
    induction hb with
    | refl => exact .refl
    | tail hy hyz ih =>
        refine ih.tail ((hholds _ _).mpr ⟨hyz, ?_⟩)
        intro he
        rw [he] at hyz
        exact h.not_below_of_holds hyz hy

theorem holds_released {freed : Forest}
    (hfreed : ∀ x, freed.get? x = (forest.get? x).map fun inner => inner.release id)
    (x y : NodeId) : freed.Holds x y ↔ forest.Holds x y ∧ y ≠ id := by
  unfold Holds
  rw [hfreed]
  cases forest.get? x with
  | none => simp
  | some inner => simp [Node.mem_children_release]

/-- **What is left when a subtree is removed.** -/
theorem get?_removeSubtree (h : Linked forest) {left : Node} :
    (forest.removeSubtree id).get? other = some left ↔
      ¬ forest.Below id other ∧ ∃ node, forest.get? other = some node ∧ node.release id = left := by
  rw [removeSubtree]
  split
  · rename_i hid
    -- what does not exist holds nothing and is held by nothing
    have hno : ∀ {x inner}, forest.get? x = some inner → id ∉ inner.children := by
      intro x inner hx hc
      obtain ⟨c, hc, _⟩ := h.down hx hc
      exact absurd (hid.symm.trans hc) (by simp)
    have hbelow : forest.Below id other → id = other := by
      intro hb
      rcases Relation.ReflTransGen.cases_head hb with he | ⟨c, ⟨node, hn, _⟩, _⟩
      · exact he
      · exact absurd (hid.symm.trans hn) (by simp)
    constructor
    · intro ho
      refine ⟨fun hb => ?_, left, ho, Node.release_of_not_mem (hno ho)⟩
      rw [← hbelow hb] at ho
      exact absurd (hid.symm.trans ho) (by simp)
    · intro hw
      obtain ⟨_, node, hn, rfl⟩ := hw
      rw [Node.release_of_not_mem (hno hn)]
      exact hn
  · rename_i node hid
    have hfreed : ∀ x, (forest.unhook id node.owner).get? x = _ := fun x => get?_unhook h hid
    show (prune _ id (forest.unhook id node.owner).nodes)[other]? = some left ↔ _
    rw [getElem?_prune (Nat.le_refl _), hfreed, below_of_holds_iff h (holds_released hfreed),
      Option.map_eq_some_iff]
    exact And.comm

/-- The removal of a node is not seen from outside of its tree, unless by the node that held it. -/
theorem get?_removeSubtree_of_apart (h : Linked forest) (hfree : ¬ forest.Holds other id)
    (hb : ¬ forest.Below id other) :
    (forest.removeSubtree id).get? other = forest.get? other := by
  have hkept : ∀ {node : Node}, forest.get? other = some node → node.release id = node :=
    fun hn => Node.release_of_not_mem fun hc => hfree ⟨_, hn, hc⟩
  refine Option.ext fun left => ?_
  rw [get?_removeSubtree h]
  constructor
  · intro hl
    obtain ⟨_, node, hn, rfl⟩ := hl
    rw [hkept hn]
    exact hn
  · exact fun hn => ⟨hb, left, hn, hkept hn⟩

end Forest

end Rulebook
