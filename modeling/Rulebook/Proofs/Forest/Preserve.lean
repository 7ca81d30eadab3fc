import Rulebook.Proofs.Forest.Prune

/-!
# Changes that keep a forest linked

Planting a node, filling an empty slot with a free node, and removing a subtree
each leave a linked forest linked. So does every change that touches neither
slots nor holders. Filling is the one that has something to fear: it is here
that a node could come to lie below itself, and here that the check of the
lineage pays off. `Fillable` says what has to be checked.
-/

namespace Rulebook

/-- The node that holds another as an argument, if that is how it is held. -/
def Owner.holder? : Owner → Option NodeId
  | argument parent => some parent
  | _ => none

namespace Forest

variable {forest : Forest} {parent child id other : NodeId} {registry : Registry}

/-! ## Planting -/

theorem Linked.get?_next (h : Linked forest) : forest.get? ⟨forest.nextId⟩ = none := by
  cases hn : forest.get? ⟨forest.nextId⟩ with
  | none => rfl
  | some node => exact absurd (h.used hn) (Nat.lt_irrefl _)

theorem get?_plant_old (h : Linked forest) {variant : Variant} {literal : Option Literal}
    {node : Node} (hn : forest.get? id = some node) :
    (forest.plant variant literal).get? id = some node := by
  rw [get?_plant, if_neg, hn]
  intro he
  rw [he, h.get?_next] at hn
  exact absurd hn (by simp)

theorem get?_plant_iff (h : Linked forest) {variant : Variant} {literal : Option Literal}
    {node : Node} :
    (forest.plant variant literal).get? id = some node ↔
      (id = ⟨forest.nextId⟩ ∧ forest.planted variant literal = node) ∨
        forest.get? id = some node := by
  rw [get?_plant]
  split
  · rename_i he
    rw [he, h.get?_next]
    simp
  · rename_i hne
    simp [hne]

theorem grounded_plant (h : Linked forest) {variant : Variant} {literal : Option Literal}
    (hg : Grounded forest id) : Grounded (forest.plant variant literal) id := by
  induction hg with
  | root hid hroot => exact .root (get?_plant_old h hid) hroot
  | held hid ho _ ih => exact .held (get?_plant_old h hid) ho ih

theorem linked_plant (h : Linked forest) (variant : Variant) (literal : Option Literal) :
    Linked (forest.plant variant literal) where
  key := by
    intro id node hn
    rcases (get?_plant_iff h).mp hn with ⟨rfl, rfl⟩ | hn
    · rfl
    · exact h.key hn
  used := by
    intro id node hn
    rw [nextId_plant]
    rcases (get?_plant_iff h).mp hn with ⟨rfl, rfl⟩ | hn
    · exact Nat.lt_succ_self _
    · exact Nat.lt_succ_of_lt (h.used hn)
  names := by
    intro id node hn
    rcases (get?_plant_iff h).mp hn with ⟨rfl, rfl⟩ | hn
    · exact List.nodup_nil
    · exact h.names hn
  nodup := by
    intro id node hn
    rcases (get?_plant_iff h).mp hn with ⟨rfl, rfl⟩ | hn
    · exact List.nodup_nil
    · exact h.nodup hn
  down := by
    intro parent node child hn hc
    rcases (get?_plant_iff h).mp hn with ⟨rfl, rfl⟩ | hn
    · exact absurd hc (by simp [planted, Node.children])
    · obtain ⟨inner, hi, ho⟩ := h.down hn hc
      exact ⟨inner, get?_plant_old h hi, ho⟩
  up := by
    intro child inner parent hi ho
    rcases (get?_plant_iff h).mp hi with ⟨rfl, rfl⟩ | hi
    · -- a planted node is free, so nothing holds it
      exact absurd ho (by simp [planted])
    · obtain ⟨node, hn, hc⟩ := h.up hi ho
      exact ⟨node, get?_plant_old h hn, hc⟩
  grounded := by
    intro id node hn
    rcases (get?_plant_iff h).mp hn with ⟨rfl, rfl⟩ | hold
    · exact .root hn (by simp [planted])
    · exact grounded_plant h (h.grounded hold)

/-! ## Filling a slot -/

theorem get?_fillSlot_iff {param : String} (hne : parent ≠ child) {left : Node} :
    (forest.fillSlot parent param child).get? other = some left ↔
      ∃ node, forest.get? other = some node ∧
        (if other = parent then node.fill param child
          else if other = child then { node with owner := .argument parent } else node) = left := by
  rw [get?_fillSlot param hne]
  split
  · exact Option.map_eq_some_iff
  · split
    · exact Option.map_eq_some_iff
    · simp

/-- A free node and an empty slot of a node that does not lie below it. -/
structure Fillable (forest : Forest) (parent : NodeId) (param : String) (child : NodeId)
    (node inner : Node) : Prop where
  holder : forest.get? parent = some node
  empty : node.argument? param = none
  there : forest.get? child = some inner
  free : inner.owner = .detached
  /-- Otherwise the child would come to lie below itself. -/
  apart : ¬ forest.Below child parent

namespace Fillable

variable {param : String} {node inner n left : Node} {x c : NodeId}

theorem ne (hf : Fillable forest parent param child node inner) : parent ≠ child :=
  ne_of_not_below hf.apart

theorem not_held (hf : Fillable forest parent param child node inner) :
    ∀ above, inner.owner ≠ .argument above := by simp [hf.free]

theorem get?_holder (hf : Fillable forest parent param child node inner) :
    (forest.fillSlot parent param child).get? parent = some (node.fill param child) :=
  (get?_fillSlot_iff hf.ne).mpr ⟨node, hf.holder, if_pos rfl⟩

theorem get?_child (hf : Fillable forest parent param child node inner) :
    (forest.fillSlot parent param child).get? child
      = some { inner with owner := .argument parent } :=
  (get?_fillSlot_iff hf.ne).mpr ⟨inner, hf.there, by rw [if_neg hf.ne.symm, if_pos rfl]⟩

/-- Only the child gets another owner, and only the holder other slots. -/
theorem origin (hf : Fillable forest parent param child node inner)
    (hx : (forest.fillSlot parent param child).get? x = some left) :
    ∃ n, forest.get? x = some n ∧ left.id = n.id ∧ (x ≠ child → left.owner = n.owner) ∧
      (x ≠ parent → left.arguments = n.arguments) := by
  obtain ⟨n, hn, rfl⟩ := (get?_fillSlot_iff hf.ne).mp hx
  refine ⟨n, hn, ?_⟩
  by_cases hp : x = parent
  · rw [if_pos hp]
    exact ⟨rfl, fun _ => rfl, fun hne => absurd hp hne⟩
  rw [if_neg hp]
  by_cases hc : x = child
  · rw [if_pos hc]
    exact ⟨rfl, fun hne => absurd hc hne, fun _ => rfl⟩
  · rw [if_neg hc]
    exact ⟨rfl, fun _ => rfl, fun _ => rfl⟩

/-- What was there is still there, and holds what it held. -/
theorem persists (hf : Fillable forest parent param child node inner)
    (hx : forest.get? x = some n) (hc : x ≠ child) :
    ∃ left, (forest.fillSlot parent param child).get? x = some left ∧ left.owner = n.owner ∧
      n.children ⊆ left.children := by
  refine ⟨_, (get?_fillSlot_iff hf.ne).mpr ⟨n, hx, rfl⟩, ?_⟩
  rw [if_neg hc]
  by_cases hp : x = parent
  · rw [if_pos hp]
    refine ⟨rfl, ?_⟩
    rw [Node.children_fill]
    exact List.subset_append_left _ _
  · rw [if_neg hp]
    exact ⟨rfl, fun _ hm => hm⟩

/-- What is held is the child in its new place, or was held before. -/
theorem holds (hf : Fillable forest parent param child node inner)
    (hh : (forest.fillSlot parent param child).Holds x c) :
    (x = parent ∧ c = child) ∨ forest.Holds x c := by
  obtain ⟨left, hx, hm⟩ := hh
  by_cases hp : x = parent
  · subst hp
    rw [hf.get?_holder] at hx
    cases hx
    rw [Node.children_fill, List.mem_append] at hm
    rcases hm with hm | hm
    · exact Or.inr ⟨node, hf.holder, hm⟩
    · exact Or.inl ⟨rfl, List.mem_singleton.mp hm⟩
  · obtain ⟨n, hn, _, _, hargs⟩ := hf.origin hx
    rw [Node.children, hargs hp] at hm
    exact Or.inr ⟨n, hn, hm⟩

/-- The way up from a node that does not lie below the child is what it was. -/
theorem grounded_apart (h : Linked forest) (hf : Fillable forest parent param child node inner)
    (hg : Grounded forest x) (hb : ¬ forest.Below child x) :
    Grounded (forest.fillSlot parent param child) x := by
  induction hg with
  | root hid htop =>
      obtain ⟨left, hl, ho, _⟩ := hf.persists hid fun he => hb (he ▸ .refl)
      exact .root hl (ho ▸ htop)
  | held hid ho _ ih =>
      obtain ⟨left, hl, hlo, _⟩ := hf.persists hid fun he => hb (he ▸ .refl)
      exact .held hl (hlo ▸ ho) (ih fun hbp => hb (hbp.tail (h.up hid ho)))

/-- Every other way up goes through the child, and from there on through the holder. -/
theorem grounded (h : Linked forest) (hf : Fillable forest parent param child node inner)
    (hg : Grounded forest x) : Grounded (forest.fillSlot parent param child) x := by
  induction hg with
  | @root x top hid htop =>
      by_cases he : x = child
      · -- the child's way up now leads through the holder, which is not below it
        subst he
        exact .held hf.get?_child rfl (hf.grounded_apart h (h.grounded hf.holder) hf.apart)
      · obtain ⟨left, hl, ho, _⟩ := hf.persists hid he
        exact .root hl (ho ▸ htop)
  | @held x above top hid ho _ ih =>
      have he : x ≠ child := by
        rintro rfl
        rw [hf.there] at hid
        cases hid
        exact hf.not_held _ ho
      obtain ⟨left, hl, hlo, _⟩ := hf.persists hid he
      exact .held hl (hlo ▸ ho) ih

end Fillable

/-- **Filling an empty slot with a free node leaves a forest linked.** -/
theorem linked_fillSlot (h : Linked forest) {param : String} {node inner : Node}
    (hf : Fillable forest parent param child node inner) :
    Linked (forest.fillSlot parent param child) where
  key := by
    intro x left hx
    obtain ⟨n, hn, hid, _⟩ := hf.origin hx
    rw [hid]
    exact h.key hn
  used := by
    intro x left hx
    obtain ⟨n, hn, _⟩ := hf.origin hx
    exact h.used hn
  names := by
    intro x left hx
    by_cases hp : x = parent
    · subst hp
      rw [hf.get?_holder] at hx
      cases hx
      have hnew : param ∉ node.arguments.map Binding.param := Node.argument?_eq_none.mp hf.empty
      rw [Node.fill, List.map_append, List.map_singleton, ← List.concat_eq_append]
      exact List.Nodup.concat hnew (h.names hf.holder)
    · obtain ⟨n, hn, _, _, hargs⟩ := hf.origin hx
      rw [hargs hp]
      exact h.names hn
  nodup := by
    intro x left hx
    by_cases hp : x = parent
    · subst hp
      rw [hf.get?_holder] at hx
      cases hx
      -- no slot holds a free node
      have hnew : child ∉ node.children := not_mem_children_of_root h hf.there hf.not_held hf.holder
      rw [Node.children_fill, ← List.concat_eq_append]
      exact List.Nodup.concat hnew (h.nodup hf.holder)
    · obtain ⟨n, hn, _, _, hargs⟩ := hf.origin hx
      rw [Node.children, hargs hp]
      exact h.nodup hn
  down := by
    intro x left c hx hm
    rcases hf.holds ⟨left, hx, hm⟩ with ⟨rfl, rfl⟩ | hh
    · exact ⟨_, hf.get?_child, rfl⟩
    · obtain ⟨i, hi, ho⟩ := h.holds_iff.mp hh
      have hc : c ≠ child := by
        rintro rfl
        rw [hf.there] at hi
        cases hi
        exact hf.not_held _ ho
      obtain ⟨left, hl, hlo, _⟩ := hf.persists hi hc
      exact ⟨left, hl, hlo.trans ho⟩
  up := by
    intro x left above hx ho
    by_cases hc : x = child
    · subst hc
      rw [hf.get?_child] at hx
      cases hx
      cases ho
      exact ⟨_, hf.get?_holder, by simp⟩
    · obtain ⟨n, hn, _, howner, _⟩ := hf.origin hx
      obtain ⟨m, hm, hxm⟩ := h.up hn ((howner hc).symm.trans ho)
      -- the child keeps its slots too, though not its owner
      by_cases ha : above = child
      · subst ha
        rw [hf.there] at hm
        cases hm
        exact ⟨_, hf.get?_child, hxm⟩
      · obtain ⟨l, hl, _, hsub⟩ := hf.persists hm ha
        exact ⟨l, hl, hsub hxm⟩
  grounded := by
    intro x left hx
    obtain ⟨n, hn, _⟩ := hf.origin hx
    exact hf.grounded h (h.grounded hn)

/-! ## Removing a subtree -/

theorem grounded_removeSubtree (h : Linked forest) (hg : Grounded forest other)
    (hb : ¬ forest.Below id other) : Grounded (forest.removeSubtree id) other := by
  induction hg with
  | @root x top hid htop => exact .root ((get?_removeSubtree h).mpr ⟨hb, top, hid, rfl⟩) htop
  | @held x above top hid ho _ ih =>
      refine .held ((get?_removeSubtree h).mpr ⟨hb, top, hid, rfl⟩) ho (ih fun hba => hb ?_)
      exact hba.tail (h.up hid ho)

/-- **Removing a subtree leaves a forest linked**: nothing that is left held what is gone. -/
theorem linked_removeSubtree (h : Linked forest) (id : NodeId) :
    Linked (forest.removeSubtree id) where
  key := by
    intro x left hx
    obtain ⟨_, n, hn, rfl⟩ := (get?_removeSubtree h).mp hx
    have hk := h.key hn
    exact hk
  used := by
    intro x left hx
    obtain ⟨_, n, hn, rfl⟩ := (get?_removeSubtree h).mp hx
    rw [nextId_removeSubtree]
    exact h.used hn
  names := by
    intro x left hx
    obtain ⟨_, n, hn, rfl⟩ := (get?_removeSubtree h).mp hx
    exact (h.names hn).sublist (List.filter_sublist.map _)
  nodup := by
    intro x left hx
    obtain ⟨_, n, hn, rfl⟩ := (get?_removeSubtree h).mp hx
    rw [Node.children_release]
    exact (h.nodup hn).filter _
  down := by
    intro x left c hx hc
    obtain ⟨hb, n, hn, rfl⟩ := (get?_removeSubtree h).mp hx
    obtain ⟨hc, hne⟩ := Node.mem_children_release.mp hc
    obtain ⟨inner, hi, ho⟩ := h.down hn hc
    refine ⟨_, (get?_removeSubtree h).mpr ⟨fun hbc => ?_, inner, hi, rfl⟩, ho⟩
    -- a child is gone only together with its holder, unless it is the root of what was removed
    rcases h.below_of_holds hbc ⟨n, hn, hc⟩ with he | hbx
    · exact hne he.symm
    · exact hb hbx
  up := by
    intro x left above hx ho
    obtain ⟨hb, n, hn, rfl⟩ := (get?_removeSubtree h).mp hx
    have hold : forest.Holds above x := h.up hn ho
    have ⟨m, hm, hxm⟩ := hold
    refine ⟨_, (get?_removeSubtree h).mpr ⟨fun hba => hb (hba.tail hold), m, hm, rfl⟩, ?_⟩
    exact Node.mem_children_release.mpr ⟨hxm, fun he => hb (he ▸ .refl)⟩
  grounded := by
    intro x left hx
    obtain ⟨hb, n, hn, _⟩ := (get?_removeSubtree h).mp hx
    exact grounded_removeSubtree h (h.grounded hn) hb

/-! ## Emptying a slot -/

/-- A slot is known by its name as well as by what it holds. -/
theorem clear_eq_release (h : Linked forest) {param : String} {node : Node}
    (hp : forest.get? parent = some node) (hm : ⟨param, child⟩ ∈ node.arguments) :
    node.clear param = node.release child := by
  rw [Node.clear, Node.release]
  congr 1
  refine List.filter_congr fun binding hb => ?_
  have hiff : binding.param = param ↔ binding.child = child := by
    refine ⟨fun he => ?_, fun he => ?_⟩
    · rw [List.inj_on_of_nodup_map (h.names hp) hb hm he]
    · rw [List.inj_on_of_nodup_map (h.nodup hp) hb hm he]
  by_cases he : binding.child = child
  · rw [hiff.mpr he, he]
    simp
  · rw [bne_iff_ne.mpr he, bne_iff_ne.mpr fun hb => he (hiff.mp hb)]

/-- The forest with a slot emptied and its child set free, which is still there. -/
def loosen (forest : Forest) (parent : NodeId) (param : String) (child : NodeId) : Forest :=
  (forest.setOwner child .detached).update parent fun node => node.clear param

section Loosen

variable {param : String} {node inner : Node}

/-- No slot has to be emptied to remove a free node. -/
theorem get?_removeSubtree_free (hc : forest.get? child = some inner)
    (hd : inner.owner = .detached) :
    (forest.removeSubtree child).get? other = (prune forest.size child forest.nodes)[other]? := by
  rw [removeSubtree, hc]
  simp only [hd, unhook]
  rfl

theorem get?_loosen (h : Linked forest) (hp : forest.get? parent = some node)
    (hm : ⟨param, child⟩ ∈ node.arguments) (hc : forest.get? child = some inner) :
    (forest.loosen parent param child).get? other
      = if other = child then some { inner with owner := .detached }
        else (forest.get? other).map fun n => n.release child := by
  have hholds : forest.Holds parent child := ⟨node, hp, Node.mem_children.mpr ⟨_, hm, rfl⟩⟩
  have hne : child ≠ parent := fun he => h.not_below_of_holds hholds (he ▸ .refl)
  rw [loosen, get?_update, get?_setOwner]
  by_cases hx : other = child
  · subst hx
    rw [if_neg hne, if_pos rfl, if_pos rfl, hc]
    rfl
  rw [if_neg hx, if_neg hx]
  by_cases hxp : other = parent
  · rw [if_pos hxp, hxp, hp, Option.map_some, Option.map_some, clear_eq_release h hp hm]
  rw [if_neg hxp]
  -- no other node holds the child, so there is nothing to let go of
  cases hn : forest.get? other with
  | none => rfl
  | some n =>
      rw [Option.map_some, Node.release_of_not_mem]
      intro hmem
      exact hxp (h.holds_unique ⟨n, hn, hmem⟩ hholds)

theorem holds_loosen (h : Linked forest) (hp : forest.get? parent = some node)
    (hm : ⟨param, child⟩ ∈ node.arguments) (hc : forest.get? child = some inner) (x y : NodeId) :
    (forest.loosen parent param child).Holds x y ↔ forest.Holds x y ∧ y ≠ child := by
  -- the child keeps its own slots, and it is not in one of them
  have hself : child ∉ inner.children := fun hmem =>
    h.not_below_of_holds ⟨inner, hc, hmem⟩ .refl
  unfold Holds
  rw [get?_loosen h hp hm hc]
  by_cases hx : x = child
  · subst hx
    rw [if_pos rfl, hc]
    refine ⟨fun ⟨n, hn, hy⟩ => ?_, fun ⟨⟨n, hn, hy⟩, _⟩ => ?_⟩
    · have hy' : y ∈ inner.children := by
        rw [← Option.some.inj hn] at hy
        exact hy
      exact ⟨⟨inner, rfl, hy'⟩, fun he => hself (he ▸ hy')⟩
    · cases hn
      exact ⟨_, rfl, hy⟩
  · rw [if_neg hx]
    cases forest.get? x with
    | none => simp
    | some n => simp [Node.mem_children_release]

/-- **What a slot holds is removed in the same way, whether one starts from the slot or from the
node.** -/
theorem vacate_eq_removeSubtree (h : Linked forest) (hp : forest.get? parent = some node)
    (ha : node.argument? param = some child) :
    forest.vacate parent param = forest.removeSubtree child := by
  have hm : ⟨param, child⟩ ∈ node.arguments := Node.mem_of_argument? ha
  obtain ⟨inner, hc, _⟩ := h.down hp (Node.mem_children.mpr ⟨_, hm, rfl⟩)
  have hchild : (forest.loosen parent param child).get? child
      = some { inner with owner := .detached } := by
    rw [get?_loosen h hp hm hc, if_pos rfl]
  have hvacate : forest.vacate parent param
      = (forest.loosen parent param child).removeSubtree child := by
    rw [vacate, hp, Option.bind_some, ha]
    rfl
  refine ext_get? (fun x => Option.ext fun left => ?_) ?_
  · -- loosening does not change what is below the child, so the same nodes go
    rw [hvacate, get?_removeSubtree_free hchild rfl, getElem?_prune (Nat.le_refl _),
      get?_removeSubtree h, get?_loosen h hp hm hc,
      below_of_holds_iff h (holds_loosen h hp hm hc), and_comm]
    refine and_congr_right fun hb => ?_
    have hx : x ≠ child := fun he => hb (he ▸ .refl)
    rw [if_neg hx, Option.map_eq_some_iff]
  · rw [hvacate, nextId_removeSubtree, nextId_removeSubtree]
    rfl

end Loosen

theorem vacate_of_empty {param : String} {node : Node} (hp : forest.get? parent = some node)
    (ha : node.argument? param = none) : forest.vacate parent param = forest := by
  rw [vacate, hp, Option.bind_some, ha]

/-! ## Changes that leave slots and holders alone -/

/-- The part of a node that links it to others. -/
def joints (node : Node) : NodeId × List Binding × Option NodeId :=
  (node.id, node.arguments, node.owner.holder?)

theorem holder?_eq_some {owner : Owner} : owner.holder? = some id ↔ owner = .argument id := by
  cases owner <;> simp [Owner.holder?]

theorem joints_eq {node left : Node} :
    joints left = joints node ↔ left.id = node.id ∧ left.arguments = node.arguments ∧
      ∀ above, left.owner = .argument above ↔ node.owner = .argument above := by
  simp only [joints, Prod.mk.injEq, ← holder?_eq_some]
  refine and_congr_right fun _ => and_congr_right fun _ => ⟨fun he above => ?_, fun hall => ?_⟩
  · rw [he]
  · exact Option.ext hall

/-- What is in one of the forests has its like in the other. -/
theorem exists_joints {f g : Forest}
    (hsame : ∀ id, (g.get? id).map joints = (f.get? id).map joints) {left : Node}
    (hl : g.get? id = some left) :
    ∃ node, f.get? id = some node ∧ left.id = node.id ∧ left.arguments = node.arguments ∧
      ∀ above, left.owner = .argument above ↔ node.owner = .argument above := by
  have hs := hsame id
  rw [hl, Option.map_some] at hs
  obtain ⟨node, hn, hj⟩ := Option.map_eq_some_iff.mp hs.symm
  exact ⟨node, hn, joints_eq.mp hj.symm⟩

theorem linked_congr {f g : Forest} (h : Linked f) (hnext : g.nextId = f.nextId)
    (hsame : ∀ id, (g.get? id).map joints = (f.get? id).map joints) : Linked g where
  key := by
    intro id left hl
    obtain ⟨node, hn, hid, _⟩ := exists_joints hsame hl
    exact hid.trans (h.key hn)
  used := by
    intro id left hl
    obtain ⟨node, hn, _⟩ := exists_joints hsame hl
    rw [hnext]
    exact h.used hn
  names := by
    intro id left hl
    obtain ⟨node, hn, _, ha, _⟩ := exists_joints hsame hl
    rw [ha]
    exact h.names hn
  nodup := by
    intro id left hl
    obtain ⟨node, hn, _, ha, _⟩ := exists_joints hsame hl
    rw [Node.children, ha]
    exact h.nodup hn
  down := by
    intro above left c hl hc
    obtain ⟨node, hn, _, ha, _⟩ := exists_joints hsame hl
    rw [Node.children, ha] at hc
    obtain ⟨inner, hi, ho⟩ := h.down hn hc
    obtain ⟨l, hl', _, _, hown⟩ := exists_joints (fun id => (hsame id).symm) hi
    exact ⟨l, hl', (hown above).mp ho⟩
  up := by
    intro c left above hl ho
    obtain ⟨node, hn, _, _, hown⟩ := exists_joints hsame hl
    obtain ⟨m, hm, hc⟩ := h.up hn ((hown above).mp ho)
    obtain ⟨l, hl', _, ha, _⟩ := exists_joints (fun id => (hsame id).symm) hm
    exact ⟨l, hl', by rw [Node.children, ← ha]; exact hc⟩
  grounded := by
    intro id left hl
    obtain ⟨node, hn, _⟩ := exists_joints hsame hl
    -- the way up passes through the owners only, which are the same
    have hg := h.grounded hn
    clear hl hn
    induction hg with
    | root hid htop =>
        obtain ⟨l, hl, _, _, hown⟩ := exists_joints (fun id => (hsame id).symm) hid
        exact .root hl fun above ha => htop above ((hown above).mpr ha)
    | held hid ho _ ih =>
        obtain ⟨l, hl, _, _, hown⟩ := exists_joints (fun id => (hsame id).symm) hid
        exact .held hl ((hown _).mp ho) ih

/-- Changing a node so that its number, slots and holder stay leaves a forest linked. -/
theorem linked_update (h : Linked forest) {f : Node → Node}
    (hf : ∀ node, forest.get? id = some node → joints (f node) = joints node) :
    Linked (forest.update id f) := by
  refine linked_congr h (nextId_update f) fun x => ?_
  rw [get?_update]
  split
  · rename_i he
    subst he
    cases hn : forest.get? x with
    | none => rfl
    | some node => rw [Option.map_some, Option.map_some, hf node hn]; rfl
  · rfl

end Forest

end Rulebook
