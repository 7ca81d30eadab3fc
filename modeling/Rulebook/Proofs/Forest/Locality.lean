import Rulebook.Proofs.Forest.Extends
import Rulebook.Proofs.TreeEdits

/-!
# Edits of one tree of a forest

Every node stands at one path below one root. An edit touches one node: it puts
a literal into it, empties a slot of it, fills one. What goes with an emptied
slot lay below the node, and what comes into a slot was a root of its own, so
outside the tree of the node there is nothing to be seen of the edit, and inside
it nothing beside the path to the node.

`ChangedAt` says this of nodes, one lemma for each of the edits establishes it,
and `TreeEdit` says what it comes to for trees.
-/

namespace Rulebook

/-- The nodes are of the same sort, whatever they carry and hold. -/
structure Node.Persists (node left : Node) : Prop where
  id : left.id = node.id
  variant : left.variant = node.variant
  kind : left.kind = node.kind
  result : left.result = node.result

namespace Forest

open Attempt

variable {forest after : Forest} {root x y child old : NodeId} {path : Path} {param : String}
  {registry : Registry} {node : Node} {tree : NodeTree} {gone taken : Option NodeId}
  {f : NodeTree → NodeTree}

/-! ## Roots and places -/

/-- The node is free or owned by a trigger. -/
def IsRoot (forest : Forest) (id : NodeId) : Prop :=
  ∃ node, forest.get? id = some node ∧ (node.owner = .detached ∨ ∃ t, node.owner = .trigger t)

/-- The node that the path leads to, slot by slot. -/
def follow? (forest : Forest) : Path → NodeId → Option NodeId
  | [], id => some id
  | name :: rest, id =>
    ((forest.get? id).bind fun node => node.argument? name).bind (forest.follow? rest)

theorem IsRoot.not_held (hr : forest.IsRoot root) (hn : forest.get? root = some node)
    (parent : NodeId) : node.owner ≠ .argument parent := by
  obtain ⟨found, hf, ho⟩ := hr
  rw [hn] at hf
  cases hf
  rcases ho with ho | ⟨t, ho⟩
  · simp [ho]
  · simp [ho]

theorem isRoot_of_not_held (hn : forest.get? root = some node)
    (ho : ∀ parent, node.owner ≠ .argument parent) : forest.IsRoot root := by
  refine ⟨node, hn, ?_⟩
  cases hown : node.owner with
  | detached => exact Or.inl rfl
  | argument parent => exact absurd hown (ho parent)
  | trigger t => exact Or.inr ⟨t, rfl⟩

theorem IsRoot.eq_of_below (hl : Linked forest) (hr : forest.IsRoot root)
    (hb : forest.Below x root) : x = root := by
  obtain ⟨node, hn, _⟩ := id hr
  exact hl.eq_of_below_root hn (hr.not_held hn) hb

theorem IsRoot.not_holds (hl : Linked forest) (hr : forest.IsRoot root) (parent : NodeId) :
    ¬ forest.Holds parent root := by
  intro hh
  obtain ⟨node, hn, hc⟩ := hh
  obtain ⟨inner, hi, ho⟩ := hl.down hn hc
  exact hr.not_held hi parent ho

theorem follow?_cons {rest : Path} :
    forest.follow? (param :: rest) root = some x ↔
      ∃ node child, forest.get? root = some node ∧ node.argument? param = some child ∧
        forest.follow? rest child = some x := by
  rw [follow?]
  simp only [Option.bind_eq_some_iff]
  constructor
  · intro h
    obtain ⟨child, ⟨node, hn, ha⟩, hrest⟩ := h
    exact ⟨node, child, hn, ha, hrest⟩
  · intro h
    obtain ⟨node, child, hn, ha, hrest⟩ := h
    exact ⟨child, ⟨node, hn, ha⟩, hrest⟩

theorem follow?_append {rest : Path} :
    forest.follow? (path ++ rest) root = (forest.follow? path root).bind (forest.follow? rest) := by
  induction path generalizing root with
  | nil => rfl
  | cons name path ih =>
      rw [List.cons_append, follow?, follow?]
      cases (forest.get? root).bind fun node => node.argument? name with
      | none => rfl
      | some child => exact ih

theorem below_of_follow? (h : forest.follow? path root = some x) : forest.Below root x := by
  induction path generalizing root with
  | nil => exact Option.some.inj h ▸ .refl
  | cons name rest ih =>
      obtain ⟨node, child, hn, ha, hrest⟩ := follow?_cons.mp h
      exact .head (holds_of_argument? hn ha) (ih hrest)

/-- Every node stands at a path below a root. -/
theorem Linked.exists_place (h : Linked forest) (hn : forest.get? x = some node) :
    ∃ root path, forest.IsRoot root ∧ forest.follow? path root = some x := by
  have hg := h.grounded hn
  clear hn
  induction hg with
  | @root id node hn hroot => exact ⟨id, [], isRoot_of_not_held hn hroot, rfl⟩
  | @held id parent node hn ho _ ih =>
      obtain ⟨root, path, hr, hp⟩ := ih
      obtain ⟨holder, hh, hc⟩ := h.up hn ho
      obtain ⟨binding, hb, he⟩ := Node.mem_children.mp hc
      refine ⟨root, path ++ [binding.param], hr, ?_⟩
      rw [follow?_append, hp, Option.bind_some]
      refine follow?_cons.mpr ⟨holder, id, hh, ?_, rfl⟩
      rw [Node.argument?_of_mem (h.names hh) hb, he]

/-- Of two nodes above a third, one is above the other. -/
theorem Linked.comparable (h : Linked forest) (hx : forest.Below x child)
    (hy : forest.Below y child) : forest.Below x y ∨ forest.Below y x := by
  have hup : Relator.RightUnique (Function.swap forest.Holds) :=
    fun _ _ _ hp hq => h.holds_unique hp hq
  rcases Relation.ReflTransGen.total_of_right_unique hup
    (Relation.reflTransGen_swap.mpr hx) (Relation.reflTransGen_swap.mpr hy) with hb | hb
  · exact Or.inr (Relation.reflTransGen_swap.mp hb)
  · exact Or.inl (Relation.reflTransGen_swap.mp hb)

/-- Different nodes that one node holds have nothing in common below them. -/
theorem Linked.siblings_apart (h : Linked forest) {parent other : NodeId}
    (hp : forest.Holds parent child) (ho : forest.Holds parent other) (hne : child ≠ other)
    (hx : forest.Below child x) : ¬ forest.Below other x := by
  intro hy
  rcases h.comparable hx hy with hb | hb
  · rcases h.below_of_holds hb ho with he | hb
    · exact hne he
    · exact h.not_below_of_holds hp hb
  · rcases h.below_of_holds hb hp with he | hb
    · exact hne he.symm
    · exact h.not_below_of_holds ho hb

/-- A node lies below one root only. -/
theorem IsRoot.unique (hl : Linked forest) {other : NodeId} (hr : forest.IsRoot root)
    (ho : forest.IsRoot other) (hx : forest.Below root x) (hy : forest.Below other x) :
    root = other := by
  rcases hl.comparable hx hy with hb | hb
  · exact ho.eq_of_below hl hb
  · exact (hr.eq_of_below hl hb).symm

/-- What is in different slots of a node differs. -/
theorem Linked.argument?_inj (h : Linked forest) {other : String}
    (hn : forest.get? x = some node) (ha : node.argument? param = some child)
    (hb : node.argument? other = some child) : param = other := by
  have he := List.inj_on_of_nodup_map (h.nodup hn) (Node.mem_of_argument? ha)
    (Node.mem_of_argument? hb) rfl
  exact congrArg Binding.param he

/-- From one node only one path leads to another. -/
theorem Linked.follow?_inj (h : Linked forest) {other : Path}
    (hp : forest.follow? path root = some x) (ho : forest.follow? other root = some x) :
    path = other := by
  -- a node that holds another does not lie below it
  have hback : ∀ {top name rest}, top = x → forest.follow? (name :: rest) top ≠ some x := by
    intro top name rest he hrest
    obtain ⟨node, child, hn, ha, hrest⟩ := follow?_cons.mp hrest
    exact h.not_below_of_holds (holds_of_argument? hn ha) (he ▸ below_of_follow? hrest)
  induction path generalizing root other with
  | nil =>
      cases other with
      | nil => rfl
      | cons name rest => exact absurd ho (hback (Option.some.inj hp))
  | cons name rest ih =>
      cases other with
      | nil => exact absurd hp (hback (Option.some.inj ho))
      | cons first others =>
          obtain ⟨node, child, hn, ha, hrest⟩ := follow?_cons.mp hp
          obtain ⟨node', twin, hn', hb, hothers⟩ := follow?_cons.mp ho
          rw [hn] at hn'
          cases hn'
          have hsame : child = twin := by
            by_contra hne
            exact h.siblings_apart (holds_of_argument? hn ha) (holds_of_argument? hn hb) hne
              (below_of_follow? hrest) (below_of_follow? hothers)
          subst hsame
          rw [h.argument?_inj hn ha hb, ih hrest hothers]

/-- **Every node has one place**: the root that it lies below, and the path to it from there. -/
theorem Linked.existsUnique_place (h : Linked forest) (hn : forest.get? x = some node) :
    ∃! place : NodeId × Path,
      forest.IsRoot place.1 ∧ forest.follow? place.2 place.1 = some x := by
  obtain ⟨root, path, hr, hp⟩ := h.exists_place hn
  refine ⟨(root, path), ⟨hr, hp⟩, fun place hplace => ?_⟩
  obtain ⟨other, rest⟩ := place
  obtain ⟨ho, hrest⟩ := hplace
  obtain rfl : other = root :=
    ho.unique h hr (below_of_follow? hrest) (below_of_follow? hp)
  have hpath : rest = path := h.follow?_inj hrest hp
  rw [hpath]

/-! ## What a node shows, slot by slot -/

/-- A tree whose slots are shown by what the node has in its slots is shown by the node. -/
theorem Shows.of_slots (hl : Linked forest) (hn : forest.get? x = some node)
    (htop : (tree.variant, tree.literal) = (node.variant, node.literal))
    (hs : (tree.arguments.map Prod.fst).Pairwise (· < ·))
    (hnone : ∀ name, node.argument? name = none → tree.arguments.lookup name = none)
    (hsome : ∀ name child, node.argument? name = some child →
      ∃ inner, tree.arguments.lookup name = some inner ∧ Shows forest child inner) :
    Shows forest x tree := by
  obtain ⟨shown, hshown⟩ := hl.exists_shows hn
  have h := hl.snapshot_iff.mp hshown
  -- the tree that is shown has the same slots, both being in order of name
  have hslots : tree.arguments = shown.arguments := by
    refine NodeTree.eq_of_lookup hs (h.ordered hl).slots fun name => ?_
    cases ha : node.argument? name with
    | none => rw [hnone name ha, (h.lookup_eq_none hl hn).mpr ha]
    | some child =>
        obtain ⟨inner, hi, hc⟩ := hsome name child ha
        rw [hi, (h.lookup hl hn).mpr ⟨child, ha, hc⟩]
  have heq : tree = shown := by
    obtain ⟨variant, literal, arguments⟩ := tree
    obtain ⟨variant', literal', arguments'⟩ := shown
    obtain ⟨rfl, rfl⟩ := Prod.mk.inj (htop.trans (h.top hn).symm)
    obtain rfl : arguments = arguments' := hslots
    rfl
  exact heq ▸ h

/-! ## Changes at one node -/

/-- Two forests differ in what one node carries and holds. With it went what lay below a node
that it held, and a free node may have come to be held by it. -/
structure ChangedAt (forest : Forest) (x : NodeId) (gone taken : Option NodeId)
    (after : Forest) : Prop where
  linked : Linked after
  held : ∀ old ∈ gone, forest.Holds x old
  free : ∀ child ∈ taken, ¬ forest.Below child x ∧
    ∃ node, forest.get? child = some node ∧ node.owner = .detached
  owned : ∀ child ∈ taken, ∃ left, after.get? child = some left ∧ left.owner = .argument x
  /-- What is not gone is still there, and only the node itself looks different. -/
  keeps : ∀ {y node}, forest.get? y = some node → (∀ old ∈ gone, ¬ forest.Below old y) →
    ∃ left, after.get? y = some left ∧ node.Persists left ∧
      (y ∉ taken → left.owner = node.owner) ∧ (y ≠ x → node.Alike left)
  /-- Nothing is new, and what is gone is gone. -/
  origin : ∀ {y left}, after.get? y = some left →
    ∃ node, forest.get? y = some node ∧ ∀ old ∈ gone, ¬ forest.Below old y

namespace ChangedAt

/-- What shows a tree off the changed node and off what is gone shows it still. -/
theorem shows (h : ChangedAt forest x gone taken after) (hs : Shows forest y tree)
    (hoff : ∀ z, forest.Below y z → z ≠ x ∧ ∀ old ∈ gone, ¬ forest.Below old z) :
    Shows after y tree := by
  refine hs.frame fun z node hz hn => ?_
  obtain ⟨hne, hnot⟩ := hoff z hz
  obtain ⟨left, hl, _, _, halike⟩ := h.keeps hn hnot
  exact ⟨left, hl, halike hne⟩

/-- That is so of every tree that has nothing in common with the tree of the node. -/
theorem shows_apart (h : ChangedAt forest x gone taken after) (hs : Shows forest y tree)
    (hoff : ∀ z, forest.Below y z → ¬ forest.Below x z) : Shows after y tree := by
  refine h.shows hs fun z hz => ⟨?_, fun old ho hb => ?_⟩
  · rintro rfl
    exact hoff _ hz .refl
  · exact hoff z hz (.head (h.held old ho) hb)

/-- It is so of what stays in the slots of the node. -/
theorem shows_held (h : ChangedAt forest x gone taken after) (hl : Linked forest)
    (hs : Shows forest child tree) (hc : forest.Holds x child) (hne : child ∉ gone) :
    Shows after child tree := by
  refine h.shows hs fun z hz => ⟨?_, fun old ho hb => ?_⟩
  · rintro rfl
    exact hl.not_below_of_holds hc hz
  · refine hl.siblings_apart hc (h.held old ho) ?_ hz hb
    rintro rfl
    exact hne ho

/-- And of what comes into a slot of the node. -/
theorem shows_taken (h : ChangedAt forest x gone taken after) (hl : Linked forest)
    (hs : Shows forest child tree) (hc : child ∈ taken) : Shows after child tree := by
  obtain ⟨hnot, node, hn, hd⟩ := h.free child hc
  refine h.shows_apart hs fun z hz hb => ?_
  rcases hl.comparable hz hb with hbelow | hbelow
  · exact hnot hbelow
  · -- nothing lies above a free node
    have he := hl.eq_of_below_root hn (by simp [hd]) hbelow
    exact hnot (he ▸ .refl)

/-- **What changes at the end of a path changes the tree at that path, and there only.** -/
theorem shows_modifyAt (h : ChangedAt forest x gone taken after) (hl : Linked forest)
    (htop : ∀ part, Shows forest x part → Shows after x (f part))
    (hp : forest.follow? path root = some x) (hs : Shows forest root tree) :
    Shows after root (tree.modifyAt f path) := by
  induction path generalizing root tree with
  | nil =>
      cases hp
      exact htop tree hs
  | cons name rest ih =>
      obtain ⟨node, child, hn, ha, hrest⟩ := follow?_cons.mp hp
      have hholds := holds_of_argument? hn ha
      have hbelow := below_of_follow? hrest
      -- the node above is not the changed one, nor is it gone
      have hne : root ≠ x := by
        rintro rfl
        exact hl.not_below_of_holds hholds hbelow
      have hstays : ∀ old ∈ gone, ¬ forest.Below old root := fun old ho hb =>
        hl.not_below_of_holds (h.held old ho) ((hb.tail hholds).trans hbelow)
      obtain ⟨left, hleft, _, _, halike⟩ := h.keeps hn hstays
      have halike := halike hne
      have hslot : ∀ param, left.argument? param = node.argument? param := fun param => by
        rw [Node.argument?, Node.argument?, halike.arguments]
      refine .of_slots h.linked hleft ?_ ?_ ?_ ?_
      · rw [halike.variant, halike.literal]
        exact hs.top hn
      · rw [NodeTree.names_modifyAt]
        exact (hs.ordered hl).slots
      · intro param hnone
        rw [hslot] at hnone
        rw [NodeTree.lookup_modifyAt, (hs.lookup_eq_none hl hn).mpr hnone]
        split <;> rfl
      · intro param c hc
        rw [hslot] at hc
        obtain ⟨inner, hlookup, hi⟩ := hs.exists_inner hl hn hc
        rw [NodeTree.lookup_modifyAt, hlookup]
        by_cases hname : param = name
        · -- the slot that the path goes through
          subst hname
          rw [ha] at hc
          cases hc
          rw [if_pos rfl]
          exact ⟨_, rfl, ih hrest hi⟩
        · rw [if_neg hname]
          refine ⟨inner, rfl, h.shows_apart hi fun z hz hb => ?_⟩
          have hdiff : c ≠ child := by
            rintro rfl
            exact hname (hl.argument?_inj hn hc ha)
          exact hl.siblings_apart (holds_of_argument? hn hc) hholds hdiff hz (hbelow.trans hb)

end ChangedAt

/-! ## The edits -/

/-- What is in a slot of a node. -/
theorem follow?_slot (hn : forest.get? x = some node) :
    forest.follow? [param] x = node.argument? param := by
  rw [follow?, hn, Option.bind_some]
  cases node.argument? param <;> rfl

theorem changedAt_relabel (h : Linked forest) (literal : Literal) :
    ChangedAt forest x none none
      (forest.update x fun node => { node with literal := some literal }) where
  linked := linked_update h fun _ _ => rfl
  held := by simp
  free := by simp
  owned := by simp
  keeps := by
    intro y node hn _
    rw [get?_update, hn]
    split
    · rename_i he
      exact ⟨_, rfl, ⟨rfl, rfl, rfl, rfl⟩, fun _ => rfl, fun hne => absurd he hne⟩
    · exact ⟨_, rfl, ⟨rfl, rfl, rfl, rfl⟩, fun _ => rfl, fun _ => ⟨rfl, rfl, rfl⟩⟩
  origin := by
    intro y left hl
    rw [get?_update] at hl
    split at hl
    · obtain ⟨node, hn, _⟩ := Option.map_eq_some_iff.mp hl
      exact ⟨node, hn, by simp⟩
    · exact ⟨left, hl, by simp⟩

theorem shows_relabel (h : Linked forest) {literal : Literal} (hs : Shows forest x tree) :
    Shows (forest.update x fun node => { node with literal := some literal }) x
      (tree.withLiteral literal) := by
  have hchanged := changedAt_relabel (x := x) h literal
  obtain ⟨node, filled, hn, hf, rfl⟩ := Shows.iff_slots.mp hs
  refine Shows.iff_slots.mpr ⟨{ node with literal := some literal }, filled, ?_, ?_, rfl⟩
  · rw [get?_update, if_pos rfl, hn]
    rfl
  · have hall : ∀ binding ∈ node.arguments, forest.Holds x binding.child := fun binding hb =>
      ⟨node, hn, Node.mem_children.mpr ⟨binding, hb, rfl⟩⟩
    refine (SideBySide.with_mem hf.flip).flip.imp fun binding pair hpair => ?_
    obtain ⟨hb, hname, hshows⟩ := hpair
    exact ⟨hname, hchanged.shows_held h hshows (hall binding hb) (by simp)⟩

/-- **What is left when a slot is emptied**, whether anything was in it or not. -/
theorem get?_vacate (h : Linked forest) (hn : forest.get? x = some node) {left : Node} :
    (forest.vacate x param).get? y = some left ↔
      (∀ old ∈ node.argument? param, ¬ forest.Below old y) ∧
        ∃ n, forest.get? y = some n ∧ (if y = x then n.clear param else n) = left := by
  cases ha : node.argument? param with
  | none =>
      rw [vacate_of_empty hn ha]
      have hsame : ∀ n, forest.get? y = some n → (if y = x then n.clear param else n) = n := by
        intro n hy
        split
        · rename_i he
          rw [he, hn] at hy
          cases hy
          exact Node.clear_of_empty ha
        · rfl
      constructor
      · exact fun hy => ⟨by simp, left, hy, hsame left hy⟩
      · intro hw
        obtain ⟨_, n, hy, rfl⟩ := hw
        rw [hsame n hy]
        exact hy
  | some old =>
      have hholds := holds_of_argument? hn ha
      have hsame : ∀ n, forest.get? y = some n →
          (if y = x then n.clear param else n) = n.release old := by
        intro n hy
        split
        · rename_i he
          rw [he, hn] at hy
          cases hy
          exact clear_eq_release h hn (Node.mem_of_argument? ha)
        · rename_i hne
          -- no other node holds the old child
          refine (Node.release_of_not_mem fun hc => hne ?_).symm
          exact h.holds_unique ⟨n, hy, hc⟩ hholds
      rw [vacate_eq_removeSubtree h hn ha, get?_removeSubtree h]
      simp only [Option.mem_some_iff, forall_eq']
      refine and_congr_right fun _ => exists_congr fun n => and_congr_right fun hy => ?_
      rw [hsame n hy]

theorem linked_vacate (h : Linked forest) (hn : forest.get? x = some node) :
    Linked (forest.vacate x param) := by
  have hcases : forest.vacate x param = forest ∨ ∃ old, forest.Holds x old ∧
      forest.vacate x param = forest.removeSubtree old := vacate_cases h hn
  rcases hcases with he | ⟨old, _, he⟩
  · rw [he]
    exact h
  · rw [he]
    exact linked_removeSubtree h old

/-- What is below a node when a slot was emptied was below it before. -/
theorem below_of_vacate (h : Linked forest) (hn : forest.get? x = some node) {z : NodeId}
    (hb : (forest.vacate x param).Below y z) : forest.Below y z := by
  refine Relation.ReflTransGen.mono ?_ _ _ hb
  intro a b hholds
  obtain ⟨left, hl, hc⟩ := hholds
  obtain ⟨_, n, ha, rfl⟩ := (get?_vacate h hn).mp hl
  refine ⟨n, ha, ?_⟩
  split at hc
  · exact Node.children_clear_subset hc
  · exact hc

/-- A node does not go with what was in one of its slots. -/
theorem get?_vacate_self (h : Linked forest) (hn : forest.get? x = some node) :
    (forest.vacate x param).get? x = some (node.clear param) := by
  refine (get?_vacate h hn).mpr ⟨fun old ho hb => ?_, node, hn, if_pos rfl⟩
  exact h.not_below_of_holds (holds_of_argument? hn ho) hb

theorem changedAt_vacate (param : String) (h : Linked forest)
    (hn : forest.get? x = some node) :
    ChangedAt forest x (node.argument? param) none (forest.vacate x param) where
  linked := linked_vacate h hn
  held _ ho := holds_of_argument? hn ho
  free := by simp
  owned := by simp
  keeps := by
    intro y n hy hnot
    refine ⟨_, (get?_vacate h hn).mpr ⟨hnot, n, hy, rfl⟩, ?_⟩
    split
    · rename_i he
      exact ⟨⟨rfl, rfl, rfl, rfl⟩, fun _ => rfl, fun hne => absurd he hne⟩
    · exact ⟨⟨rfl, rfl, rfl, rfl⟩, fun _ => rfl, fun _ => ⟨rfl, rfl, rfl⟩⟩
  origin := by
    intro y left hl
    obtain ⟨hnot, n, hy, _⟩ := (get?_vacate h hn).mp hl
    exact ⟨n, hy, hnot⟩

theorem shows_vacate (h : Linked forest) (hn : forest.get? x = some node)
    (hs : Shows forest x tree) :
    Shows (forest.vacate x param) x (tree.withoutArgument param) := by
  have hchanged := changedAt_vacate param h hn
  have htop := hs.top hn
  refine .of_slots hchanged.linked (get?_vacate_self h hn) htop
    (NodeTree.without_ordered (hs.ordered h).slots) ?_ ?_
  · intro name hnone
    rw [Node.argument?_clear] at hnone
    rw [NodeTree.withoutArgument, NodeTree.lookup_without]
    split at hnone
    · rename_i he
      rw [if_pos he]
    · rename_i hne
      rw [if_neg hne]
      exact (hs.lookup_eq_none h hn).mpr hnone
  · intro name child hc
    rw [Node.argument?_clear] at hc
    rw [NodeTree.withoutArgument, NodeTree.lookup_without]
    split at hc
    · exact absurd hc (by simp)
    · rename_i hne
      obtain ⟨inner, hlookup, hi⟩ := hs.exists_inner h hn hc
      rw [if_neg hne]
      -- another slot holds another child, which keeps its subtree
      refine ⟨inner, hlookup, hchanged.shows_held h hi (holds_of_argument? hn hc) ?_⟩
      exact fun hgone => hne (h.argument?_inj hn hc hgone)

section Fill

variable {inner : Node}

/-- A free node is not gone with what was in a slot. -/
theorem get?_vacate_free (h : Linked forest) (hn : forest.get? x = some node)
    (hc : forest.get? child = some inner) (hd : inner.owner = .detached) (hne : child ≠ x) :
    (forest.vacate x param).get? child = some inner := by
  refine (get?_vacate h hn).mpr ⟨fun old ho hb => ?_, inner, hc, if_neg hne⟩
  have he := h.eq_of_below_root hc (by simp [hd]) hb
  obtain ⟨found, hf, hown⟩ := h.holds_iff.mp (holds_of_argument? hn ho)
  rw [he, hc] at hf
  cases hf
  exact absurd hown (by simp [hd])

/-- What is put into a slot takes the place of what was in it. -/
theorem changedAt_fill (param : String) (h : Linked forest) (hn : forest.get? x = some node)
    (hc : forest.get? child = some inner) (hd : inner.owner = .detached)
    (hnb : ¬ forest.Below child x) :
    ChangedAt forest x (node.argument? param) (some child)
      ((forest.vacate x param).fillSlot x param child) := by
  have hne : x ≠ child := ne_of_not_below hnb
  have hv := changedAt_vacate param h hn
  have hfill : Fillable (forest.vacate x param) x param child (node.clear param) inner := by
    refine ⟨get?_vacate_self h hn, ?_, get?_vacate_free h hn hc hd hne.symm, hd, fun hb => ?_⟩
    · rw [Node.argument?_clear, if_pos rfl]
    · exact hnb (below_of_vacate h hn hb)
  refine ⟨linked_fillSlot hv.linked hfill, hv.held, ?_, ?_, ?_, ?_⟩
  · intro c hm
    cases hm
    exact ⟨hnb, inner, hc, hd⟩
  · intro c hm
    cases hm
    exact ⟨_, hfill.get?_child, rfl⟩
  · intro y n hy hnot
    obtain ⟨mid, hm, hp, ho, ha⟩ := hv.keeps hy hnot
    refine ⟨_, (get?_fillSlot_iff hne).mpr ⟨mid, hm, rfl⟩, ?_⟩
    -- the holder, the child, and any other node
    by_cases hyx : y = x
    · rw [if_pos hyx]
      exact ⟨⟨hp.id, hp.variant, hp.kind, hp.result⟩, fun _ => ho (by simp),
        fun hne => absurd hyx hne⟩
    rw [if_neg hyx]
    have halike := ha hyx
    by_cases hyc : y = child
    · rw [if_pos hyc]
      exact ⟨⟨hp.id, hp.variant, hp.kind, hp.result⟩, fun hnot => absurd (hyc ▸ rfl) hnot,
        fun _ => ⟨halike.variant, halike.literal, halike.arguments⟩⟩
    · rw [if_neg hyc]
      exact ⟨hp, fun _ => ho (by simp), ha⟩
  · intro y left hy
    obtain ⟨mid, hm, _⟩ := (get?_fillSlot_iff hne).mp hy
    exact hv.origin hm

theorem shows_fill (h : Linked forest) (hn : forest.get? x = some node)
    (hc : forest.get? child = some inner) (hd : inner.owner = .detached)
    (hnb : ¬ forest.Below child x) (hs : Shows forest x tree) {argument : NodeTree}
    (ha : Shows forest child argument) :
    Shows ((forest.vacate x param).fillSlot x param child) x
      (tree.withArgument param argument) := by
  have hne : x ≠ child := ne_of_not_below hnb
  have hchanged := changedAt_fill param h hn hc hd hnb
  have hempty : (node.clear param).argument? param = none := by
    rw [Node.argument?_clear, if_pos rfl]
  have hself : ((forest.vacate x param).fillSlot x param child).get? x
      = some ((node.clear param).fill param child) :=
    (get?_fillSlot_iff hne).mpr ⟨_, get?_vacate_self h hn, if_pos rfl⟩
  have htop := hs.top hn
  refine .of_slots hchanged.linked hself htop
    (NodeTree.fill_ordered (hs.ordered h).slots).1 ?_ ?_
  · intro name hnone
    rw [Node.argument?_fill hempty, Node.argument?_clear] at hnone
    rw [NodeTree.withArgument, NodeTree.lookup_fill]
    split at hnone
    · exact absurd hnone (by simp)
    · rename_i hname
      rw [if_neg hname]
      exact (hs.lookup_eq_none h hn).mpr hnone
  · intro name c hin
    rw [Node.argument?_fill hempty, Node.argument?_clear] at hin
    rw [NodeTree.withArgument, NodeTree.lookup_fill]
    split at hin
    · rename_i hname
      cases hin
      rw [if_pos hname]
      exact ⟨argument, rfl, hchanged.shows_taken h ha rfl⟩
    · rename_i hname
      rw [if_neg hname]
      obtain ⟨sub, hlookup, hi⟩ := hs.exists_inner h hn hin
      -- what was in any other slot was not the child that left
      refine ⟨sub, hlookup, hchanged.shows_held h hi (holds_of_argument? hn hin) ?_⟩
      exact fun hgone => hname (h.argument?_inj hn hin hgone)

end Fill

/-! ## What an edit comes to -/

/-- Of all trees of a forest one has changed, at one path. What lay below the one node is gone,
and another has lost its place among the roots. -/
structure TreeEdit (forest : Forest) (root : NodeId) (path : Path) (f : NodeTree → NodeTree)
    (gone taken : Option NodeId) (after : Forest) : Prop where
  /-- The path leads to a part of the tree of the root, and that part is what has changed. -/
  tree : ∃ tree part, forest.snapshot root = some tree ∧ tree.sub? path = some part ∧
    after.snapshot root = some (tree.modifyAt f path)
  /-- So that part is what the edit has made of it, and wherever the path is not part of the way
  there stands what stood there before. -/
  seen : ∀ {tree changed}, forest.snapshot root = some tree → after.snapshot root = some changed →
    changed.sub? path = (tree.sub? path).map f ∧
      ∀ other, ¬ path <+: other → changed.at? other = tree.at? other
  /-- All other roots show what they showed. -/
  others : ∀ other, forest.IsRoot other → other ≠ root → other ∉ taken →
    after.snapshot other = forest.snapshot other
  /-- All roots keep their numbers and owners. -/
  roots : ∀ {other node}, forest.get? other = some node → forest.IsRoot other → other ∉ taken →
    ∃ left, after.get? other = some left ∧ left.id = node.id ∧ left.owner = node.owner
  /-- What was taken was a root, and is one no more. -/
  displaced : ∀ child ∈ taken, forest.IsRoot child ∧ ¬ after.IsRoot child
  /-- What is gone is one tree. -/
  removed : ∀ {id node}, forest.get? id = some node →
    (after.get? id = none ↔ ∃ old ∈ gone, forest.Below old id)
  /-- What is left was there before, of the same sort and, unless it was taken, with the same
  owner. -/
  kept : ∀ {id left}, after.get? id = some left →
    ∃ node, forest.get? id = some node ∧ node.Persists left ∧ (id ∉ taken → left.owner = node.owner)

theorem Shows.sub?_of_follow? (hl : Linked forest) (hs : Shows forest root tree)
    (hp : forest.follow? path root = some x) :
    ∃ part, tree.sub? path = some part ∧ Shows forest x part := by
  induction path generalizing root tree with
  | nil =>
      cases hp
      exact ⟨tree, rfl, hs⟩
  | cons name rest ih =>
      obtain ⟨node, child, hn, ha, hrest⟩ := follow?_cons.mp hp
      obtain ⟨inner, hlookup, hi⟩ := hs.exists_inner hl hn ha
      obtain ⟨part, hsub, hpart⟩ := ih hi hrest
      refine ⟨part, ?_, hpart⟩
      rw [NodeTree.sub?, hlookup]
      exact hsub

/-- **A change at a node is an edit of the tree that the node stands in.** -/
theorem ChangedAt.treeEdit (h : ChangedAt forest x gone taken after) (hl : Linked forest)
    (hroot : forest.IsRoot root) (hp : forest.follow? path root = some x)
    (htop : ∀ part, Shows forest x part → Shows after x (f part)) :
    TreeEdit forest root path f gone taken after := by
  have hbelow := below_of_follow? hp
  -- what goes is held, so no root goes
  have hstays : ∀ {other}, forest.IsRoot other → ∀ old ∈ gone, ¬ forest.Below old other := by
    intro other ho old hold hb
    have he := ho.eq_of_below hl hb
    subst he
    exact ho.not_holds hl x (h.held old hold)
  have hmodified : ∀ {tree}, forest.snapshot root = some tree →
      after.snapshot root = some (tree.modifyAt f path) := fun ht =>
    h.linked.snapshot_iff.mpr (h.shows_modifyAt hl htop hp (hl.snapshot_iff.mp ht))
  refine ⟨?_, ?_, ?_, ?_, ?_, ?_, ?_⟩
  · obtain ⟨node, hn, _⟩ := id hroot
    obtain ⟨tree, ht⟩ := hl.exists_shows hn
    obtain ⟨part, hsub, _⟩ := (hl.snapshot_iff.mp ht).sub?_of_follow? hl hp
    exact ⟨tree, part, ht, hsub, hmodified ht⟩
  · intro tree changed ht hchanged
    obtain rfl := Option.some.inj ((hmodified ht).symm.trans hchanged)
    exact ⟨NodeTree.sub?_modifyAt, fun _ => NodeTree.at?_modifyAt⟩
  · intro other ho hne _
    obtain ⟨node, hn, _⟩ := id ho
    obtain ⟨tree, ht⟩ := hl.exists_shows hn
    rw [ht]
    refine h.linked.snapshot_iff.mpr (h.shows_apart (hl.snapshot_iff.mp ht) fun z hz hb => hne ?_)
    exact ho.unique hl hroot hz (hbelow.trans hb)
  · intro other node hn ho hnot
    obtain ⟨left, hleft, hpersists, howner, _⟩ := h.keeps hn (hstays ho)
    exact ⟨left, hleft, hpersists.id, howner hnot⟩
  · intro child hc
    obtain ⟨_, node, hn, hd⟩ := h.free child hc
    obtain ⟨left, hleft, ho⟩ := h.owned child hc
    exact ⟨⟨node, hn, Or.inl hd⟩, fun hr => hr.not_held hleft x ho⟩
  · intro id node hn
    constructor
    · intro hnone
      by_contra hnot
      obtain ⟨left, hleft, _⟩ := h.keeps hn fun old ho hb => hnot ⟨old, ho, hb⟩
      exact absurd (hnone.symm.trans hleft) (by simp)
    · intro hgone
      obtain ⟨old, ho, hb⟩ := hgone
      cases hleft : after.get? id with
      | none => rfl
      | some left =>
          obtain ⟨_, _, hnot⟩ := h.origin hleft
          exact absurd hb (hnot old ho)
  · intro id left hleft
    obtain ⟨node, hn, hnot⟩ := h.origin hleft
    obtain ⟨other, hother, hpersists, howner, _⟩ := h.keeps hn hnot
    rw [hleft] at hother
    cases hother
    exact ⟨node, hn, hpersists, howner⟩

end Forest

end Rulebook
