import Rulebook.Proofs.Forest.Insertion
import Rulebook.Proofs.Forest.Locality

/-!
# Trees that are inserted

A tree is inserted from the top down, each node before what goes into its slots,
so whether a slot takes what it is given comes out only when that is there
already. All the same the outcome can be told from the tree alone: it *fits* if
at every node the variant is registered, the literal is one that the variant
carries, and the slots are declared for what is put into them. The other checks
along the way, that a child is free and does not lie above its holder, always
pass.

What has grown then is the tree and nothing else: as many new nodes as the tree
has, under the next numbers, below a free root that shows the tree.
-/

namespace Rulebook

namespace NodeTree

/-- The slot is declared, and for the type that the tree in it produces. -/
def SlotFits (registry : Registry) (definition : Variant) (slot : String × NodeTree) : Prop :=
  ∃ param kind, definition.param? slot.1 = some param ∧
    registry.get? slot.2.variant = some kind ∧ param.type = kind.result

/-- Every node of the tree is as a registered variant says. -/
inductive Fits (registry : Registry) : NodeTree → Prop where
  | node {name : VariantId} {literal : Option Literal} {arguments : List (String × NodeTree)}
      {definition : Variant} :
      registry.get? name = some definition →
      definition.literal = literal.map (·.type) →
      (∀ slot ∈ arguments, SlotFits registry definition slot) →
      (∀ slot ∈ arguments, Fits registry slot.2) →
      Fits registry ⟨name, literal, arguments⟩

variable {registry : Registry} {tree inner : NodeTree} {name : String}
  {filled : List (String × NodeTree)}

/-- Slots that are in order are filled as they stand. -/
theorem slots_of_ordered (hs : (filled.map Prod.fst).Pairwise (· < ·)) : slots filled = filled := by
  have hn : (filled.map Prod.fst).Nodup := hs.imp fun hlt => ne_of_lt hlt
  refine eq_of_lookup (slots_ordered filled) hs fun name => Option.ext fun inner => ?_
  rw [← mem_iff_lookup (slots_ordered filled), ← mem_iff_lookup hs, mem_slots hn]

theorem Ordered.of_mem (h : tree.Ordered) (hm : (name, inner) ∈ tree.arguments) : inner.Ordered :=
  h.slot ((mem_iff_lookup h.slots).mp hm)

theorem sizes_append {others : List (String × NodeTree)} :
    sizes (filled ++ others) = sizes filled + sizes others := by
  induction filled with
  | nil => simp [sizes]
  | cons slot rest ih => simp [sizes, ih, Nat.add_assoc]

end NodeTree

namespace Forest

open Attempt

variable {start forest grown filled after : Forest} {registry : Registry} {root child : NodeId}
  {definition : Variant} {param : String} {tree : NodeTree}

/-! ## Which trees are accepted -/

/-- The node is free and of the variant. -/
def Stands (forest : Forest) (root : NodeId) (definition : Variant) : Prop :=
  ∃ node, forest.get? root = some node ∧ node.variant = definition.id ∧
    node.result = definition.result ∧ node.owner = .detached

namespace Stands

theorem plant (h : Linked forest) (definition : Variant) (literal : Option Literal) :
    Stands (forest.plant definition literal) ⟨forest.nextId⟩ definition :=
  ⟨_, (get?_plant_iff h).mpr (Or.inl ⟨rfl, rfl⟩), rfl, rfl, rfl⟩

theorem used (h : Stands forest root definition) (hl : Linked forest) :
    root.raw < forest.nextId := by
  obtain ⟨node, hn, _⟩ := h
  exact hl.used hn

/-- A node that stands does so among new ones. -/
theorem beside (h : Stands forest root definition) (hl : Linked forest)
    (he : Extends forest grown) : Stands grown root definition := by
  obtain ⟨node, hn, hrest⟩ := h
  exact ⟨node, (he.old (hl.used hn)).trans hn, hrest⟩

/-- Filling a slot of a node leaves it free and of its variant. -/
theorem setArgument (h : Stands forest root definition) (hl : Linked forest)
    (hr : (Forest.setArgument registry root param child).runOn forest = (.ok (), filled)) :
    Stands filled root definition := by
  obtain ⟨node, hn, hv, hres, hd⟩ := h
  obtain ⟨found, _, hf, _, hbind, hlineage, rfl⟩ := setArgument_ok.mp hr
  obtain ⟨_, inner, _, hi, hfree, _⟩ := checkBinding_ok.mp hbind
  have hnb : ¬ forest.Below child root := fun hb => hlineage ((mem_lineage hl hn).mpr hb)
  have hchanged := changedAt_fill param hl hn hi hfree hnb
  obtain ⟨left, hleft, hpersists, howner, _⟩ := hchanged.keeps hn fun old ho hb =>
    hl.not_below_of_holds (holds_of_argument? hn ho) hb
  refine ⟨left, hleft, hpersists.variant.trans hv, hpersists.result.trans hres, ?_⟩
  rw [howner fun he => ne_of_not_below hnb (Option.some.inj he).symm, hd]

end Stands

/-- **A node that stands takes what its variant has a slot for.** Nothing else is checked that
could fail: the child is free, and above a free node there is nothing. -/
theorem setArgument_accepts (hl : Linked forest)
    (hv : registry.get? definition.id = some definition) (hr : Stands forest root definition)
    {kind : Variant} (hc : Stands forest child kind) (hne : child ≠ root) :
    (∃ filled, (setArgument registry root param child).runOn forest = (.ok (), filled)) ↔
      ∃ slot, definition.param? param = some slot ∧ slot.type = kind.result := by
  obtain ⟨node, hn, hnv, _, hd⟩ := hr
  obtain ⟨inner, hi, _, hires, hid⟩ := hc
  constructor
  · intro h
    obtain ⟨filled, hset⟩ := h
    obtain ⟨found, variant, hf, hvar, hbind, _, _⟩ := setArgument_ok.mp hset
    obtain ⟨slot, other, hp, ho, _, ht⟩ := checkBinding_ok.mp hbind
    rw [hn] at hf
    cases hf
    rw [hnv, hv] at hvar
    cases hvar
    rw [hi] at ho
    cases ho
    exact ⟨slot, hp, ht.symm.trans hires⟩
  · intro h
    obtain ⟨slot, hp, ht⟩ := h
    refine ⟨_, setArgument_ok.mpr ⟨node, definition, hn, hnv ▸ hv, ?_, fun hm => hne ?_, rfl⟩⟩
    · exact checkBinding_ok.mpr ⟨slot, inner, hp, hi, hid, hires.trans ht.symm⟩
    · -- the root is free, so the only node above it is itself
      exact hl.eq_of_below_root hn (by simp [hd]) ((mem_lineage hl hn).mp hm)

theorem linked_setArgument (h : Linked forest)
    (hr : (setArgument registry root param child).runOn forest = (.ok (), filled)) :
    Linked filled := by
  have hchanges : Changes registry forest
      ((setArgument registry root param child).runOn forest).2 := setArgument_changes h
  rw [hr] at hchanges
  exact hchanges.linked h

/-- Inserting leaves old nodes alone. -/
theorem insertTree_extends (h : Linked forest)
    (hr : (insertTree registry tree).runOn forest = (.ok child, grown)) : Extends forest grown :=
  ((insertTree_seedling tree h).1 child grown hr).beside

/-- The root of an inserted tree, or a node above it, is still what it was after more slots
were filled. -/
theorem stands_insertArguments (arguments : List (String × NodeTree)) :
    ∀ {forest after : Forest}, Linked forest → Stands forest root definition →
      (insertArguments registry root arguments).runOn forest = (.ok (), after) →
      Linked after ∧ Stands after root definition := by
  induction arguments with
  | nil =>
      intro forest after hl h hr
      rw [insertArguments_nil_ok.mp hr]
      exact ⟨hl, h⟩
  | cons slot rest ih =>
      intro forest after hl h hr
      obtain ⟨param, tree⟩ := slot
      obtain ⟨child, grown, filled, htree, hset, hrest⟩ := insertArguments_cons_ok.mp hr
      have hext := insertTree_extends hl htree
      exact ih (linked_setArgument hext.linked hset)
        ((h.beside hl hext).setArgument hext.linked hset) hrest

/-- The root of an inserted tree is free and of the variant of the tree. -/
theorem stands_insertTree (h : Linked forest)
    (hr : (insertTree registry tree).runOn forest = (.ok root, after)) :
    ∃ definition, registry.get? tree.variant = some definition ∧ Stands after root definition := by
  obtain ⟨name, literal, arguments⟩ := tree
  obtain ⟨definition, hv, _, rfl, hargs⟩ := insertTree_ok.mp hr
  refine ⟨definition, hv, (stands_insertArguments arguments (linked_plant h _ _) ?_ hargs).2⟩
  exact .plant h definition literal

mutual

/-- **A tree is accepted exactly if it fits.** -/
theorem insertTree_accepts : ∀ (tree : NodeTree) {forest : Forest}, Linked forest →
    ((∃ root after, (insertTree registry tree).runOn forest = (.ok root, after)) ↔
      tree.Fits registry)
  | ⟨name, literal, arguments⟩, forest, h => by
      constructor
      · intro hx
        obtain ⟨root, after, hr⟩ := hx
        obtain ⟨definition, hv, hl, rfl, hargs⟩ := insertTree_ok.mp hr
        have hall := (insertArguments_accepts (Registry.get?_id hv) arguments
          (linked_plant h definition literal) (.plant h definition literal)).mp ⟨after, hargs⟩
        exact .node hv hl (fun slot hm => (hall slot hm).1) fun slot hm => (hall slot hm).2
      · intro hfits
        cases hfits with
        | @node _ _ _ definition hv hl hslots htrees =>
            obtain ⟨after, hargs⟩ := (insertArguments_accepts (Registry.get?_id hv) arguments
              (linked_plant h definition literal) (.plant h definition literal)).mpr
              fun slot hm => ⟨hslots slot hm, htrees slot hm⟩
            exact ⟨_, after, insertTree_ok.mpr ⟨definition, hv, hl, rfl, hargs⟩⟩

/-- Slots are filled exactly if what goes into each fits there and fits in itself. -/
theorem insertArguments_accepts {definition : Variant}
    (hv : registry.get? definition.id = some definition) :
    ∀ (arguments : List (String × NodeTree)) {forest : Forest} {root : NodeId}, Linked forest →
      Stands forest root definition →
      ((∃ after, (insertArguments registry root arguments).runOn forest = (.ok (), after)) ↔
        ∀ slot ∈ arguments, NodeTree.SlotFits registry definition slot ∧ slot.2.Fits registry)
  | [], forest, root, _, _ => by
      simp [insertArguments_nil_ok]
  | (param, tree) :: rest, forest, root, h, hroot => by
      have htree := insertTree_accepts tree h
      -- what is known of the forest once the first tree stands beside the root
      have hstep : ∀ {child grown}, (insertTree registry tree).runOn forest = (.ok child, grown) →
          Linked grown ∧ Stands grown root definition ∧ child ≠ root := by
        intro child grown hr
        have hext := insertTree_extends h hr
        refine ⟨hext.linked, hroot.beside h hext, ?_⟩
        rintro rfl
        rw [insertTree_ok_id hr] at hroot
        exact Nat.lt_irrefl _ (hroot.used h)
      rw [List.forall_mem_cons]
      constructor
      · intro hx
        obtain ⟨after, hr⟩ := hx
        obtain ⟨child, grown, filled, hins, hset, hrest⟩ := insertArguments_cons_ok.mp hr
        obtain ⟨hlinked, hstands, hne⟩ := hstep hins
        obtain ⟨kind, hk, hchild⟩ := stands_insertTree h hins
        obtain ⟨slot, hp, ht⟩ := (setArgument_accepts hlinked hv hstands hchild hne).mp ⟨_, hset⟩
        have hfilled := linked_setArgument hlinked hset
        refine ⟨⟨⟨slot, kind, hp, hk, ht⟩, htree.mp ⟨_, _, hins⟩⟩, ?_⟩
        exact (insertArguments_accepts hv rest hfilled (hstands.setArgument hlinked hset)).mp
          ⟨after, hrest⟩
      · intro hall
        obtain ⟨⟨⟨slot, kind, hp, hk, ht⟩, hfits⟩, hrest⟩ := hall
        obtain ⟨child, grown, hins⟩ := htree.mpr hfits
        obtain ⟨hlinked, hstands, hne⟩ := hstep hins
        obtain ⟨found, hfound, hchild⟩ := stands_insertTree h hins
        rw [hk] at hfound
        cases hfound
        obtain ⟨filled, hset⟩ := (setArgument_accepts hlinked hv hstands hchild hne).mpr
          ⟨slot, hp, ht⟩
        have hfilled := linked_setArgument hlinked hset
        obtain ⟨after, hafter⟩ := (insertArguments_accepts hv rest hfilled
          (hstands.setArgument hlinked hset)).mpr hrest
        exact ⟨after, insertArguments_cons_ok.mpr ⟨child, grown, filled, hins, hset, hafter⟩⟩

end

/-! ## What has grown -/

/-- What was there shows what it showed. -/
theorem Extends.shows (h : Extends start forest) (hs : Linked start) {id : NodeId}
    (ht : Shows start id tree) : Shows forest id tree := by
  refine ht.frame fun x node _ hx => ⟨node, ?_, ⟨rfl, rfl, rfl⟩⟩
  rw [h.old (hs.used hx)]
  exact hx

/-- The new nodes are so many, and have all numbers from the first new one on. -/
structure Numbered (start : Forest) (count : Nat) (forest : Forest) : Prop where
  next : forest.nextId = start.nextId + count
  there : ∀ number, start.nextId ≤ number → number < forest.nextId →
    ∃ node, forest.get? ⟨number⟩ = some node

namespace Numbered

theorem plant (h : Linked start) (definition : Variant) (literal : Option Literal) :
    Numbered start 1 (start.plant definition literal) := by
  refine ⟨rfl, fun number hle hlt => ?_⟩
  rw [nextId_plant] at hlt
  obtain rfl : number = start.nextId := by omega
  exact ⟨_, (get?_plant_iff h).mpr (Or.inl ⟨rfl, rfl⟩)⟩

/-- New nodes beside new nodes. -/
theorem trans {count more : Nat} (h : Numbered start count forest) (hg : Numbered forest more grown)
    (he : Extends forest grown) : Numbered start (count + more) grown := by
  have hnext := h.next
  have hmore := hg.next
  refine ⟨by omega, fun number hle hlt => ?_⟩
  by_cases hold : number < forest.nextId
  · obtain ⟨node, hn⟩ := h.there number hle hold
    exact ⟨node, (he.old hold).trans hn⟩
  · exact hg.there number (by omega) hlt

/-- Filling an empty slot moves no node. -/
theorem fill {count : Nat} (h : Numbered start count forest) {node inner : Node}
    (hf : Fillable forest root param child node inner) :
    Numbered start count (forest.fillSlot root param child) := by
  refine ⟨h.next, fun number hle hlt => ?_⟩
  obtain ⟨node, hn⟩ := h.there number hle hlt
  exact ⟨_, (get?_fillSlot_iff hf.ne).mpr ⟨node, hn, rfl⟩⟩

end Numbered

/-- A free root stands among new nodes, and the trees in its slots have grown. -/
structure Sprout (start : Forest) (name : VariantId) (literal : Option Literal)
    (done : List (String × NodeTree)) (forest : Forest) : Prop where
  beside : Extends start forest
  numbered : Numbered start (1 + NodeTree.sizes done) forest
  root : ∃ node, forest.get? ⟨start.nextId⟩ = some node ∧ node.variant = name ∧
    node.literal = literal ∧ node.owner = .detached ∧
    List.Forall₂ (fun binding slot => binding.param = slot.1 ∧ Shows forest binding.child slot.2)
      node.arguments done

/-- A tree has grown, as new nodes, below a free root. -/
structure Grown (start : Forest) (root : NodeId) (tree : NodeTree) (forest : Forest) : Prop where
  beside : Extends start forest
  numbered : Numbered start tree.size forest
  first : root = ⟨start.nextId⟩
  free : ∃ node, forest.get? root = some node ∧ node.owner = .detached
  shows : Shows forest root tree

namespace Sprout

variable {name : VariantId} {literal : Option Literal} {done : List (String × NodeTree)}

theorem plant (h : Linked start) {literal : Option Literal} :
    Sprout start definition.id literal [] (start.plant definition literal) where
  beside := (Extends.refl h).plant definition literal
  numbered := .plant h definition literal
  root := ⟨_, (get?_plant_iff h).mpr (Or.inl ⟨rfl, rfl⟩), rfl, rfl, rfl, .nil⟩

/-- **One more tree in a slot**, if there was none in it. -/
theorem step (h : Sprout start name literal done forest) (hg : Grown forest child tree grown)
    (hnew : param ∉ done.map Prod.fst)
    (hr : (setArgument registry ⟨start.nextId⟩ param child).runOn grown = (.ok (), filled))
    (hs : Linked start) : Sprout start name literal (done ++ [(param, tree)]) filled := by
  obtain ⟨node, hn, hname, hlit, hd, hslots⟩ := h.root
  have hl := h.beside.linked
  have hlg := hg.beside.linked
  have hng : grown.get? ⟨start.nextId⟩ = some node := (hg.beside.old (hl.used hn)).trans hn
  have hempty : node.argument? param = none := by
    have hnames : node.arguments.map Binding.param = done.map Prod.fst :=
      SideBySide.map_eq (hslots.imp fun _ _ hb => hb.1)
    rw [Node.argument?_eq_none, hnames]
    exact hnew
  obtain ⟨inner, hi, hfree⟩ := hg.free
  obtain ⟨found, _, hfound, _, _, hlineage, rfl⟩ := setArgument_ok.mp hr
  have hnb : ¬ grown.Below child ⟨start.nextId⟩ := fun hb =>
    hlineage ((mem_lineage hlg hng).mpr hb)
  have hchild : start.nextId ≤ child.raw := by
    rw [hg.first]
    exact h.beside.later
  have hext : Extends start
      ((Forest.setArgument registry ⟨start.nextId⟩ param child).runOn grown).2 :=
    (h.beside.trans hg.beside).setArgument hs (Nat.le_refl start.nextId) hchild
  rw [hr] at hext
  have hchanged := changedAt_fill param hlg hng hi hfree hnb
  have hfill : Fillable grown ⟨start.nextId⟩ param child node inner := ⟨hng, hempty, hi, hfree, hnb⟩
  rw [vacate_of_empty hng hempty] at hext hchanged ⊢
  refine ⟨hext, ?_, _, hfill.get?_holder, hname, hlit, hd, ?_⟩
  · have hsizes : 1 + NodeTree.sizes (done ++ [(param, tree)])
        = 1 + NodeTree.sizes done + tree.size := by
      simp [NodeTree.sizes_append, NodeTree.sizes, Nat.add_assoc]
    rw [hsizes]
    exact (h.numbered.trans hg.numbered hg.beside).fill hfill
  · refine List.rel_append ?_ (.cons ⟨rfl, hchanged.shows_taken hlg hg.shows rfl⟩ .nil)
    -- what was in the other slots is still there and shows what it did
    have hall : ∀ binding ∈ node.arguments, grown.Holds ⟨start.nextId⟩ binding.child :=
      fun binding hb => ⟨node, hng, Node.mem_children.mpr ⟨binding, hb, rfl⟩⟩
    refine (SideBySide.with_mem hslots.flip).flip.imp fun binding slot hpair => ?_
    obtain ⟨hb, hparam, hshows⟩ := hpair
    refine ⟨hparam, hchanged.shows_held hlg (hg.beside.shows hl hshows) (hall binding hb) ?_⟩
    simp [hempty]

/-- When all slots are filled, the tree has grown. -/
theorem finish (h : Sprout start name literal done forest)
    (ho : (done.map Prod.fst).Pairwise (· < ·)) :
    Grown start ⟨start.nextId⟩ ⟨name, literal, done⟩ forest := by
  obtain ⟨node, hn, rfl, rfl, hd, hslots⟩ := h.root
  refine ⟨h.beside, h.numbered, rfl, ⟨node, hn, hd⟩,
    Shows.iff_slots.mpr ⟨node, done, hn, hslots, ?_⟩⟩
  rw [NodeTree.slots_of_ordered ho]

end Sprout

mutual

/-- **An inserted tree has grown.** -/
theorem insertTree_grown : ∀ (tree : NodeTree) {start after : Forest} {root : NodeId},
    Linked start → tree.Ordered →
    (insertTree registry tree).runOn start = (.ok root, after) → Grown start root tree after
  | ⟨name, literal, arguments⟩, start, after, root, hs, ho, hr => by
      obtain ⟨definition, hv, _, rfl, hargs⟩ := insertTree_ok.mp hr
      have hsprout : Sprout start name literal [] (start.plant definition literal) := by
        rw [← Registry.id_of_get? hv]
        exact .plant hs
      have hslots := ho.slots
      exact (insertArguments_sprout arguments [] hs (hslots.imp fun hlt => ne_of_lt hlt)
        (fun slot hm => ho.of_mem hm) hsprout hargs).finish hslots

/-- Slot after slot, the trees grow. -/
theorem insertArguments_sprout {name : VariantId} {literal : Option Literal} :
    ∀ (arguments done : List (String × NodeTree)) {start forest after : Forest}, Linked start →
      ((done ++ arguments).map Prod.fst).Nodup → (∀ slot ∈ arguments, slot.2.Ordered) →
      Sprout start name literal done forest →
      (insertArguments registry ⟨start.nextId⟩ arguments).runOn forest = (.ok (), after) →
      Sprout start name literal (done ++ arguments) after
  | [], done, start, forest, after, _, _, _, h, hr => by
      rw [insertArguments_nil_ok.mp hr, List.append_nil]
      exact h
  | (param, tree) :: rest, done, start, forest, after, hs, hn, ho, h, hr => by
      obtain ⟨child, grown, filled, htree, hset, hrest⟩ := insertArguments_cons_ok.mp hr
      have hgrown := insertTree_grown tree h.beside.linked
        (ho (param, tree) List.mem_cons_self) htree
      -- names are distinct, so this slot is still empty
      have hnew : param ∉ done.map Prod.fst := by
        rw [List.map_append, List.nodup_append] at hn
        exact fun hm => hn.2.2 param hm param List.mem_cons_self rfl
      have hstep := h.step hgrown hnew hset hs
      rw [List.append_cons] at hn ⊢
      exact insertArguments_sprout rest (done ++ [(param, tree)]) hs hn
        (fun slot hm => ho slot (List.mem_cons_of_mem _ hm)) hstep hrest

end

namespace Grown

variable {id : NodeId}

/-- The new nodes are those with the next numbers. -/
theorem exists_iff (h : Grown start root tree forest) (hs : Linked start) :
    (∃ node, forest.get? id = some node) ↔
      (∃ node, start.get? id = some node) ∨
        start.nextId ≤ id.raw ∧ id.raw < start.nextId + tree.size := by
  have hnext := h.numbered.next
  constructor
  · intro hx
    obtain ⟨node, hn⟩ := hx
    have hused := h.beside.linked.used hn
    by_cases hold : id.raw < start.nextId
    · exact Or.inl ⟨node, (h.beside.old hold).symm.trans hn⟩
    · exact Or.inr ⟨by omega, by omega⟩
  · intro hx
    rcases hx with ⟨node, hn⟩ | ⟨hle, hlt⟩
    · exact ⟨node, (h.beside.old (hs.used hn)).trans hn⟩
    · exact h.numbered.there id.raw hle (by omega)

/-- **There are as many more nodes as the tree has.** -/
theorem size_eq (h : Grown start root tree forest) (hs : Linked start) :
    forest.size = start.size + tree.size := by
  have hnew : ∀ {id : NodeId}, id ∈ (List.range tree.size).map (fun i => ⟨start.nextId + i⟩) ↔
      start.nextId ≤ id.raw ∧ id.raw < start.nextId + tree.size := by
    intro id
    rw [List.mem_map]
    constructor
    · intro hm
      obtain ⟨i, hi, rfl⟩ := hm
      have hlt := List.mem_range.mp hi
      simp only
      omega
    · intro hid
      refine ⟨id.raw - start.nextId, List.mem_range.mpr (by omega), ?_⟩
      rw [Nat.add_sub_cancel' hid.1]
  -- the old keys and the numbers handed out since have none in common
  have hdistinct : (start.nodes.keys ++
      (List.range tree.size).map fun i => (⟨start.nextId + i⟩ : NodeId)).Nodup := by
    refine List.nodup_append.mpr ⟨Std.ExtTreeMap.nodup_keys, ?_, ?_⟩
    · refine List.Nodup.map (fun i j he => ?_) List.nodup_range
      have he' := congrArg NodeId.raw he
      simp only at he'
      omega
    · rintro id hold _ hm rfl
      obtain ⟨node, hn⟩ := mem_keys.mp hold
      have hused := hs.used hn
      have hid := hnew.mp hm
      omega
  have hall := size_eq_length hdistinct fun id => by
    rw [List.mem_append, mem_keys, hnew]
    exact (h.exists_iff hs).symm
  rw [hall, List.length_append, List.length_map, List.length_range]
  exact congrArg (· + tree.size) Std.ExtTreeMap.length_keys

end Grown

end Forest

end Rulebook
