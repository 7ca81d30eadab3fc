import Mathlib.Data.List.Sort
import Rulebook.Interchange.Entry
import Rulebook.Proofs.Forest.Snapshot

/-!
# Trees read along paths

A path leads from the root of a tree to one of its parts, or out of the tree. The
slots of a tree are in the order of their names, down to the last part: that is
what `Ordered` says, and it holds of every tree that a node shows. Of two ordered
trees with the same variants and literals at the same paths, neither can be told
from the other.
-/

namespace Rulebook

namespace NodeTree

/-- The part of the tree that the path leads to. -/
def sub? : Path → NodeTree → Option NodeTree
  | [], tree => some tree
  | name :: rest, tree => (tree.arguments.lookup name).bind (sub? rest)

/-- The variant and the literal of the node that the path leads to. -/
def at? (path : Path) (tree : NodeTree) : Option (VariantId × Option Literal) :=
  (sub? path tree).map fun sub => (sub.variant, sub.literal)

/-- In every part of the tree the slots are in rising order of their names. -/
def Ordered (tree : NodeTree) : Prop :=
  ∀ path sub, sub? path tree = some sub → (sub.arguments.map Prod.fst).Pairwise (· < ·)

variable {tree other inner : NodeTree} {name : String} {rest : Path}
  {filled others : List (String × NodeTree)}

/-- What holds of a tree whenever it holds of the trees in its slots holds of every tree. -/
theorem slot_induction {motive : NodeTree → Prop}
    (node : ∀ variant literal arguments, (∀ pair ∈ arguments, motive pair.2) →
      motive ⟨variant, literal, arguments⟩) (tree : NodeTree) : motive tree := by
  obtain ⟨variant, literal, arguments⟩ := tree
  refine node variant literal arguments fun pair hp => ?_
  have hlt : sizeOf pair.2 < sizeOf (NodeTree.mk variant literal arguments) := by
    have hpair : sizeOf pair < sizeOf arguments := List.sizeOf_lt_of_mem hp
    obtain ⟨name, tree⟩ := pair
    simp only [Prod.mk.sizeOf_spec, NodeTree.mk.sizeOf_spec] at *
    omega
  exact slot_induction node pair.2
  termination_by sizeOf tree
  decreasing_by exact hlt

/-! ## Slots by name -/

theorem mem_iff_lookup (hs : (filled.map Prod.fst).Pairwise (· < ·)) :
    (name, inner) ∈ filled ↔ filled.lookup name = some inner := by
  induction filled with
  | nil => simp
  | cons slot rest ih =>
      obtain ⟨first, tree⟩ := slot
      obtain ⟨hfirst, hrest⟩ := List.pairwise_cons.mp hs
      rw [List.mem_cons, lookup_slot]
      by_cases he : name = first
      · subst he
        have hnot : (name, inner) ∉ rest := fun hm =>
          lt_irrefl _ (hfirst name (List.mem_map_of_mem hm))
        simp [hnot, eq_comm]
      · simp [he, ih hrest]

/-- Slots in order are equal if each name stands for the same tree in both. -/
theorem eq_of_lookup (hs : (filled.map Prod.fst).Pairwise (· < ·))
    (ho : (others.map Prod.fst).Pairwise (· < ·))
    (h : ∀ name, filled.lookup name = others.lookup name) : filled = others := by
  have : Std.Irrefl fun one two : String × NodeTree => one.1 < two.1 :=
    ⟨fun pair => lt_irrefl pair.1⟩
  have : Std.Antisymm fun one two : String × NodeTree => one.1 < two.1 :=
    ⟨fun _ _ hlt hgt => absurd hlt (lt_asymm hgt)⟩
  refine (List.pairwise_map.mp hs).eq_of_mem_iff (List.pairwise_map.mp ho) fun pair => ?_
  obtain ⟨name, tree⟩ := pair
  rw [mem_iff_lookup hs, mem_iff_lookup ho, h]

/-- One more slot, with the others still in order. -/
theorem fill_ordered (hs : (filled.map Prod.fst).Pairwise (· < ·)) :
    ((fill name inner filled).map Prod.fst).Pairwise (· < ·) ∧
      ∀ other ∈ (fill name inner filled).map Prod.fst,
        other = name ∨ other ∈ filled.map Prod.fst := by
  induction filled with
  | nil => simp [fill]
  | cons slot rest ih =>
      obtain ⟨first, tree⟩ := slot
      obtain ⟨hfirst, hrest⟩ := List.pairwise_cons.mp hs
      obtain ⟨hsorted, hmem⟩ := ih hrest
      rw [fill]
      split
      · rename_i he
        subst he
        exact ⟨hs, fun _ ho => Or.inr ho⟩
      · rename_i hne
        split
        · rename_i hlt
          refine ⟨List.pairwise_cons.mpr ⟨fun other ho => ?_, hs⟩, fun other ho => ?_⟩
          · rcases List.mem_cons.mp ho with rfl | ho
            · exact hlt
            · exact hlt.trans (hfirst other ho)
          · exact List.mem_cons.mp ho
        · rename_i hge
          -- the name comes later, and everything behind comes after the first still
          have hlt : first < name := lt_of_le_of_ne (not_lt.mp hge) fun he => hne he.symm
          refine ⟨List.pairwise_cons.mpr ⟨fun other ho => ?_, hsorted⟩, fun other ho => ?_⟩
          · rcases hmem other ho with rfl | ho
            · exact hlt
            · exact hfirst other ho
          · rcases List.mem_cons.mp ho with rfl | ho
            · exact Or.inr List.mem_cons_self
            · exact (hmem other ho).imp_right (List.mem_cons_of_mem _)

/-- Slots are in order however they were filled. -/
theorem slots_ordered (filled : List (String × NodeTree)) :
    ((slots filled).map Prod.fst).Pairwise (· < ·) := by
  suffices hall : ∀ start : List (String × NodeTree), (start.map Prod.fst).Pairwise (· < ·) →
      ((filled.foldl (fun slots pair => fill pair.1 pair.2 slots) start).map Prod.fst).Pairwise
        (· < ·) from hall [] .nil
  induction filled with
  | nil => exact fun _ hs => hs
  | cons slot rest ih => exact fun start hs => ih _ (fill_ordered hs).1

/-! ## Trees by their paths -/

theorem Ordered.slots (h : tree.Ordered) : (tree.arguments.map Prod.fst).Pairwise (· < ·) :=
  h [] tree rfl

theorem Ordered.slot (h : tree.Ordered) (hi : tree.arguments.lookup name = some inner) :
    inner.Ordered := by
  intro path sub hs
  refine h (name :: path) sub ?_
  rw [sub?, hi]
  exact hs

theorem at?_cons (hi : tree.arguments.lookup name = some inner) :
    tree.at? (name :: rest) = inner.at? rest := by
  rw [at?, sub?, hi]
  rfl

theorem at?_eq_none (hi : tree.arguments.lookup name = none) : tree.at? (name :: rest) = none := by
  rw [at?, sub?, hi]
  rfl

theorem at?_nil : tree.at? [] = some (tree.variant, tree.literal) := rfl

/-- **An ordered tree is known by its variants and literals at all paths.** -/
theorem eq_of_at? (ht : tree.Ordered) (ho : other.Ordered)
    (h : ∀ path, tree.at? path = other.at? path) : tree = other := by
  induction tree using slot_induction generalizing other with
  | node variant literal arguments ih =>
      obtain ⟨variant', literal', arguments'⟩ := other
      obtain ⟨rfl, rfl⟩ := Prod.mk.inj (Option.some.inj (h []))
      have hslots : ∀ name, arguments.lookup name = arguments'.lookup name := by
        intro name
        have hname := h [name]
        cases hi : arguments.lookup name with
        | none =>
            rw [at?_eq_none hi] at hname
            cases ho' : arguments'.lookup name with
            | none => rfl
            | some twin => exact absurd (hname.trans (at?_cons ho')) (by simp [at?_nil])
        | some inner =>
            rw [at?_cons hi] at hname
            cases ho' : arguments'.lookup name with
            | none => exact absurd (hname.trans (at?_eq_none ho')) (by simp [at?_nil])
            | some twin =>
                have hm : (name, inner) ∈ arguments := (mem_iff_lookup ht.slots).mpr hi
                -- a path below the slot is a path of the whole that begins with its name
                have hboth : ∀ path, inner.at? path = twin.at? path := by
                  intro path
                  have hpath := h (name :: path)
                  rw [at?_cons hi, at?_cons ho'] at hpath
                  exact hpath
                exact congrArg some (ih (name, inner) hm (ht.slot hi) (ho.slot ho') hboth)
      have hsame : arguments = arguments' := eq_of_lookup ht.slots ho.slots hslots
      rw [hsame]

end NodeTree

namespace Forest.Shows

variable {forest : Forest} {id : NodeId} {tree inner : NodeTree} {name : String}

/-- The tree begins with the node itself. -/
theorem top (h : Shows forest id tree) {node : Node} (hn : forest.get? id = some node) :
    (tree.variant, tree.literal) = (node.variant, node.literal) := by
  obtain ⟨found, _, hfound, _, rfl⟩ := iff_slots.mp h
  rw [hn] at hfound
  cases hfound
  rfl

/-- What a tree has in a slot is shown by what the node has there. -/
theorem lookup (hl : Linked forest) (h : Shows forest id tree) {node : Node}
    (hn : forest.get? id = some node) :
    tree.arguments.lookup name = some inner ↔
      ∃ child, node.argument? name = some child ∧ Shows forest child inner := by
  obtain ⟨found, filled, hf, hslots, rfl⟩ := iff_slots.mp h
  rw [hn] at hf
  cases hf
  rw [← NodeTree.mem_iff_lookup (NodeTree.slots_ordered filled)]
  exact Node.mem_slots (hl.names hn) hslots fun hs ho => hs.unique ho

/-- What a node has in a slot shows what the tree has there. -/
theorem exists_inner (hl : Linked forest) (h : Shows forest id tree) {node : Node}
    (hn : forest.get? id = some node) {child : NodeId} (ha : node.argument? name = some child) :
    ∃ inner, tree.arguments.lookup name = some inner ∧ Shows forest child inner := by
  have hholds : forest.Holds id child := holds_of_argument? hn ha
  obtain ⟨n, hc⟩ := hl.exists_of_holds hholds
  obtain ⟨inner, hi⟩ := hl.exists_shows hc
  have hi := hl.snapshot_iff.mp hi
  exact ⟨inner, (lookup hl h hn).mpr ⟨child, ha, hi⟩, hi⟩

/-- A slot is unset if the tree has nothing there. -/
theorem lookup_eq_none (hl : Linked forest) (h : Shows forest id tree) {node : Node}
    (hn : forest.get? id = some node) :
    tree.arguments.lookup name = none ↔ node.argument? name = none := by
  constructor
  · intro hnone
    cases ha : node.argument? name with
    | none => rfl
    | some child =>
        obtain ⟨inner, hi, _⟩ := exists_inner hl h hn ha
        exact absurd (hnone.symm.trans hi) (by simp)
  · intro hnone
    cases hi : tree.arguments.lookup name with
    | none => rfl
    | some inner =>
        obtain ⟨child, hc, _⟩ := (lookup hl h hn).mp hi
        exact absurd (hnone.symm.trans hc) (by simp)

/-- **What a node shows is ordered.** -/
theorem ordered (hl : Linked forest) (h : Shows forest id tree) : tree.Ordered := by
  intro path
  induction path generalizing id tree with
  | nil =>
      intro sub hs
      cases hs
      obtain ⟨node, filled, _, _, rfl⟩ := iff_slots.mp h
      exact NodeTree.slots_ordered filled
  | cons name rest ih =>
      intro sub hs
      obtain ⟨part, hc, hs⟩ := Option.bind_eq_some_iff.mp hs
      obtain ⟨node, hn⟩ := h.exists_node
      obtain ⟨child, _, hi⟩ := (lookup hl h hn).mp hc
      exact ih hi sub hs

end Forest.Shows

end Rulebook
