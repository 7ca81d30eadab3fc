import Rulebook.Literal

/-!
# Trees of nodes

What a node and everything below it look like when one forgets their numbers:
a variant, a literal and the trees in the slots. Slots are kept in the order of
their names, each name once, so two nodes look the same exactly when their
trees are equal.
-/

namespace Rulebook

/-- A node with everything below it, without numbers. -/
structure NodeTree where
  variant : VariantId
  literal : Option Literal
  /-- The filled slots, in rising order of their names. -/
  arguments : List (String × NodeTree)

namespace NodeTree

/-- Fills a slot, replacing what was in it and keeping the names in rising order. -/
def fill (param : String) (child : NodeTree) :
    List (String × NodeTree) → List (String × NodeTree)
  | [] => [(param, child)]
  | (name, other) :: rest =>
    if param = name then (param, child) :: rest
    else if param < name then (param, child) :: (name, other) :: rest
    else (name, other) :: fill param child rest

/-- The slots filled by a list of pairs, of which a later one overrides an earlier one. -/
def slots (pairs : List (String × NodeTree)) : List (String × NodeTree) :=
  pairs.foldl (fun filled pair => fill pair.1 pair.2 filled) []

/-- A tree with one more slot filled. -/
def withArgument (tree : NodeTree) (param : String) (child : NodeTree) : NodeTree :=
  { tree with arguments := fill param child tree.arguments }

/-- The tree under `times` nodes of a variant, each holding the next in the same slot. -/
def nest (tree : NodeTree) (variant : VariantId) (param : String) : (times : Nat) → NodeTree
  | 0 => tree
  | times + 1 => ⟨variant, none, [(param, tree.nest variant param times)]⟩

mutual

/-- The number of nodes. -/
def size : NodeTree → Nat
  | ⟨_, _, arguments⟩ => 1 + sizes arguments

/-- The number of nodes in all slots together. -/
def sizes : List (String × NodeTree) → Nat
  | [] => 0
  | (_, child) :: rest => child.size + sizes rest

end

mutual

/-- The number of nodes on the longest way down. -/
def depth : NodeTree → Nat
  | ⟨_, _, arguments⟩ => 1 + depths arguments

/-- The greatest depth in any slot. -/
def depths : List (String × NodeTree) → Nat
  | [] => 0
  | (_, child) :: rest => max child.depth (depths rest)

end

mutual

/-- Whether two trees are equal. -/
def same : NodeTree → NodeTree → Bool
  | ⟨variant, literal, arguments⟩, ⟨variant', literal', arguments'⟩ =>
    variant == variant' && literal == literal' && sameSlots arguments arguments'

/-- Whether two lists of slots are equal. -/
def sameSlots : List (String × NodeTree) → List (String × NodeTree) → Bool
  | [], [] => true
  | (param, child) :: rest, (param', child') :: rest' =>
    param == param' && child.same child' && sameSlots rest rest'
  | _, _ => false

end

mutual

theorem eq_of_same : ∀ {a b : NodeTree}, a.same b = true → a = b
  | ⟨_, _, _⟩, ⟨_, _, _⟩, h => by
    simp only [same, Bool.and_eq_true, beq_iff_eq] at h
    obtain ⟨⟨rfl, rfl⟩, hs⟩ := h
    rw [eq_of_sameSlots hs]

theorem eq_of_sameSlots : ∀ {a b : List (String × NodeTree)}, sameSlots a b = true → a = b
  | [], [], _ => rfl
  | (_, _) :: _, (_, _) :: _, h => by
    simp only [sameSlots, Bool.and_eq_true, beq_iff_eq] at h
    obtain ⟨⟨rfl, hc⟩, hr⟩ := h
    rw [eq_of_same hc, eq_of_sameSlots hr]
  | [], _ :: _, h => by simp [sameSlots] at h
  | _ :: _, [], h => by simp [sameSlots] at h

end

mutual

theorem same_refl : ∀ a : NodeTree, a.same a = true
  | ⟨_, _, arguments⟩ => by simp [same, sameSlots_refl arguments]

theorem sameSlots_refl : ∀ a : List (String × NodeTree), sameSlots a a = true
  | [] => by simp [sameSlots]
  | (_, child) :: rest => by simp [sameSlots, same_refl child, sameSlots_refl rest]

end

theorem same_iff {a b : NodeTree} : a.same b = true ↔ a = b :=
  ⟨eq_of_same, fun h => h ▸ same_refl a⟩

instance : DecidableEq NodeTree := fun _ _ => decidable_of_iff _ same_iff

end NodeTree

end Rulebook
