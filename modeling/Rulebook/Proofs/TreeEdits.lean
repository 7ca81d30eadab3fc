import Rulebook.Proofs.TreePaths

/-!
# Trees changed in one place

What an editor does to a node, it does to one part of a tree: a literal is put
into it, one of its slots is filled or emptied. `modifyAt` changes the part that
a path leads to. Above it and beside it the tree stays what it was.
-/

namespace Rulebook

namespace NodeTree

/-- The tree with a literal put into its root. -/
def withLiteral (tree : NodeTree) (literal : Literal) : NodeTree :=
  { tree with literal := some literal }

/-- The tree with one slot of its root emptied. -/
def withoutArgument (tree : NodeTree) (param : String) : NodeTree :=
  { tree with arguments := tree.arguments.filter fun slot => slot.1 != param }

/-- The tree with the part changed that the path leads to. -/
def modifyAt (f : NodeTree → NodeTree) : Path → NodeTree → NodeTree
  | [], tree => f tree
  | name :: rest, tree =>
    { tree with
      arguments := tree.arguments.map fun slot =>
        (slot.1, if slot.1 = name then modifyAt f rest slot.2 else slot.2) }

variable {tree child : NodeTree} {filled : List (String × NodeTree)} {param name : String}
  {path : Path} {f : NodeTree → NodeTree}

/-! ## What is in the slots then -/

theorem lookup_fill :
    (fill param child filled).lookup name
      = if name = param then some child else filled.lookup name := by
  induction filled with
  | nil => rw [fill, lookup_slot]
  | cons slot rest ih =>
      obtain ⟨first, tree⟩ := slot
      rw [fill]
      split
      · rename_i he
        subst he
        rw [lookup_slot, lookup_slot]
        split <;> rfl
      · rename_i hne
        split
        · rw [lookup_slot]
        · rw [lookup_slot, lookup_slot, ih]
          -- the new slot goes behind one of another name
          by_cases hp : name = param
          · rw [if_pos hp, if_neg fun he => hne (hp.symm.trans he), if_pos hp]
          · rw [if_neg hp, if_neg hp]

theorem lookup_without :
    (filled.filter fun slot => slot.1 != param).lookup name
      = if name = param then none else filled.lookup name := by
  induction filled with
  | nil => simp
  | cons slot rest ih =>
      obtain ⟨first, tree⟩ := slot
      rw [List.filter_cons]
      by_cases he : first = param
      · rw [if_neg (by simp [he]), ih, lookup_slot]
        by_cases hp : name = param
        · rw [if_pos hp, if_pos hp]
        · rw [if_neg hp, if_neg hp, if_neg fun hn => hp (hn.trans he)]
      · rw [if_pos (bne_iff_ne.mpr he), lookup_slot, lookup_slot, ih]
        by_cases hp : name = param
        · rw [if_pos hp, if_pos hp, if_neg fun hn => he (hn.symm.trans hp)]
        · rw [if_neg hp, if_neg hp]

theorem lookup_modifyAt {rest : Path} :
    (modifyAt f (param :: rest) tree).arguments.lookup name
      = if name = param then (tree.arguments.lookup name).map (modifyAt f rest)
        else tree.arguments.lookup name := by
  rw [modifyAt]
  induction tree.arguments with
  | nil => simp
  | cons slot filled ih =>
      obtain ⟨first, inner⟩ := slot
      rw [List.map_cons, lookup_slot, lookup_slot, ih]
      by_cases he : name = first
      · subst he
        rw [if_pos rfl, if_pos rfl]
        split <;> rfl
      · rw [if_neg he, if_neg he]

/-- The names of the slots are the same, unless the root itself is changed. -/
theorem names_modifyAt {rest : Path} :
    (modifyAt f (param :: rest) tree).arguments.map Prod.fst = tree.arguments.map Prod.fst := by
  rw [modifyAt, List.map_map]
  rfl

theorem without_ordered (hs : (filled.map Prod.fst).Pairwise (· < ·)) :
    ((filled.filter fun slot => slot.1 != param).map Prod.fst).Pairwise (· < ·) :=
  hs.sublist (List.filter_sublist.map _)

/-! ## What is at the paths then -/

/-- **The part that the path leads to is changed.** -/
theorem sub?_modifyAt : sub? path (modifyAt f path tree) = (sub? path tree).map f := by
  induction path generalizing tree with
  | nil => rfl
  | cons name rest ih =>
      rw [sub?, sub?, lookup_modifyAt, if_pos rfl]
      cases tree.arguments.lookup name with
      | none => rfl
      | some inner => exact ih

/-- **Everywhere else stands what stood there before.** -/
theorem at?_modifyAt {other : Path} (h : ¬ path <+: other) :
    at? other (modifyAt f path tree) = at? other tree := by
  induction path generalizing tree other with
  | nil => exact absurd List.nil_prefix h
  | cons name rest ih =>
      cases other with
      | nil => rfl
      | cons first others =>
          unfold at? at ih ⊢
          rw [sub?, sub?, lookup_modifyAt]
          split
          · rename_i he
            subst he
            -- both go into the same slot, so the paths part further down
            have hrest : ¬ rest <+: others := fun hp => h (List.cons_prefix_cons.mpr ⟨rfl, hp⟩)
            cases tree.arguments.lookup first with
            | none => rfl
            | some inner => exact ih hrest
          · rfl

end NodeTree

end Rulebook
