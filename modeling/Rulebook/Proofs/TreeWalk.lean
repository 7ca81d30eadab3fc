import Rulebook.Proofs.Forest.Growth
import Rulebook.Proofs.Forest.Traversal
import Rulebook.Proofs.Registry

/-!
# The walk through a tree

A tree is walked through from its root down, each node before what is in its
slots, and the slots in the order in which the variant of the node declares them.
That order is not the one in which a tree keeps its slots, so the walk asks the
registry for it.

If the tree fits the registry, the walk comes to every node once. The paths to the
nodes tell them apart, and each but the first leads from a node that was come to
before through one more slot, which that node declares.
-/

namespace Rulebook

namespace NodeTree

/-- The names of the slots of a variant, in the order in which it declares them. -/
def declaredNames (registry : Registry) (variant : VariantId) : List String :=
  ((registry.get? variant).map fun definition => definition.params.map Param.name).getD []

mutual

/-- The parts of the tree and the paths to them. -/
def walk (registry : Registry) (path : Path) : NodeTree → List (Path × NodeTree)
  | ⟨variant, literal, arguments⟩ =>
    (path, ⟨variant, literal, arguments⟩) ::
      (declaredNames registry variant).flatMap fun name =>
        ((slotWalks registry path arguments).lookup name).getD []

/-- The parts of the trees in several slots, slot by slot. -/
def slotWalks (registry : Registry) (path : Path) :
    List (String × NodeTree) → List (String × List (Path × NodeTree))
  | [] => []
  | (name, tree) :: rest =>
    (name, tree.walk registry (path ++ [name])) :: slotWalks registry path rest

end

/-- The filled slots, in the order in which the variant declares them. -/
def declaredSlots (registry : Registry) (tree : NodeTree) : List (String × NodeTree) :=
  (declaredNames registry tree.variant).filterMap fun name =>
    (tree.arguments.lookup name).map fun inner => (name, inner)

variable {registry : Registry} {path : Path} {tree inner : NodeTree} {name : String}

theorem lookup_slotWalks (filled : List (String × NodeTree)) :
    (slotWalks registry path filled).lookup name
      = (filled.lookup name).map (walk registry (path ++ [name])) := by
  induction filled with
  | nil => rfl
  | cons slot rest ih =>
      obtain ⟨first, tree⟩ := slot
      rw [slotWalks, lookup_slot, lookup_slot]
      by_cases he : name = first
      · rw [if_pos he, if_pos he, he, Option.map_some]
      · rw [if_neg he, if_neg he]
        exact ih

/-- **First the node, then slot by slot.** -/
theorem walk_eq (registry : Registry) (path : Path) (tree : NodeTree) :
    tree.walk registry path
      = (path, tree) :: (tree.declaredSlots registry).flatMap fun slot =>
          slot.2.walk registry (path ++ [slot.1]) := by
  obtain ⟨variant, literal, arguments⟩ := tree
  rw [walk, declaredSlots]
  refine congrArg _ ?_
  induction declaredNames registry variant with
  | nil => rfl
  | cons name rest ih =>
      rw [List.flatMap_cons, ih, lookup_slotWalks, List.filterMap_cons]
      cases arguments.lookup name with
      | none => rfl
      | some inner => rfl

/-! ## Slots in the order of the variant -/

theorem mem_declaredNames {variant : VariantId} :
    name ∈ declaredNames registry variant ↔
      ∃ definition, registry.get? variant = some definition ∧
        ∃ param ∈ definition.params, param.name = name := by
  rw [declaredNames]
  cases registry.get? variant with
  | none => simp
  | some definition => simp

theorem mem_declaredSlots :
    (name, inner) ∈ tree.declaredSlots registry ↔
      name ∈ declaredNames registry tree.variant ∧ tree.arguments.lookup name = some inner := by
  rw [declaredSlots, List.mem_filterMap]
  constructor
  · rintro ⟨other, hdeclared, hslot⟩
    obtain ⟨_, hlookup, he⟩ := Option.map_eq_some_iff.mp hslot
    cases he
    exact ⟨hdeclared, hlookup⟩
  · rintro ⟨hdeclared, hlookup⟩
    exact ⟨name, hdeclared, by rw [hlookup, Option.map_some]⟩

theorem nodup_declaredNames (hr : registry.Sound) (variant : VariantId) :
    (declaredNames registry variant).Nodup := by
  rw [declaredNames]
  cases hv : registry.get? variant with
  | none => exact .nil
  | some definition => exact (hr.get? hv).distinct

theorem map_fst_declaredSlots :
    (tree.declaredSlots registry).map Prod.fst
      = (declaredNames registry tree.variant).filter fun name =>
          (tree.arguments.lookup name).isSome := by
  rw [declaredSlots]
  induction declaredNames registry tree.variant with
  | nil => rfl
  | cons name rest ih =>
      rw [List.filterMap_cons, List.filter_cons]
      cases tree.arguments.lookup name with
      | none => exact ih
      | some inner => exact congrArg (name :: ·) ih

theorem nodup_declaredSlots (hr : registry.Sound) (tree : NodeTree) :
    ((tree.declaredSlots registry).map Prod.fst).Nodup := by
  rw [map_fst_declaredSlots]
  exact (nodup_declaredNames hr tree.variant).filter _

/-- What is filled is declared. -/
theorem Fits.mem_declaredNames (h : tree.Fits registry) {slot : String × NodeTree}
    (hs : slot ∈ tree.arguments) : slot.1 ∈ declaredNames registry tree.variant := by
  cases h with
  | node hv _ hslots _ =>
      obtain ⟨param, _, hp, _⟩ := hslots slot hs
      obtain ⟨hm, he⟩ := Variant.mem_of_param? hp
      exact mem_declaredNames.mpr ⟨_, hv, param, hm, he⟩

theorem Fits.of_mem (h : tree.Fits registry) {slot : String × NodeTree}
    (hs : slot ∈ tree.arguments) : slot.2.Fits registry := by
  cases h with
  | node _ _ _ hinner => exact hinner slot hs

/-- The order of the variant is another order of the slots. -/
theorem Fits.declaredSlots_perm (h : tree.Fits registry) (ho : tree.Ordered)
    (hr : registry.Sound) : (tree.declaredSlots registry).Perm tree.arguments := by
  have hnames : (tree.arguments.map Prod.fst).Nodup := ho.slots.imp fun hlt => ne_of_lt hlt
  rw [List.perm_ext_iff_of_nodup (.of_map _ (nodup_declaredSlots hr tree)) (.of_map _ hnames)]
  rintro ⟨name, inner⟩
  rw [mem_declaredSlots, mem_iff_lookup ho.slots]
  refine ⟨And.right, fun hlookup => ⟨?_, hlookup⟩⟩
  exact h.mem_declaredNames ((mem_iff_lookup ho.slots).mpr hlookup)

/-- What holds of a tree whenever it holds of the trees in its declared slots holds of every tree
that fits. -/
theorem walk_induction {motive : NodeTree → Prop} (hr : registry.Sound)
    (node : ∀ tree : NodeTree, tree.Fits registry → tree.Ordered →
      (tree.declaredSlots registry).Perm tree.arguments →
      (∀ slot ∈ tree.declaredSlots registry, motive slot.2) → motive tree)
    (tree : NodeTree) (h : tree.Fits registry) (ho : tree.Ordered) : motive tree := by
  induction tree using slot_induction with
  | node variant literal arguments ih =>
      have hperm := h.declaredSlots_perm ho hr
      refine node _ h ho hperm fun slot hs => ?_
      have hm := hperm.mem_iff.mp hs
      exact ih slot hm (h.of_mem hm) (ho.of_mem hm)

/-! ## Every part once -/

theorem slotLiterals_eq_flatMap (filled : List (String × NodeTree)) :
    slotLiterals filled = filled.flatMap fun slot => slot.2.literals := by
  induction filled with
  | nil => rfl
  | cons slot rest ih => rw [slotLiterals, ih, List.flatMap_cons]

/-- **As many parts as the tree has nodes.** -/
theorem length_walk (hr : registry.Sound) (h : tree.Fits registry) (ho : tree.Ordered) :
    ∀ path, (tree.walk registry path).length = tree.size := by
  refine walk_induction (motive := fun tree =>
    ∀ path, (tree.walk registry path).length = tree.size)
    hr (fun tree _ _ hperm ih path => ?_) tree h ho
  have hslots : (tree.declaredSlots registry).map (fun slot =>
      (slot.2.walk registry (path ++ [slot.1])).length)
        = (tree.declaredSlots registry).map fun slot => slot.2.size :=
    List.map_congr_left fun slot hs => ih slot hs _
  rw [walk_eq, List.length_cons, List.length_flatMap, hslots, (hperm.map _).sum_nat, ← sizes_eq_sum]
  obtain ⟨variant, literal, arguments⟩ := tree
  rw [size, Nat.add_comm]

/-- **As many literals on the way as the tree has.** -/
theorem literals_walk (hr : registry.Sound) (h : tree.Fits registry) (ho : tree.Ordered) :
    ∀ path,
      ((tree.walk registry path).filterMap fun part => part.2.literal).Perm tree.literals := by
  refine walk_induction (motive := fun tree => ∀ path,
    ((tree.walk registry path).filterMap fun part => part.2.literal).Perm tree.literals)
    hr (fun tree _ _ hperm ih path => ?_) tree h ho
  -- the slots are walked as declared and listed by name, which is a permutation
  have hbelow : (((tree.declaredSlots registry).flatMap fun slot =>
      slot.2.walk registry (path ++ [slot.1])).filterMap fun part => part.2.literal).Perm
        (slotLiterals tree.arguments) := by
    rw [List.filterMap_flatMap, slotLiterals_eq_flatMap]
    exact (List.Perm.flatMap_left _ fun slot hs => ih slot hs _).trans (hperm.flatMap_right _)
  rw [walk_eq, List.filterMap_cons]
  obtain ⟨variant, literal, arguments⟩ := tree
  rw [literals]
  cases literal with
  | none => exact hbelow
  | some literal => exact hbelow.cons literal

/-! ## Paths -/

/-- **The walk comes to what the paths lead to.** -/
theorem mem_walk (hr : registry.Sound) (h : tree.Fits registry) (ho : tree.Ordered) :
    ∀ path {found : Path} {part : NodeTree}, (found, part) ∈ tree.walk registry path ↔
      ∃ rest, found = path ++ rest ∧ tree.sub? rest = some part := by
  refine walk_induction (motive := fun tree => ∀ path {found : Path} {part : NodeTree},
    (found, part) ∈ tree.walk registry path ↔
      ∃ rest, found = path ++ rest ∧ tree.sub? rest = some part) hr
    (fun tree hfits hord _ ih path found part => ?_) tree h ho
  rw [walk_eq, List.mem_cons, List.mem_flatMap]
  constructor
  · -- the path is that of the root, or it goes on into one of the slots
    rintro (he | ⟨⟨name, inner⟩, hs, hpart⟩)
    · cases he
      exact ⟨[], (List.append_nil _).symm, rfl⟩
    · obtain ⟨rest, rfl, hsub⟩ := (ih _ hs _).mp hpart
      refine ⟨name :: rest, by rw [List.append_assoc, List.singleton_append], ?_⟩
      rw [sub?, (mem_declaredSlots.mp hs).2]
      exact hsub
  · rintro ⟨rest, rfl, hsub⟩
    cases rest with
    | nil =>
        cases hsub
        exact Or.inl (by rw [List.append_nil])
    | cons name rest =>
        obtain ⟨inner, hlookup, hsub⟩ := Option.bind_eq_some_iff.mp hsub
        have hm := (mem_iff_lookup hord.slots).mpr hlookup
        have hs : (name, inner) ∈ tree.declaredSlots registry :=
          mem_declaredSlots.mpr ⟨hfits.mem_declaredNames hm, hlookup⟩
        refine Or.inr ⟨(name, inner), hs, (ih _ hs _).mpr ⟨rest, ?_, hsub⟩⟩
        rw [List.append_assoc, List.singleton_append]

/-- **No path is taken twice.** -/
theorem nodup_walk (hr : registry.Sound) (h : tree.Fits registry) (ho : tree.Ordered) :
    ∀ path, ((tree.walk registry path).map Prod.fst).Nodup := by
  refine walk_induction (motive := fun tree =>
    ∀ path, ((tree.walk registry path).map Prod.fst).Nodup) hr
    (fun tree hfits hord hperm ih path => ?_) tree h ho
  -- below a slot all paths go on from the path to the slot
  have hbelow : ∀ slot ∈ tree.declaredSlots registry, ∀ found,
      found ∈ (slot.2.walk registry (path ++ [slot.1])).map Prod.fst →
        ∃ rest, found = path ++ slot.1 :: rest := by
    rintro ⟨name, inner⟩ hs found hm
    obtain ⟨⟨_, part⟩, hpart, rfl⟩ := List.mem_map.mp hm
    have hslot := hperm.mem_iff.mp hs
    obtain ⟨rest, he, _⟩ := (mem_walk hr (hfits.of_mem hslot) (hord.of_mem hslot) _).mp hpart
    exact ⟨rest, by rw [he, List.append_assoc, List.singleton_append]⟩
  rw [walk_eq, List.map_cons, List.map_flatMap, List.nodup_cons, List.nodup_flatMap]
  refine ⟨fun hm => ?_, fun slot hs => ih slot hs _, ?_⟩
  · obtain ⟨slot, hs, hfound⟩ := List.mem_flatMap.mp hm
    obtain ⟨rest, he⟩ := hbelow slot hs _ hfound
    simp at he
  · refine (List.pairwise_map.mp (nodup_declaredSlots hr tree)).imp_of_mem ?_
    intro one two hone htwo hne found hfound hother
    obtain ⟨rest, he⟩ := hbelow one hone found hfound
    obtain ⟨rest', he'⟩ := hbelow two htwo found hother
    exact hne (List.cons.inj (List.append_cancel_left (he.symm.trans he'))).1

/-- The path leads on from the holder through a slot that the holder declares. -/
def Leads (registry : Registry) (holder part : Path × NodeTree) : Prop :=
  ∃ name ∈ declaredNames registry holder.2.variant, part.1 = holder.1 ++ [name]

/-- **Every part but the first was led to from one before it.** -/
theorem led_walk (hr : registry.Sound) (h : tree.Fits registry) (ho : tree.Ordered) :
    ∀ path, ∀ part ∈ tree.walk registry path, part.1 = path ∨
      ∃ holder, [holder, part].Sublist (tree.walk registry path) ∧ Leads registry holder part := by
  refine walk_induction (motive := fun tree => ∀ path, ∀ part ∈ tree.walk registry path,
    part.1 = path ∨ ∃ holder, [holder, part].Sublist (tree.walk registry path) ∧
      Leads registry holder part) hr (fun tree _ _ _ ih path part hpart => ?_) tree h ho
  rw [walk_eq, List.mem_cons, List.mem_flatMap] at hpart
  rcases hpart with rfl | ⟨⟨name, inner⟩, hs, hpart⟩
  · exact Or.inl rfl
  · right
    -- the walk of a slot is an unbroken part of the whole walk
    have hblock : (inner.walk registry (path ++ [name])).Sublist
        ((tree.declaredSlots registry).flatMap fun slot =>
          slot.2.walk registry (path ++ [slot.1])) := by
      rw [List.flatMap_def]
      exact List.sublist_flatten_of_mem (List.mem_map.mpr ⟨_, hs, rfl⟩)
    rw [walk_eq]
    rcases ih _ hs _ part hpart with hroot | ⟨holder, hbefore, hleads⟩
    · -- the root of a slot is led to by the tree itself, which came first
      refine ⟨(path, tree), ?_, name, (mem_declaredSlots.mp hs).1, hroot⟩
      exact ((List.singleton_sublist.mpr hpart).trans hblock).cons_cons _
    · exact ⟨holder, (hbefore.trans hblock).cons _, hleads⟩

end NodeTree

end Rulebook
