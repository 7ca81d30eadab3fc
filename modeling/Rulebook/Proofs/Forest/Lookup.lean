import Mathlib.Data.List.Nodup
import Mathlib.Data.List.Perm.Subperm
import Rulebook.Forest.Edit

/-!
# Looking nodes up after a change

A forest is known by two things: what each number looks up to, and which number
comes next. Every change of a forest is described here by what it does to these
two, and nothing after this module looks into the map behind them.
-/

namespace Rulebook

namespace Node

/-! ## Slots of a node -/

@[simp] theorem children_fill (node : Node) (param : String) (child : NodeId) :
    (node.fill param child).children = node.children ++ [child] := by
  simp [children, fill]

theorem mem_children {node : Node} {child : NodeId} :
    child ∈ node.children ↔ ∃ binding ∈ node.arguments, binding.child = child := by
  simp [children]

theorem mem_release {node : Node} {child : NodeId} {binding : Binding} :
    binding ∈ (node.release child).arguments ↔
      binding ∈ node.arguments ∧ binding.child ≠ child := by
  simp [release]

theorem children_release (node : Node) (child : NodeId) :
    (node.release child).children = node.children.filter (· != child) := by
  simp only [children, release, List.filter_map]
  rfl

theorem mem_children_release {node : Node} {child c : NodeId} :
    c ∈ (node.release child).children ↔ c ∈ node.children ∧ c ≠ child := by
  rw [children_release, List.mem_filter, bne_iff_ne]

/-- Releasing what is not held changes nothing. -/
theorem release_of_not_mem {node : Node} {child : NodeId} (h : child ∉ node.children) :
    node.release child = node := by
  have hall : node.arguments.filter (fun binding => binding.child != child) = node.arguments := by
    rw [List.filter_eq_self]
    intro binding hb
    rw [bne_iff_ne]
    intro he
    exact h (mem_children.mpr ⟨binding, hb, he⟩)
  rw [release, hall]

theorem argument?_eq_none {node : Node} {param : String} :
    node.argument? param = none ↔ param ∉ node.arguments.map Binding.param := by
  rw [argument?, Option.map_eq_none_iff, List.find?_eq_none]
  simp

/-- What is found in a slot is held there. -/
theorem mem_of_argument? {node : Node} {param : String} {child : NodeId}
    (h : node.argument? param = some child) : ⟨param, child⟩ ∈ node.arguments := by
  obtain ⟨binding, hb, hc⟩ := Option.map_eq_some_iff.mp h
  have hp : binding.param = param := by simpa using List.find?_some hb
  have hm := List.mem_of_find?_eq_some hb
  rw [← hp, ← hc]
  exact hm

/-- Where no name occurs twice, everything that is held is found in its slot. -/
theorem argument?_of_mem {node : Node} {binding : Binding}
    (hn : (node.arguments.map Binding.param).Nodup) (hb : binding ∈ node.arguments) :
    node.argument? binding.param = some binding.child := by
  cases h : node.argument? binding.param with
  | none => exact absurd (List.mem_map_of_mem hb) (argument?_eq_none.mp h)
  | some child =>
      have he := List.inj_on_of_nodup_map hn (mem_of_argument? h) hb rfl
      rw [← he]

/-- One more slot is filled. -/
theorem argument?_fill {node : Node} {param name : String} {child : NodeId}
    (h : node.argument? param = none) :
    (node.fill param child).argument? name
      = if name = param then some child else node.argument? name := by
  rw [Node.argument?, Node.fill, List.find?_append, Option.map_or]
  by_cases he : name = param
  · subst he
    rw [if_pos rfl]
    -- the slot was empty, so its new entry is the first of that name
    have hnone : (node.arguments.find? fun binding => binding.param == name).map (·.child) = none :=
      h
    rw [hnone]
    simp
  · rw [if_neg he]
    have hne : (param == name) = false := beq_false_of_ne fun heq => he heq.symm
    rw [List.find?_singleton, hne]
    exact Option.or_none

/-- One slot is emptied. -/
theorem argument?_clear {node : Node} {param name : String} :
    (node.clear param).argument? name = if name = param then none else node.argument? name := by
  rw [argument?, clear, List.find?_filter]
  by_cases he : name = param
  · rw [if_pos he, Option.map_eq_none_iff, List.find?_eq_none]
    intro binding _
    simp [he]
  · rw [if_neg he, argument?]
    congr 2
    funext binding
    by_cases hb : binding.param = name
    · simp [hb, he]
    · simp [hb]

theorem children_clear_subset {node : Node} {param : String} :
    (node.clear param).children ⊆ node.children :=
  List.map_subset _ (List.filter_subset_self _)

/-- Emptying an empty slot changes nothing. -/
theorem clear_of_empty {node : Node} {param : String} (h : node.argument? param = none) :
    node.clear param = node := by
  have hall : node.arguments.filter (fun binding => binding.param != param) = node.arguments := by
    rw [List.filter_eq_self]
    intro binding hb
    rw [bne_iff_ne]
    intro he
    exact argument?_eq_none.mp h (List.mem_map.mpr ⟨binding, hb, he⟩)
  rw [clear, hall]

end Node

namespace Forest

variable {forest : Forest} {id other : NodeId}

/-! ## Two forests that look the same are the same -/

theorem ext_get? {f g : Forest} (hn : ∀ id, f.get? id = g.get? id)
    (hi : f.nextId = g.nextId) : f = g := by
  cases f
  cases g
  simp only [get?] at hn hi
  rw [Std.ExtTreeMap.ext_getElem? hn, hi]

theorem require_ok {node : Node} : forest.require id = .ok node ↔ forest.get? id = some node := by
  rw [require]
  cases forest.get? id <;> simp

/-! ## Changing one node -/

theorem get?_update (f : Node → Node) :
    (forest.update id f).get? other
      = if other = id then (forest.get? other).map f else forest.get? other := by
  rw [get?, update, Std.ExtTreeMap.getElem?_modify]
  by_cases h : other = id
  · subst h
    rw [if_pos Std.ReflOrd.compare_self, if_pos rfl]
    rfl
  · rw [if_neg fun he => h (Std.LawfulEqOrd.eq_of_compare he).symm, if_neg h]
    rfl

@[simp] theorem nextId_update (f : Node → Node) : (forest.update id f).nextId = forest.nextId := rfl

theorem get?_setOwner (owner : Owner) :
    (forest.setOwner id owner).get? other
      = if other = id then (forest.get? other).map fun node => { node with owner }
        else forest.get? other :=
  get?_update _

@[simp] theorem nextId_setOwner (owner : Owner) :
    (forest.setOwner id owner).nextId = forest.nextId := rfl

/-! ## A new node -/

/-- The node that planting puts in. -/
def planted (forest : Forest) (variant : Variant) (literal : Option Literal) : Node :=
  { id := ⟨forest.nextId⟩, variant := variant.id, kind := variant.kind, result := variant.result,
    literal }

theorem get?_plant (variant : Variant) (literal : Option Literal) :
    (forest.plant variant literal).get? other
      = if other = ⟨forest.nextId⟩ then some (forest.planted variant literal)
        else forest.get? other := by
  rw [get?, plant, Std.ExtTreeMap.getElem?_insert]
  by_cases h : other = ⟨forest.nextId⟩
  · subst h
    rw [if_pos Std.ReflOrd.compare_self, if_pos rfl]
    rfl
  · rw [if_neg fun he => h (Std.LawfulEqOrd.eq_of_compare he).symm, if_neg h]
    rfl

@[simp] theorem nextId_plant (variant : Variant) (literal : Option Literal) :
    (forest.plant variant literal).nextId = forest.nextId + 1 := rfl

/-! ## A filled slot -/

theorem get?_fillSlot {parent child : NodeId} (param : String) (hne : parent ≠ child) :
    (forest.fillSlot parent param child).get? other
      = if other = parent then (forest.get? other).map fun node => node.fill param child
        else if other = child then
          (forest.get? other).map fun node => { node with owner := .argument parent }
        else forest.get? other := by
  rw [fillSlot, get?_setOwner, get?_update]
  by_cases hp : other = parent
  · subst hp
    rw [if_neg hne, if_pos rfl, if_pos rfl]
  · rw [if_neg hp, if_neg hp]

@[simp] theorem nextId_fillSlot (parent child : NodeId) (param : String) :
    (forest.fillSlot parent param child).nextId = forest.nextId := rfl

/-! ## How many nodes there are -/

theorem mem_keys : id ∈ forest.nodes.keys ↔ ∃ node, forest.get? id = some node := by
  rw [Std.ExtTreeMap.mem_keys, Std.ExtTreeMap.mem_iff_isSome_getElem?, Option.isSome_iff_exists]
  rfl

/-- Numbers that all have a node, each listed once, are no more than there are nodes. -/
theorem length_le_size {ids : List NodeId} (hn : ids.Nodup)
    (hm : ∀ id ∈ ids, ∃ node, forest.get? id = some node) : ids.length ≤ forest.size := by
  have hsub : ids ⊆ forest.nodes.keys := fun id hid => mem_keys.mpr (hm id hid)
  calc ids.length ≤ forest.nodes.keys.length := (hn.subperm hsub).length_le
    _ = forest.size := Std.ExtTreeMap.length_keys

/-- If no node is missing among them, they are as many. -/
theorem size_eq_length {ids : List NodeId} (hn : ids.Nodup)
    (hm : ∀ id, id ∈ ids ↔ ∃ node, forest.get? id = some node) : forest.size = ids.length := by
  have hperm : ids.Perm forest.nodes.keys :=
    (List.perm_ext_iff_of_nodup hn Std.ExtTreeMap.nodup_keys).mpr fun id => by
      rw [hm, mem_keys]
  rw [hperm.length_eq]
  exact Std.ExtTreeMap.length_keys.symm

end Forest

namespace Registry

theorem require_ok {registry : Registry} {id : VariantId} {variant : Variant} :
    registry.require id = .ok variant ↔ registry.get? id = some variant := by
  rw [require]
  cases registry.get? id <;> simp

theorem id_of_get? {registry : Registry} {id : VariantId} {variant : Variant}
    (h : registry.get? id = some variant) : variant.id = id := by
  simpa using List.find?_some h

theorem get?_id {registry : Registry} {id : VariantId} {variant : Variant}
    (h : registry.get? id = some variant) : registry.get? variant.id = some variant := by
  rw [id_of_get? h]
  exact h

end Registry

end Rulebook
