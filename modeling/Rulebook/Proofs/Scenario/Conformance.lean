import Rulebook.Proofs.Registry
import Rulebook.Proofs.Scenario.Ownership

/-!
# Nodes are what their variants say

Kind, type and literal of a node are those of its variant. What is in a slot has
the type of a parameter that the variant declares, and a list of a trigger has
only roots that it accepts. Every change checks the part of this that it touches;
that a literal which is replaced still fits rests on the check of the variant
when it was registered.
-/

namespace Rulebook

namespace Forest

variable {registry grown : Registry} {forest after : Forest}

/-- Every node is what its variant says. -/
structure Conforms (registry : Registry) (forest : Forest) : Prop where
  /-- The variant is registered, and kind, type and literal are as it says. -/
  typed : ∀ {id node}, forest.get? id = some node →
    ∃ variant, registry.get? node.variant = some variant ∧ node.kind = variant.kind ∧
      node.result = variant.result ∧ variant.literal = node.literal.map (·.type)
  /-- Every filled slot is declared, and what is in it has the type of the slot. -/
  slots : ∀ {id node variant binding}, forest.get? id = some node →
    registry.get? node.variant = some variant → binding ∈ node.arguments →
    ∃ param inner, variant.param? binding.param = some param ∧
      forest.get? binding.child = some inner ∧ inner.result = param.type

namespace Conforms

/--
Slots still fit after a change if each was there before, or is the one that the
change has filled. What is in a slot may change, but not its type.
-/
theorem slots_of_change (h : Conforms registry forest) (hl : Linked forest)
    (hc : Change registry forest after) {id : NodeId} {left : Node} {variant : Variant}
    {binding : Binding} (hn : after.get? id = some left)
    (hv : registry.get? left.variant = some variant) (hb : binding ∈ left.arguments)
    {node : Node} (hold : forest.get? id = some node) (hmem : binding ∈ node.arguments) :
    ∃ param inner, variant.param? binding.param = some param ∧
      after.get? binding.child = some inner ∧ inner.result = param.type := by
  obtain ⟨hvar, _⟩ := hc.persists hl hold hn
  rw [hvar] at hv
  obtain ⟨param, inner, hp, hi, ht⟩ := h.slots hold hv hmem
  have hchild : binding.child ∈ left.children := Node.mem_children.mpr ⟨binding, hb, rfl⟩
  obtain ⟨inner', hi', _⟩ := (hc.linked hl).down hn hchild
  obtain ⟨_, _, hr, _⟩ := hc.persists hl hi hi'
  exact ⟨param, inner', hp, hi', hr.trans ht⟩

/-- Apart from its owner a node stays what it was. -/
theorem get?_of_setOwner {id root : NodeId} {owner : Owner} {left : Node}
    (hx : (forest.setOwner root owner).get? id = some left) :
    ∃ node, forest.get? id = some node ∧ left.variant = node.variant ∧ left.kind = node.kind ∧
      left.result = node.result ∧ left.literal = node.literal ∧
      left.arguments = node.arguments := by
  rw [get?_setOwner] at hx
  split at hx
  · obtain ⟨node, hn, rfl⟩ := Option.map_eq_some_iff.mp hx
    exact ⟨node, hn, rfl, rfl, rfl, rfl, rfl⟩
  · exact ⟨left, hx, rfl, rfl, rfl, rfl, rfl⟩

theorem setOwner (h : Conforms registry forest) {root : NodeId} {owner : Owner} :
    Conforms registry (forest.setOwner root owner) where
  typed := by
    intro id left hn
    obtain ⟨node, hold, hv, hk, hr, hlit, _⟩ := get?_of_setOwner hn
    rw [hv, hk, hr, hlit]
    exact h.typed hold
  slots := by
    intro id left variant binding hn hvar hb
    obtain ⟨node, hold, hv, _, _, _, ha⟩ := get?_of_setOwner hn
    rw [hv] at hvar
    rw [ha] at hb
    obtain ⟨param, inner, hp, hi, ht⟩ := h.slots hold hvar hb
    refine ⟨param, ?_⟩
    -- the child may be the root itself, which keeps its type
    rw [get?_setOwner, hi]
    split
    · exact ⟨_, hp, rfl, ht⟩
    · exact ⟨_, hp, rfl, ht⟩

theorem removeSubtree (h : Conforms registry forest) (hl : Linked forest) (id : NodeId) :
    Conforms registry (forest.removeSubtree id) where
  typed := by
    intro x left hn
    obtain ⟨_, n, hold, rfl⟩ := (get?_removeSubtree hl).mp hn
    have htyped := h.typed hold
    exact htyped
  slots := by
    intro x left variant binding hn hvar hb
    obtain ⟨_, n, hold, rfl⟩ := (get?_removeSubtree hl).mp hn
    obtain ⟨param, inner, hp, hi, ht⟩ := h.slots hold hvar (Node.mem_release.mp hb).1
    -- what is still held is still there
    have hchild : binding.child ∈ (n.release id).children :=
      Node.mem_children.mpr ⟨binding, hb, rfl⟩
    obtain ⟨inner', hi', _⟩ := (linked_removeSubtree hl id).down hn hchild
    obtain ⟨_, m, hm, rfl⟩ := (get?_removeSubtree hl).mp hi'
    rw [hi] at hm
    cases hm
    exact ⟨param, _, hp, hi', ht⟩

theorem plant (h : Conforms registry forest) (hl : Linked forest) {variant : Variant}
    {literal : Option Literal} (hv : registry.get? variant.id = some variant)
    (hlit : variant.literal = literal.map (·.type)) :
    Conforms registry (forest.plant variant literal) where
  typed := by
    intro id left hn
    rcases (get?_plant_iff hl).mp hn with ⟨_, rfl⟩ | hold
    · exact ⟨_, hv, rfl, rfl, hlit⟩
    · exact h.typed hold
  slots := by
    intro id left variant binding hn hvar hb
    rcases (get?_plant_iff hl).mp hn with ⟨_, rfl⟩ | hold
    · exact absurd hb (by simp [planted])
    · exact h.slots_of_change hl (.plant hv hlit) hn hvar hb hold hb

theorem fill (h : Conforms registry forest) (hl : Linked forest) {parent child : NodeId}
    {param : String} {node inner : Node} {variant : Variant} {slot : Param}
    (hf : Fillable forest parent param child node inner)
    (hv : registry.get? node.variant = some variant) (hslot : variant.param? param = some slot)
    (ht : inner.result = slot.type) : Conforms registry (forest.fillSlot parent param child) where
  typed := by
    intro id left hn
    obtain ⟨n, hold, rfl⟩ := (get?_fillSlot_iff hf.ne).mp hn
    have htyped := h.typed hold
    split
    · exact htyped
    · split
      · exact htyped
      · exact htyped
  slots := by
    intro id left variant' binding hn hvar hb
    have hchange : Change registry forest (forest.fillSlot parent param child) :=
      .fill hf.holder hv hslot hf.empty hf.there hf.free ht hf.apart
    have hold : ∀ {n}, forest.get? id = some n → binding ∈ n.arguments → _ := fun hn' hm =>
      h.slots_of_change hl hchange hn hvar hb hn' hm
    by_cases he : id = parent
    · subst he
      rw [hf.get?_holder] at hn
      cases hn
      -- the binding is an old one, or the one that was put in
      rcases List.mem_append.mp hb with hb' | hb'
      · exact hold hf.holder hb'
      · rw [List.mem_singleton.mp hb']
        have hsame : some variant = some variant' := hv.symm.trans hvar
        cases hsame
        exact ⟨slot, _, hslot, hf.get?_child, ht⟩
    · obtain ⟨n, hn', _, _, hargs⟩ := hf.origin hn
      exact hold hn' (hargs he ▸ hb)

theorem relabel (h : Conforms registry forest) (hs : registry.Sound) (hl : Linked forest)
    {target : NodeId} {node : Node} {literal : Literal} (hn : forest.get? target = some node)
    (hk : node.kind = .value) (ht : literal.type = node.result) :
    Conforms registry (forest.update target fun node => { node with literal := some literal }) where
  typed := by
    intro id left hg
    rw [get?_update] at hg
    split at hg
    · rename_i he
      subst he
      rw [hn] at hg
      cases hg
      obtain ⟨variant, hv, hkind, hresult, _⟩ := h.typed hn
      refine ⟨variant, hv, hkind, hresult, ?_⟩
      -- only value nodes are relabelled, and their variants carry a literal of their type
      rw [(hs.get? hv).literal_of_value (hkind.symm.trans hk), ← hresult, ← ht]
      rfl
    · exact h.typed hg
  slots := by
    intro id left variant binding hg hvar hb
    have hslots : ∀ {n}, forest.get? id = some n → binding ∈ n.arguments → _ := fun hold hm =>
      h.slots_of_change hl (.relabel hn hk ht) hg hvar hb hold hm
    rw [get?_update] at hg
    split at hg
    · rename_i he
      subst he
      rw [hn] at hg
      cases hg
      exact hslots hn hb
    · exact hslots hg hb

/-- **Every change leaves every node what its variant says.** -/
theorem change (h : Conforms registry forest) (hs : registry.Sound) (hl : Linked forest)
    (hc : Change registry forest after) : Conforms registry after := by
  cases hc with
  | plant hv hlit => exact h.plant hl hv hlit
  | fill hp hv hslot ha hc hd ht hnb => exact h.fill hl ⟨hp, ha, hc, hd, hnb⟩ hv hslot ht
  | remove _ => exact h.removeSubtree hl _
  | relabel hn hk ht => exact h.relabel hs hl hn hk ht

end Conforms

theorem conforms_empty : Conforms registry .empty := by
  constructor <;> intros <;> simp_all [Forest.empty, get?]

theorem Conforms.grow (h : Conforms registry forest) (hg : Registry.Grows registry grown) :
    Conforms grown forest where
  typed := by
    intro id node hn
    obtain ⟨variant, hv, hrest⟩ := h.typed hn
    exact ⟨variant, hg.get? hv, hrest⟩
  slots := by
    intro id node variant binding hn hv hb
    -- the name stood for a variant before, so it still stands for that one
    obtain ⟨old, hold, _⟩ := h.typed hn
    rw [hg.get? hold] at hv
    cases hv
    exact h.slots hn hold hb

end Forest

namespace Scenario

variable {registry grown : Registry} {scenario after : Scenario}

/-- Every node is what its variant says, and every list has only roots that it accepts. -/
structure Conforms (registry : Registry) (scenario : Scenario) : Prop where
  forest : Forest.Conforms registry scenario.forest
  roots : ∀ listing ∈ scenario.listings, ∃ node, scenario.forest.get? listing.root = some node ∧
    listing.clause.accepts node.kind node.result = true

theorem conforms_removeTrees (roots : List NodeId) :
    ∀ {forest : Forest}, Forest.Conforms registry forest → Forest.Linked forest →
      Forest.Conforms registry (removeTrees forest roots) := by
  induction roots with
  | nil => exact fun h _ => h
  | cons root rest ih =>
      exact fun h hl => ih (h.removeSubtree hl root) (Forest.linked_removeSubtree hl root)

/-- What is left after trees were removed is of the kind and type that it was. -/
theorem get?_of_removeTrees (roots : List NodeId) :
    ∀ {forest : Forest} {id : NodeId} {left : Node}, Forest.Linked forest →
      (removeTrees forest roots).get? id = some left →
      ∃ node, forest.get? id = some node ∧ left.kind = node.kind ∧ left.result = node.result := by
  induction roots with
  | nil => exact fun _ hl => ⟨_, hl, rfl, rfl⟩
  | cons root rest ih =>
      intro forest id left h hl
      obtain ⟨mid, hm, hk, hr⟩ := ih (Forest.linked_removeSubtree h root) hl
      obtain ⟨_, node, hn, rfl⟩ := (Forest.get?_removeSubtree h).mp hm
      exact ⟨node, hn, hk, hr⟩

namespace Conforms

/-- Roots are still there after a change of the nodes, and of the kind and type that they were. -/
theorem of_forest (h : Conforms registry scenario) (hs : registry.Sound) (ho : Owned scenario)
    {forest : Forest} (hc : Forest.Change registry scenario.forest forest) :
    Conforms registry { scenario with forest } := by
  refine ⟨h.forest.change hs ho.linked hc, fun listing hl => ?_⟩
  obtain ⟨node, hn, ha⟩ := h.roots listing hl
  obtain ⟨_, hr, hown⟩ := ho.roots.mpr ⟨listing.clause, hl⟩
  rw [hn] at hr
  cases hr
  obtain ⟨left, hleft, _, hk, hres⟩ :=
    Forest.Changes.keeps_roots (.single hc) ho.linked hn hown
  refine ⟨left, hleft, ?_⟩
  rw [hk, hres]
  exact ha

theorem attach (h : Conforms registry scenario) {id : TriggerId} {clause : Clause} {root : NodeId}
    {node : Node} {triggers : List Trigger} (hr : scenario.forest.get? root = some node)
    (ha : clause.accepts node.kind node.result = true)
    (hlist : (triggers.flatMap Trigger.listings).Perm (⟨id, clause, root⟩ :: scenario.listings)) :
    Conforms registry
      { scenario with forest := scenario.forest.setOwner root (.trigger id), triggers } := by
  refine ⟨h.forest.setOwner, fun listing hl => ?_⟩
  -- neither kind nor type of a node changes with its owner
  have hkeep : ∀ x n, scenario.forest.get? x = some n →
      ∃ left, (scenario.forest.setOwner root (.trigger id)).get? x = some left ∧
        left.kind = n.kind ∧ left.result = n.result := by
    intro x n hn
    rw [Forest.get?_setOwner, hn]
    split
    · exact ⟨_, rfl, rfl, rfl⟩
    · exact ⟨_, rfl, rfl, rfl⟩
  rcases List.mem_cons.mp (hlist.mem_iff.mp hl) with he | hold
  · obtain ⟨left, hl, hk, hres⟩ := hkeep root node hr
    rw [he]
    refine ⟨left, hl, ?_⟩
    rw [hk, hres]
    exact ha
  · obtain ⟨n, hn, hacc⟩ := h.roots listing hold
    obtain ⟨left, hl, hk, hres⟩ := hkeep _ n hn
    refine ⟨left, hl, ?_⟩
    rw [hk, hres]
    exact hacc

theorem arrange (h : Conforms registry scenario) (ho : Owned scenario) {triggers : List Trigger}
    {gone : List Listing}
    (hlist : scenario.listings.Perm (gone ++ triggers.flatMap Trigger.listings))
    (hids : (triggers.map Trigger.id).Subperm (scenario.triggers.map Trigger.id)) :
    Conforms registry { scenario with
      forest := removeTrees scenario.forest (gone.map Listing.root), triggers } := by
  have hafter := Change.owned_arrange ho hlist hids
  refine ⟨conforms_removeTrees _ h.forest ho.linked, fun listing hl => ?_⟩
  -- what is still on a list was not removed with the others
  obtain ⟨left, hleft, _⟩ := hafter.roots.mpr ⟨listing.clause, hl⟩
  obtain ⟨node, hn, hk, hres⟩ := get?_of_removeTrees _ ho.linked hleft
  obtain ⟨n, hn', ha⟩ := h.roots listing (hlist.mem_iff.mpr (List.mem_append_right _ hl))
  rw [hn] at hn'
  cases hn'
  refine ⟨left, hleft, ?_⟩
  rw [hk, hres]
  exact ha

theorem change (h : Conforms registry scenario) (hs : registry.Sound) (ho : Owned scenario)
    (hc : Change registry scenario after) : Conforms registry after := by
  cases hc with
  | forest hf => exact h.of_forest hs ho hf
  | addTrigger =>
      refine ⟨h.forest, fun listing hl => h.roots listing ?_⟩
      simpa [listings, Trigger.listings, Clause.all, Trigger.roots] using hl
  | attach hr _ ha _ hlist => exact h.attach hr ha hlist
  | arrange gone hlist hids => exact h.arrange ho hlist hids
  | addRegion _ => exact ⟨h.forest, h.roots⟩
  | sift _ => exact ⟨h.forest, h.roots⟩

theorem grow (h : Conforms registry scenario) (hg : Registry.Grows registry grown) :
    Conforms grown scenario :=
  ⟨h.forest.grow hg, h.roots⟩

end Conforms

theorem Reachable.grows (h : Reachable registry scenario) : Registry.Grows .empty registry := by
  induction h with
  | empty name => exact .refl
  | register _ hr ih => exact ih.tail ⟨_, hr⟩
  | request _ _ _ _ ih => exact ih

theorem Reachable.sound (h : Reachable registry scenario) : registry.Sound := h.grows.sound

theorem Reachable.owned (h : Reachable registry scenario) : Owned scenario := h.reached.owned

theorem Reachable.conforms (h : Reachable registry scenario) : Conforms registry scenario := by
  induction h with
  | empty name => exact ⟨Forest.conforms_empty, by simp [Scenario.empty, listings]⟩
  | register _ hr ih => exact ih.grow (.single ⟨_, hr⟩)
  | request request h hf _ ih =>
      have hs := h.sound
      exact (request.changes h.owned hf).keep (fun hc ho hp => hp.change hs ho hc) h.owned ih

/-! ## The same, spelled out -/

/-- The nodes and lists of a script, each as the registered variants say. -/
structure Conformance (registry : Registry) (scenario : Scenario) : Prop where
  /-- The variant of a node is registered, and kind and type of the node are as it says. -/
  variant : ∀ {id node}, scenario.forest.get? id = some node →
    ∃ variant, registry.get? node.variant = some variant ∧ node.kind = variant.kind ∧
      node.result = variant.result
  /-- A node has a literal exactly when its variant carries one, and then of that type. -/
  literal : ∀ {id node variant}, scenario.forest.get? id = some node →
    registry.get? node.variant = some variant →
    ∀ type, variant.literal = some type ↔ ∃ literal, node.literal = some literal ∧
      literal.type = type
  /-- No slot is filled twice. -/
  distinct : ∀ {id node}, scenario.forest.get? id = some node →
    (node.arguments.map Binding.param).Nodup
  /-- A filled slot is declared, and what is in it is a node of the declared type. -/
  slots : ∀ {id node variant binding}, scenario.forest.get? id = some node →
    registry.get? node.variant = some variant → binding ∈ node.arguments →
    ∃ param ∈ variant.params, param.name = binding.param ∧
      ∃ inner, scenario.forest.get? binding.child = some inner ∧ inner.result = param.type
  /-- Events are events. -/
  events : ∀ {trigger root}, trigger ∈ scenario.triggers → root ∈ trigger.events →
    ∃ node, scenario.forest.get? root = some node ∧ node.kind = .event
  /-- Conditions are booleans, and neither events nor actions. -/
  conditions : ∀ {trigger root}, trigger ∈ scenario.triggers → root ∈ trigger.conditions →
    ∃ node, scenario.forest.get? root = some node ∧ node.result = .bool ∧ node.kind ≠ .event ∧
      node.kind ≠ .action
  /-- Actions are actions. -/
  actions : ∀ {trigger root}, trigger ∈ scenario.triggers → root ∈ trigger.actions →
    ∃ node, scenario.forest.get? root = some node ∧ node.kind = .action

/-- What stands on a list is taken by the list. -/
theorem Conforms.accepted (h : Conforms registry scenario) {trigger : Trigger} {root : NodeId}
    (ht : trigger ∈ scenario.triggers) (clause : Clause) (hr : root ∈ trigger.roots clause) :
    ∃ node, scenario.forest.get? root = some node ∧ clause.accepts node.kind node.result = true :=
  h.roots ⟨trigger.id, clause, root⟩ (mem_listings.mpr ⟨trigger, ht, rfl, hr⟩)

theorem Conforms.toConformance (h : Conforms registry scenario) (ho : Owned scenario) :
    Conformance registry scenario where
  variant := by
    intro id node hn
    obtain ⟨variant, hv, hk, hr, _⟩ := h.forest.typed hn
    exact ⟨variant, hv, hk, hr⟩
  literal := by
    intro id node variant hn hv type
    obtain ⟨variant', hv', _, _, hl⟩ := h.forest.typed hn
    rw [hv] at hv'
    cases hv'
    rw [hl, Option.map_eq_some_iff]
  distinct := by
    intro id node hn
    exact ho.linked.names hn
  slots := by
    intro id node variant binding hn hv hb
    obtain ⟨param, inner, hp, hi, ht⟩ := h.forest.slots hn hv hb
    obtain ⟨hm, he⟩ := Variant.mem_of_param? hp
    exact ⟨param, hm, he, inner, hi, ht⟩
  events := by
    intro trigger root ht hr
    obtain ⟨node, hn, ha⟩ := h.accepted ht .events hr
    exact ⟨node, hn, by simpa [Clause.accepts] using ha⟩
  conditions := by
    intro trigger root ht hr
    obtain ⟨node, hn, ha⟩ := h.accepted ht .conditions hr
    simp only [Clause.accepts, Bool.and_eq_true, beq_iff_eq, bne_iff_ne] at ha
    exact ⟨node, hn, ha.1.1, ha.1.2, ha.2⟩
  actions := by
    intro trigger root ht hr
    obtain ⟨node, hn, ha⟩ := h.accepted ht .actions hr
    exact ⟨node, hn, by simpa [Clause.accepts] using ha⟩

/-- **A reachable script is as the registered variants say**, and remains so however many
variants are registered after it was made. -/
theorem Reachable.conformance (h : Reachable registry scenario) :
    ∀ grown, Registry.Grows registry grown → Conformance grown scenario :=
  fun _ hg => (h.conforms.grow hg).toConformance h.owned

/-- The greeting still conforms after an event was registered that it does not use. -/
theorem conformance_greeting :
    Greeting.variants.register Greeting.spawned
        = .ok ⟨[Greeting.say, Greeting.word, Greeting.spawned]⟩ ∧
      Conformance ⟨[Greeting.say, Greeting.word, Greeting.spawned]⟩ Greeting.script :=
  ⟨rfl, Greeting.script_reachable.conformance _ (.single ⟨Greeting.spawned, rfl⟩)⟩

end Scenario

end Rulebook
