import Rulebook.Proofs.Forest.Changes
import Rulebook.Proofs.Scenario.Listing

/-!
# Runs of changes of a scenario

Like the edits of a forest, the requests of an editor come down to a few
changes: of the nodes, of the lists of triggers, of the regions. `Owned` is what
every one of them keeps: the nodes are linked, and the lists of the triggers and
the owners of the nodes say the same about the roots.
-/

namespace Rulebook

namespace Forest

variable {forest after : Forest} {id root : NodeId} {t : TriggerId} {registry : Registry}

/-- The trigger is the owner of the node. -/
def HeldBy (forest : Forest) (t : TriggerId) (id : NodeId) : Prop :=
  ∃ node, forest.get? id = some node ∧ node.owner = .trigger t

theorem Changes.heldBy_iff (hc : Changes registry forest after) (h : Linked forest) :
    after.HeldBy t id ↔ forest.HeldBy t id := by
  constructor
  · intro ⟨left, hl, ho⟩
    exact hc.root_origin h hl ho
  · intro ⟨node, hn, ho⟩
    obtain ⟨left, hl, hlo, _⟩ := hc.keeps_roots h hn ho
    exact ⟨left, hl, hlo⟩

theorem linked_attach (h : Linked forest) {node : Node} (hr : forest.get? root = some node)
    (hd : node.owner = .detached) : Linked (forest.setOwner root (.trigger t)) := by
  refine linked_update h fun other ho => ?_
  rw [hr] at ho
  cases ho
  simp [joints, hd, Owner.holder?]

theorem heldBy_attach {node : Node} {other : TriggerId} (hr : forest.get? root = some node)
    (hd : node.owner = .detached) :
    (forest.setOwner root (.trigger t)).HeldBy other id ↔
      (other = t ∧ id = root) ∨ forest.HeldBy other id := by
  unfold HeldBy
  rw [get?_setOwner]
  by_cases he : id = root
  · subst he
    rw [if_pos rfl, hr]
    simp [hd, eq_comm]
  · simp [he]

theorem heldBy_removeSubtree (h : Linked forest) :
    (forest.removeSubtree root).HeldBy t id ↔ forest.HeldBy t id ∧ id ≠ root := by
  constructor
  · intro ⟨left, hl, ho⟩
    obtain ⟨hb, node, hn, rfl⟩ := (get?_removeSubtree h).mp hl
    exact ⟨⟨node, hn, ho⟩, fun he => hb (he ▸ .refl)⟩
  · intro ⟨⟨node, hn, ho⟩, hne⟩
    refine ⟨_, (get?_removeSubtree h).mpr ⟨fun hb => hne ?_, node, hn, rfl⟩, ho⟩
    exact (h.eq_of_below_root hn (by simp [ho]) hb).symm

end Forest

namespace Scenario

open Forest (Linked)

variable {registry : Registry} {scenario after : Scenario}

/-! ## Removing several trees -/

theorem linked_removeTrees (roots : List NodeId) :
    ∀ {forest : Forest}, Linked forest → Linked (removeTrees forest roots) := by
  induction roots with
  | nil => exact fun h => h
  | cons root rest ih => exact fun h => ih (Forest.linked_removeSubtree h root)

theorem heldBy_removeTrees {t : TriggerId} {id : NodeId} (roots : List NodeId) :
    ∀ {forest : Forest}, Linked forest →
      ((removeTrees forest roots).HeldBy t id ↔ forest.HeldBy t id ∧ id ∉ roots) := by
  induction roots with
  | nil => simp [removeTrees]
  | cons root rest ih =>
      intro forest h
      have hrest := ih (Forest.linked_removeSubtree h root)
      rw [Forest.heldBy_removeSubtree h] at hrest
      rw [List.mem_cons, not_or, ← and_assoc]
      exact hrest

/-! ## Changes -/

/-- One change of a scenario, with what is checked before it is made. -/
inductive Change (registry : Registry) (scenario : Scenario) : Scenario → Prop where
  | forest {forest : Forest} :
      Forest.Change registry scenario.forest forest →
      Change registry scenario { scenario with forest }
  | addTrigger {name : String} :
      Change registry scenario { scenario with
        triggers := scenario.triggers ++ [{ id := ⟨scenario.nextTrigger⟩, name }]
        nextTrigger := scenario.nextTrigger + 1 }
  /-- A root more on a list. -/
  | attach {id : TriggerId} {clause : Clause} {root : NodeId} {node : Node}
      {triggers : List Trigger} :
      scenario.forest.get? root = some node → node.owner = .detached →
      clause.accepts node.kind node.result = true →
      triggers.map Trigger.id = scenario.triggers.map Trigger.id →
      (triggers.flatMap Trigger.listings).Perm (⟨id, clause, root⟩ :: scenario.listings) →
      Change registry scenario { scenario with
        forest := scenario.forest.setOwner root (.trigger id)
        triggers }
  /-- Triggers and lists in another order, without some of the roots, which are removed. -/
  | arrange {triggers : List Trigger} (gone : List Listing) :
      scenario.listings.Perm (gone ++ triggers.flatMap Trigger.listings) →
      (triggers.map Trigger.id).Subperm (scenario.triggers.map Trigger.id) →
      Change registry scenario { scenario with
        forest := removeTrees scenario.forest (gone.map Listing.root)
        triggers }
  | addRegion {name : String} {stableId : Option Uuid} {bounds : Bounds} :
      (∀ known, stableId = some known → scenario.regionOfStableId? known = none) →
      Change registry scenario { scenario with
        regions := scenario.regions ++ [{ id := ⟨scenario.nextRegion⟩, name, stableId, bounds }]
        nextRegion := scenario.nextRegion + 1 }
  /-- Regions under other names, or fewer of them. -/
  | sift {regions : List Region} :
      (regions.map fun region => (region.id, region.stableId)).Sublist
        (scenario.regions.map fun region => (region.id, region.stableId)) →
      Change registry scenario { scenario with regions }

/-- A run of changes. -/
def Changes (registry : Registry) : Scenario → Scenario → Prop :=
  Relation.ReflTransGen (Change registry)

theorem Changes.of_forest {registry : Registry} {scenario : Scenario} {forest : Forest}
    (hc : Forest.Changes registry scenario.forest forest) :
    Changes registry scenario { scenario with forest } := by
  induction hc with
  | refl => exact .refl
  | tail _ hstep ih => exact ih.tail (.forest hstep)

/-! ## Owners and lists agree -/

/-- Slots, lists and owners of a scenario agree. -/
structure Owned (scenario : Scenario) : Prop where
  linked : Linked scenario.forest
  /-- No two triggers have the same number. -/
  ids : (scenario.triggers.map Trigger.id).Nodup
  /-- Numbers of triggers lie below the next one. -/
  used : ∀ trigger ∈ scenario.triggers, trigger.id.raw < scenario.nextTrigger
  /-- No node stands on lists twice. -/
  once : (scenario.listings.map Listing.root).Nodup
  /-- A trigger owns what stands on its lists. -/
  roots : ∀ {t id}, scenario.forest.HeldBy t id ↔ ∃ clause, ⟨t, clause, id⟩ ∈ scenario.listings

theorem owned_empty (name : String) : Owned (.empty name) where
  linked := Forest.linked_empty
  ids := List.nodup_nil
  used := by simp [empty]
  once := List.nodup_nil
  roots := by simp [empty, listings, Forest.HeldBy, Forest.empty, Forest.get?]

namespace Change

/-- Changes below the roots do not concern the triggers. -/
theorem owned_forest (h : Owned scenario) {forest : Forest}
    (hc : Forest.Change registry scenario.forest forest) : Owned { scenario with forest } where
  linked := hc.linked h.linked
  ids := h.ids
  used := h.used
  once := h.once
  roots := by
    intro t id
    rw [← show scenario.listings = listings { scenario with forest } from rfl, ← h.roots]
    exact Forest.Changes.heldBy_iff (.single hc) h.linked

/-- A trigger without roots has no listings. -/
theorem listings_append_new (triggers : List Trigger) (id : TriggerId) (name : String) :
    (triggers ++ [({ id, name } : Trigger)]).flatMap Trigger.listings
      = triggers.flatMap Trigger.listings := by
  simp [Trigger.listings, Clause.all, Trigger.roots]

theorem owned_addTrigger (h : Owned scenario) (name : String) :
    Owned { scenario with
      triggers := scenario.triggers ++ [{ id := ⟨scenario.nextTrigger⟩, name }]
      nextTrigger := scenario.nextTrigger + 1 } where
  linked := h.linked
  ids := by
    rw [List.map_append, List.nodup_append]
    refine ⟨h.ids, List.nodup_singleton _, fun a ha b hb hab => ?_⟩
    obtain ⟨trigger, ht, rfl⟩ := List.mem_map.mp ha
    -- the new number is one above all that are in use
    have hlt := h.used trigger ht
    have he : trigger.id = ⟨scenario.nextTrigger⟩ := by simpa [hab] using hb
    rw [he] at hlt
    exact Nat.lt_irrefl _ hlt
  used := by
    intro trigger ht
    rcases List.mem_append.mp ht with ht | ht
    · exact Nat.lt_succ_of_lt (h.used trigger ht)
    · rw [List.mem_singleton.mp ht]
      exact Nat.lt_succ_self _
  once := by
    rw [listings, listings_append_new]
    exact h.once
  roots := by
    rw [listings, listings_append_new]
    exact h.roots

theorem owned_attach (h : Owned scenario) {id : TriggerId} {clause : Clause} {root : NodeId}
    {node : Node} {triggers : List Trigger} (hr : scenario.forest.get? root = some node)
    (hd : node.owner = .detached)
    (hids : triggers.map Trigger.id = scenario.triggers.map Trigger.id)
    (hlist : (triggers.flatMap Trigger.listings).Perm (⟨id, clause, root⟩ :: scenario.listings)) :
    Owned { scenario with forest := scenario.forest.setOwner root (.trigger id), triggers } where
  linked := Forest.linked_attach h.linked hr hd
  ids := by
    rw [hids]
    exact h.ids
  used := by
    intro trigger ht
    have hmap : trigger.id ∈ scenario.triggers.map Trigger.id := hids ▸ List.mem_map_of_mem ht
    obtain ⟨old, ho, he⟩ := List.mem_map.mp hmap
    rw [← he]
    exact h.used old ho
  once := by
    refine (hlist.map Listing.root).nodup_iff.mpr (List.nodup_cons.mpr ⟨fun hm => ?_, h.once⟩)
    -- a free node stands on no list
    obtain ⟨listing, hl, he⟩ := List.mem_map.mp hm
    have hheld : scenario.forest.HeldBy listing.trigger listing.root := h.roots.mpr ⟨_, hl⟩
    obtain ⟨n, hn, ho⟩ := hheld
    rw [he, hr] at hn
    cases hn
    rw [hd] at ho
    exact absurd ho (by simp)
  roots := by
    intro t x
    have hmem : ∀ {listing}, listing ∈ triggers.flatMap Trigger.listings ↔
        listing = ⟨id, clause, root⟩ ∨ listing ∈ scenario.listings :=
      hlist.mem_iff.trans List.mem_cons
    rw [Forest.heldBy_attach hr hd, h.roots]
    refine ⟨fun hx => ?_, fun ⟨c, hc⟩ => ?_⟩
    · rcases hx with ⟨rfl, rfl⟩ | ⟨c, hc⟩
      · exact ⟨clause, hmem.mpr (Or.inl rfl)⟩
      · exact ⟨c, hmem.mpr (Or.inr hc)⟩
    · rcases hmem.mp hc with he | hc
      · cases he
        exact Or.inl ⟨rfl, rfl⟩
      · exact Or.inr ⟨c, hc⟩

/-- What is gone stood on one list only, so it is not on one that is left. -/
theorem apart_of_gone (h : Owned scenario) {triggers : List Trigger} {gone : List Listing}
    (hlist : scenario.listings.Perm (gone ++ triggers.flatMap Trigger.listings)) :
    ((triggers.flatMap Trigger.listings).map Listing.root).Nodup ∧
      ∀ root ∈ gone.map Listing.root,
        root ∉ (triggers.flatMap Trigger.listings).map Listing.root := by
  have honce := (hlist.map Listing.root).nodup_iff.mp h.once
  rw [List.map_append, List.nodup_append] at honce
  obtain ⟨_, hleft, hapart⟩ := honce
  exact ⟨hleft, fun root hg hl => hapart root hg root hl rfl⟩

theorem owned_arrange (h : Owned scenario) {triggers : List Trigger} {gone : List Listing}
    (hlist : scenario.listings.Perm (gone ++ triggers.flatMap Trigger.listings))
    (hids : (triggers.map Trigger.id).Subperm (scenario.triggers.map Trigger.id)) :
    Owned { scenario with
      forest := removeTrees scenario.forest (gone.map Listing.root), triggers } where
  linked := linked_removeTrees _ h.linked
  ids := by
    obtain ⟨ids, hperm, hsub⟩ := hids
    exact hperm.nodup_iff.mp (h.ids.sublist hsub)
  used := by
    intro trigger ht
    obtain ⟨old, ho, he⟩ := List.mem_map.mp (hids.subset (List.mem_map_of_mem ht))
    rw [← he]
    exact h.used old ho
  once := (apart_of_gone h hlist).1
  roots := by
    intro t x
    rw [heldBy_removeTrees _ h.linked, h.roots]
    refine ⟨fun ⟨⟨c, hc⟩, hx⟩ => ?_, fun ⟨c, hc⟩ => ?_⟩
    · rcases List.mem_append.mp (hlist.mem_iff.mp hc) with hg | hl
      · exact absurd (List.mem_map_of_mem hg) hx
      · exact ⟨c, hl⟩
    · refine ⟨⟨c, hlist.mem_iff.mpr (List.mem_append_right _ hc)⟩, fun hx => ?_⟩
      exact (apart_of_gone h hlist).2 x hx (List.mem_map_of_mem hc)

theorem owned (hc : Change registry scenario after) (h : Owned scenario) : Owned after := by
  cases hc with
  | forest hf => exact owned_forest h hf
  | addTrigger => exact owned_addTrigger h _
  | attach hr hd _ hids hlist => exact owned_attach h hr hd hids hlist
  | arrange gone hlist hids => exact owned_arrange h hlist hids
  | addRegion _ => exact ⟨h.linked, h.ids, h.used, h.once, h.roots⟩
  | sift _ => exact ⟨h.linked, h.ids, h.used, h.once, h.roots⟩

end Change

namespace Changes

/-- What every change keeps, a run of changes keeps. -/
theorem keep {P : Scenario → Prop} (hP : ∀ {s t}, Change registry s t → Owned s → P s → P t)
    (hc : Changes registry scenario after) (h : Owned scenario) (hp : P scenario) : P after := by
  suffices Owned after ∧ P after from this.2
  induction hc with
  | refl => exact ⟨h, hp⟩
  | tail _ hstep ih => exact ⟨hstep.owned ih.1, hP hstep ih.1 ih.2⟩

theorem owned (hc : Changes registry scenario after) (h : Owned scenario) : Owned after :=
  hc.keep (fun hstep hs _ => hstep.owned hs) h h

end Changes

end Scenario

end Rulebook
