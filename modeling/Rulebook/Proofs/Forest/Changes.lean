import Rulebook.Proofs.Forest.Preserve

/-!
# Runs of changes

There are many edits but only four changes: a new node is planted, a free node
is put into an empty slot, a subtree is removed, a literal is replaced. Each
comes with what an edit checks before it makes the change. Whatever every change
keeps is kept by every run of changes, so this is where invariants are carried.
-/

namespace Rulebook

namespace Forest

variable {forest after : Forest} {parent child id other : NodeId} {registry : Registry}

/-- One change of a forest, with what is checked before it is made. -/
inductive Change (registry : Registry) (forest : Forest) : Forest → Prop where
  | plant {variant : Variant} {literal : Option Literal} :
      registry.get? variant.id = some variant → variant.literal = literal.map (·.type) →
      Change registry forest (forest.plant variant literal)
  | fill {parent child : NodeId} {param : String} {node inner : Node} {variant : Variant}
      {slot : Param} :
      forest.get? parent = some node → registry.get? node.variant = some variant →
      variant.param? param = some slot → node.argument? param = none →
      forest.get? child = some inner → inner.owner = .detached → inner.result = slot.type →
      ¬ forest.Below child parent →
      Change registry forest (forest.fillSlot parent param child)
  | remove {id : NodeId} :
      (∀ node t, forest.get? id = some node → node.owner ≠ .trigger t) →
      Change registry forest (forest.removeSubtree id)
  | relabel {id : NodeId} {node : Node} {literal : Literal} :
      forest.get? id = some node → node.kind = .value → literal.type = node.result →
      Change registry forest (forest.update id fun node => { node with literal := some literal })

/-- A run of changes. -/
def Changes (registry : Registry) : Forest → Forest → Prop :=
  Relation.ReflTransGen (Change registry)

/-! ## What a change leaves alone -/

theorem Change.linked (hc : Change registry forest after) (h : Linked forest) : Linked after := by
  cases hc with
  | plant _ _ => exact linked_plant h _ _
  | fill hp _ _ hfree hc hdet _ hnb => exact linked_fillSlot h ⟨hp, hfree, hc, hdet, hnb⟩
  | remove _ => exact linked_removeSubtree h _
  | relabel _ _ _ => exact linked_update h fun _ _ => rfl

theorem Change.nextId_le (hc : Change registry forest after) : forest.nextId ≤ after.nextId := by
  cases hc with
  | plant _ _ => exact Nat.le_succ _
  | fill _ _ _ _ _ _ _ _ => exact Nat.le_refl _
  | remove _ => exact Nat.le_of_eq nextId_removeSubtree.symm
  | relabel _ _ _ => exact Nat.le_refl _

/-- A node that is there before and after a change stays what it is, and the lists of triggers
see no difference. -/
theorem Change.persists (hc : Change registry forest after) (h : Linked forest) {node left : Node}
    (hn : forest.get? id = some node) (hl : after.get? id = some left) :
    left.variant = node.variant ∧ left.kind = node.kind ∧ left.result = node.result ∧
      ∀ t, left.owner = .trigger t ↔ node.owner = .trigger t := by
  cases hc with
  | plant _ _ =>
      rw [get?_plant_old h hn] at hl
      cases hl
      exact ⟨rfl, rfl, rfl, fun _ => Iff.rfl⟩
  | fill _ _ _ _ hc hdet _ hnb =>
      obtain ⟨n, hn', rfl⟩ := (get?_fillSlot_iff (ne_of_not_below hnb)).mp hl
      rw [hn] at hn'
      cases hn'
      split
      · exact ⟨rfl, rfl, rfl, fun _ => Iff.rfl⟩
      · split
        · rename_i he
          subst he
          rw [hn] at hc
          cases hc
          -- the child was free and is an argument now, so no trigger has owned it
          exact ⟨rfl, rfl, rfl, by simp [hdet]⟩
        · exact ⟨rfl, rfl, rfl, fun _ => Iff.rfl⟩
  | remove _ =>
      obtain ⟨_, n, hn', rfl⟩ := (get?_removeSubtree h).mp hl
      rw [hn] at hn'
      cases hn'
      exact ⟨rfl, rfl, rfl, fun _ => Iff.rfl⟩
  | relabel _ _ _ =>
      rw [get?_update, hn] at hl
      split at hl
      · cases hl
        exact ⟨rfl, rfl, rfl, fun _ => Iff.rfl⟩
      · cases hl
        exact ⟨rfl, rfl, rfl, fun _ => Iff.rfl⟩

/-- A change does not remove a root of a trigger. -/
theorem Change.keeps_roots (hc : Change registry forest after) (h : Linked forest) {node : Node}
    {t : TriggerId} (hn : forest.get? id = some node) (ho : node.owner = .trigger t) :
    ∃ left, after.get? id = some left := by
  cases hc with
  | plant _ _ => exact ⟨_, get?_plant_old h hn⟩
  | fill _ _ _ _ _ _ _ hnb =>
      exact ⟨_, (get?_fillSlot_iff (ne_of_not_below hnb)).mpr ⟨_, hn, rfl⟩⟩
  | remove hfree =>
      refine ⟨_, (get?_removeSubtree h).mpr ⟨fun hb => ?_, _, hn, rfl⟩⟩
      -- a root of a trigger lies below nothing but itself
      have he := h.eq_of_below_root hn (by simp [ho]) hb
      exact hfree node t (he ▸ hn) ho
  | relabel _ _ _ =>
      rw [get?_update, hn]
      split <;> exact ⟨_, rfl⟩

/-- What is there after a change was there before, or is new and free. -/
theorem Change.origin (hc : Change registry forest after) (h : Linked forest) {left : Node}
    (hl : after.get? id = some left) :
    (∃ node, forest.get? id = some node) ∨ (forest.nextId ≤ id.raw ∧ left.owner = .detached) := by
  cases hc with
  | plant _ _ =>
      rcases (get?_plant_iff h).mp hl with ⟨rfl, rfl⟩ | hn
      · exact Or.inr ⟨Nat.le_refl _, rfl⟩
      · exact Or.inl ⟨_, hn⟩
  | fill _ _ _ _ _ _ _ hnb =>
      obtain ⟨n, hn, _⟩ := (get?_fillSlot_iff (ne_of_not_below hnb)).mp hl
      exact Or.inl ⟨n, hn⟩
  | remove _ =>
      obtain ⟨_, n, hn, _⟩ := (get?_removeSubtree h).mp hl
      exact Or.inl ⟨n, hn⟩
  | relabel _ _ _ =>
      rw [get?_update] at hl
      split at hl
      · obtain ⟨n, hn, _⟩ := Option.map_eq_some_iff.mp hl
        exact Or.inl ⟨n, hn⟩
      · exact Or.inl ⟨left, hl⟩

namespace Changes

/-- What every change keeps, a run of changes keeps. -/
theorem keep {P : Forest → Prop} (hP : ∀ {f g}, Change registry f g → Linked f → P f → P g)
    (hc : Changes registry forest after) (h : Linked forest) (hp : P forest) : P after := by
  suffices Linked after ∧ P after from this.2
  induction hc with
  | refl => exact ⟨h, hp⟩
  | tail _ hstep ih => exact ⟨hstep.linked ih.1, hP hstep ih.1 ih.2⟩

theorem linked (hc : Changes registry forest after) (h : Linked forest) : Linked after :=
  hc.keep (fun hstep hf _ => hstep.linked hf) h h

theorem nextId_le (hc : Changes registry forest after) (h : Linked forest) :
    forest.nextId ≤ after.nextId :=
  hc.keep (P := fun f => forest.nextId ≤ f.nextId)
    (fun hstep _ hle => Nat.le_trans hle hstep.nextId_le) h (Nat.le_refl _)

/-- The roots of triggers come through a run of changes as they were. -/
theorem keeps_roots (hc : Changes registry forest after) (h : Linked forest) {node : Node}
    {t : TriggerId} (hn : forest.get? id = some node) (ho : node.owner = .trigger t) :
    ∃ left, after.get? id = some left ∧ left.owner = .trigger t ∧ left.kind = node.kind ∧
      left.result = node.result := by
  refine hc.keep (P := fun f => ∃ left, f.get? id = some left ∧ left.owner = .trigger t ∧
    left.kind = node.kind ∧ left.result = node.result) ?_ h ⟨node, hn, ho, rfl, rfl⟩
  rintro f g hstep hf ⟨mid, hm, hmo, hmk, hmr⟩
  obtain ⟨left, hl⟩ := hstep.keeps_roots hf hm hmo
  obtain ⟨_, hk, hr, how⟩ := hstep.persists hf hm hl
  exact ⟨left, hl, (how t).mpr hmo, hk.trans hmk, hr.trans hmr⟩

/-- A run of changes makes no new roots of triggers. -/
theorem root_origin (hc : Changes registry forest after) (h : Linked forest) {left : Node}
    {t : TriggerId} (hl : after.get? id = some left) (ho : left.owner = .trigger t) :
    ∃ node, forest.get? id = some node ∧ node.owner = .trigger t := by
  refine hc.keep (P := fun f => ∀ left, f.get? id = some left → left.owner = .trigger t →
    ∃ node, forest.get? id = some node ∧ node.owner = .trigger t) ?_ h
    (fun left hl ho => ⟨left, hl, ho⟩) left hl ho
  intro f g hstep hf ih left hl ho
  rcases hstep.origin hf hl with ⟨mid, hm⟩ | ⟨_, hd⟩
  · exact ih mid hm (((hstep.persists hf hm hl).2.2.2 t).mp ho)
  · exact absurd ho (by simp [hd])

/-- What was not there before a run of changes is the root of no trigger after it. -/
theorem new_not_root (hc : Changes registry forest after) (h : Linked forest)
    (hid : forest.nextId ≤ id.raw) {left : Node} {t : TriggerId}
    (hl : after.get? id = some left) : left.owner ≠ .trigger t := by
  intro ho
  obtain ⟨node, hn, _⟩ := hc.root_origin h hl ho
  exact absurd (h.used hn) (Nat.not_lt.mpr hid)

/-- What was not there before a run of changes may be removed after it. -/
theorem remove_new (hc : Changes registry forest after) (h : Linked forest)
    (hid : forest.nextId ≤ id.raw) : Changes registry forest (after.removeSubtree id) :=
  hc.tail (.remove fun _ _ hn => hc.new_not_root h hid hn)

end Changes

end Forest

end Rulebook
