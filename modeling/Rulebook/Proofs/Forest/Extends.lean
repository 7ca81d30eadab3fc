import Rulebook.Proofs.Forest.Edits

/-!
# New nodes beside old ones

A forest *extends* another if every number that the other had given out still
looks up to what it did. Slots then lead from old nodes to old ones and from new
nodes to new ones, never across, so whatever is done to new nodes leaves the old
ones as they are; and when all new nodes are gone, nothing but the next number
can tell that there ever were any.
-/

namespace Rulebook

namespace Forest

variable {start forest after : Forest} {registry : Registry} {parent child id other : NodeId}

/-- The old nodes are as they were, and numbers are still given out in order. -/
structure Extends (start forest : Forest) : Prop where
  linked : Linked forest
  later : start.nextId ≤ forest.nextId
  old : ∀ {id : NodeId}, id.raw < start.nextId → forest.get? id = start.get? id

/-- What was in a slot before it was emptied is removed. -/
theorem vacate_cases (h : Linked forest) {param : String} {node : Node}
    (hp : forest.get? parent = some node) :
    forest.vacate parent param = forest ∨
      ∃ gone, forest.Holds parent gone ∧
        forest.vacate parent param = forest.removeSubtree gone := by
  cases ha : node.argument? param with
  | none => exact Or.inl (vacate_of_empty hp ha)
  | some gone =>
      have hm := Node.mem_of_argument? ha
      exact Or.inr ⟨gone, ⟨node, hp, Node.mem_children.mpr ⟨_, hm, rfl⟩⟩,
        vacate_eq_removeSubtree h hp ha⟩

/-- Filling a slot makes no nodes. -/
theorem exists_of_setArgument (h : Linked forest) {param : String} {left : Node}
    (hl : ((setArgument registry parent param child).runOn forest).2.get? other = some left) :
    ∃ node, forest.get? other = some node := by
  revert hl
  refine setArgument_spares.after
    (P := fun g => g.get? other = some left → ∃ node, forest.get? other = some node)
    (fun hl => ⟨left, hl⟩) fun _ after hs hl => ?_
  obtain ⟨node, variant, hn, _, _, hlineage, rfl⟩ := setArgument_ok.mp hs
  have hne : parent ≠ child := ne_of_not_mem_lineage h hn hlineage
  obtain ⟨mid, hm, _⟩ := (get?_fillSlot_iff hne).mp hl
  -- filling makes no node, and vacating takes at most some away
  rcases vacate_cases h hn with he | ⟨gone, _, he⟩
  · rw [he] at hm
    exact ⟨mid, hm⟩
  · rw [he] at hm
    obtain ⟨_, node, hn, _⟩ := (get?_removeSubtree h).mp hm
    exact ⟨node, hn⟩

namespace Extends

theorem refl (h : Linked start) : Extends start start := ⟨h, Nat.le_refl _, fun _ => rfl⟩

/-- Slots do not lead from old nodes to new ones, nor back. -/
theorem old_iff (h : Extends start forest) (hs : Linked start)
    (hh : forest.Holds parent child) : parent.raw < start.nextId ↔ child.raw < start.nextId := by
  constructor
  · intro hold
    obtain ⟨node, hn, hc⟩ := hh
    rw [h.old hold] at hn
    obtain ⟨inner, hi, _⟩ := hs.down hn hc
    exact hs.used hi
  · intro hold
    obtain ⟨inner, hi, ho⟩ := h.linked.holds_iff.mp hh
    rw [h.old hold] at hi
    obtain ⟨node, hn, _⟩ := hs.up hi ho
    exact hs.used hn

theorem new_of_below (h : Extends start forest) (hs : Linked start)
    (hid : start.nextId ≤ id.raw) (hb : forest.Below id other) : start.nextId ≤ other.raw := by
  induction hb with
  | refl => exact hid
  | tail _ hh ih =>
      have hiff := h.old_iff hs hh
      omega

/-! ## What may be done to new nodes -/

theorem plant (h : Extends start forest) (variant : Variant) (literal : Option Literal) :
    Extends start (forest.plant variant literal) where
  linked := linked_plant h.linked variant literal
  later := Nat.le_succ_of_le h.later
  old := by
    intro id hid
    have hlater := h.later
    rw [get?_plant, if_neg, h.old hid]
    rintro rfl
    exact absurd hid (by simp only; omega)

theorem removeSubtree (h : Extends start forest) (hs : Linked start)
    (hid : start.nextId ≤ id.raw) : Extends start (forest.removeSubtree id) where
  linked := linked_removeSubtree h.linked id
  later := by
    rw [nextId_removeSubtree]
    exact h.later
  old := by
    intro other hold
    have hnot : ¬ forest.Below id other := fun hb => by
      have hnew := h.new_of_below hs hid hb
      omega
    -- no old node holds the new one, so none has to let go of it
    have hfree : ∀ node, forest.get? other = some node → node.release id = node := by
      intro node hn
      refine Node.release_of_not_mem fun hc => ?_
      have hiff := h.old_iff hs ⟨node, hn, hc⟩
      omega
    rw [← h.old hold]
    refine Option.ext fun left => ?_
    rw [get?_removeSubtree h.linked]
    constructor
    · intro hx
      obtain ⟨_, node, hn, rfl⟩ := hx
      rw [hfree node hn]
      exact hn
    · exact fun hl => ⟨hnot, left, hl, hfree left hl⟩

theorem setArgument (h : Extends start forest) (hs : Linked start) {param : String}
    (hp : start.nextId ≤ parent.raw) (hc : start.nextId ≤ child.raw) :
    Extends start ((setArgument registry parent param child).runOn forest).2 := by
  have hlinked : Linked ((Forest.setArgument registry parent param child).runOn forest).2 :=
    (setArgument_changes h.linked).linked h.linked
  cases hr : (Forest.setArgument registry parent param child).runOn forest with
  | mk result after =>
      rw [hr] at hlinked
      cases result with
      | error e =>
          rw [setArgument_spares _ _ _ hr]
          exact h
      | ok _ =>
          obtain ⟨node, variant, hn, _, _, hlineage, rfl⟩ := setArgument_ok.mp hr
          have hne : parent ≠ child := ne_of_not_mem_lineage h.linked hn hlineage
          have hvacate : Extends start (forest.vacate parent param) := by
            rcases vacate_cases h.linked hn with he | ⟨gone, hg, he⟩
            · rw [he]
              exact h
            · rw [he]
              have hiff := h.old_iff hs hg
              exact h.removeSubtree hs (by omega)
          refine ⟨hlinked, hvacate.later, fun {id} hid => ?_⟩
          -- neither end is an old node, so an old one is not touched
          rw [get?_fillSlot param hne, if_neg, if_neg, hvacate.old hid]
          · rintro rfl
            omega
          · rintro rfl
            omega

/-- If there are no new nodes, only the next number differs. -/
theorem eq_of_no_new (h : Extends start forest)
    (hall : ∀ id node, forest.get? id = some node → id.raw < start.nextId)
    (hs : Linked start) : forest = { start with nextId := forest.nextId } := by
  refine ext_get? (fun id => ?_) rfl
  by_cases hid : id.raw < start.nextId
  · exact h.old hid
  · have hnone : ∀ {g : Forest}, (∀ node, g.get? id = some node → id.raw < start.nextId) →
        g.get? id = none := by
      intro g hg
      cases hn : g.get? id with
      | none => rfl
      | some node => exact absurd (hg node hn) hid
    exact (hnone (hall id)).trans (hnone fun _ hn => hs.used hn).symm

end Extends

end Forest

end Rulebook
