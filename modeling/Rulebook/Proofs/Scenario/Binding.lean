import Rulebook.Proofs.Evaluation.Typing
import Rulebook.Proofs.Forest.Traversal

/-!
# Putting a child into a slot

A child may not be put into a slot of a node that lies below it. Whether it
would be is found out from the other end: one walks up from the node along the
owners and looks for the child. That walk has no bound. It ends because every
way up does, and it finds what is looked for exactly where the slots lead down,
since slots and owners say the same.
-/

namespace Rulebook

open Attempt

namespace Forest

variable {forest after : Forest} {candidate id child : NodeId} {registry : Registry}
  {param : String}

/-! ## Looking for a node on the way up -/

/-- What a walk finds that looks for a node, starting from another, along the owners. -/
inductive Climbs (forest : Forest) (candidate : NodeId) : (current : NodeId) → (found : Bool) →
    Prop where
  | here : Climbs forest candidate candidate true
  | up {current parent : NodeId} {node : Node} {found : Bool} :
      current ≠ candidate → forest.get? current = some node → node.owner = .argument parent →
      Climbs forest candidate parent found → Climbs forest candidate current found
  | top {current : NodeId} :
      current ≠ candidate →
      (∀ node, forest.get? current = some node → ∀ parent, node.owner ≠ .argument parent) →
      Climbs forest candidate current false

/-- The walk goes one way only. -/
theorem Climbs.unique {found other : Bool} (h : Climbs forest candidate id found)
    (ho : Climbs forest candidate id other) : found = other := by
  induction h with
  | here =>
      cases ho with
      | here => rfl
      | up hne _ _ _ => exact absurd rfl hne
      | top hne _ => exact absurd rfl hne
  | up hne hn howner _ ih =>
      cases ho with
      | here => exact absurd rfl hne
      | up _ hn' howner' ho =>
          cases hn.symm.trans hn'
          cases howner.symm.trans howner'
          exact ih ho
      | top _ htop => exact absurd howner (htop _ hn _)
  | top hne htop =>
      cases ho with
      | here => exact absurd rfl hne
      | up _ hn howner _ => exact absurd howner (htop _ hn _)
      | top _ _ => rfl

/-- What no slot holds is the end of the way up. -/
theorem climb_top
    (htop : ∀ node, forest.get? id = some node → ∀ parent, node.owner ≠ .argument parent)
    (fuel : Nat) : forest.climb (fuel + 1) id = [id] := by
  rw [climb]
  split
  · rename_i parent ho
    obtain ⟨node, hn, howner⟩ := Option.map_eq_some_iff.mp ho
    exact absurd howner (htop node hn parent)
  · rfl

theorem climb_up {node : Node} {parent : NodeId} (hid : forest.get? id = some node)
    (ho : node.owner = .argument parent) (fuel : Nat) :
    forest.climb (fuel + 1) id = id :: forest.climb fuel parent := by
  rw [climb, hid, Option.map_some, ho]

/-- At the end of the way up the walk is over as well. -/
theorem climbs_top
    (htop : ∀ node, forest.get? id = some node → ∀ parent, node.owner ≠ .argument parent)
    (fuel : Nat) :
    Climbs forest candidate id (decide (candidate ∈ forest.climb (fuel + 1) id)) := by
  rw [climb_top htop]
  by_cases he : id = candidate
  · subst he
    rw [decide_eq_true (List.mem_singleton_self _)]
    exact .here
  · rw [decide_eq_false fun hm => he (List.mem_singleton.mp hm).symm]
    exact .top he htop

/-- The walk comes to an end, and finds what is on the lineage. -/
theorem Linked.climbs_lineage (h : Linked forest) (candidate id : NodeId) :
    Climbs forest candidate id (decide (candidate ∈ forest.lineage id)) := by
  cases hid : forest.get? id with
  | none => exact climbs_top (fun node hn => absurd (hid.symm.trans hn) (by simp)) _
  | some node =>
      refine h.ascend (motive := fun fuel x =>
        Climbs forest candidate x (decide (candidate ∈ forest.climb fuel x)))
        ?_ (Nat.le_succ _) hid
      intro fuel x node hx ih
      by_cases hheld : ∃ parent, node.owner = .argument parent
      · obtain ⟨parent, ho⟩ := hheld
        rw [climb_up hx ho]
        by_cases he : x = candidate
        · subst he
          rw [decide_eq_true List.mem_cons_self]
          exact .here
        · -- the node itself is not the candidate, so the way above it decides
          have hmem : candidate ∈ x :: forest.climb fuel parent ↔
              candidate ∈ forest.climb fuel parent := by
            rw [List.mem_cons]
            exact or_iff_right (Ne.symm he)
          rw [decide_eq_decide.mpr hmem]
          exact .up he hx ho (ih parent ho)
      · refine climbs_top (fun other hother parent ho => hheld ⟨parent, ?_⟩) fuel
        cases hx.symm.trans hother
        exact ho

/-- What is on the way up from a node has the node below it. -/
theorem Linked.mem_lineage_iff (h : Linked forest) {node : Node}
    (hid : forest.get? id = some node) :
    candidate ∈ forest.lineage id ↔ id ∈ forest.subtree candidate := by
  rw [mem_lineage h hid, h.mem_subtree]
  exact ⟨fun hb => ⟨exists_of_below hb hid, hb⟩, And.right⟩

/-- **The walk up finds a node exactly if the start is listed below it**, or is that node itself,
which is not listed if it does not exist. -/
theorem Linked.climbs_iff (h : Linked forest) {found : Bool} :
    Climbs forest candidate id found ↔
      found = decide (id = candidate ∨ id ∈ forest.subtree candidate) := by
  have hwalk := h.climbs_lineage candidate id
  have hmem : candidate ∈ forest.lineage id ↔ id = candidate ∨ id ∈ forest.subtree candidate := by
    cases hid : forest.get? id with
    | none =>
        have hnot : id ∉ forest.subtree candidate := fun hm => by
          obtain ⟨node, hn⟩ := h.exists_of_mem_subtree hm
          exact absurd (hid.symm.trans hn) (by simp)
        rw [lineage, climb_top (fun node hn => absurd (hid.symm.trans hn) (by simp)),
          List.mem_singleton, or_iff_left hnot]
        exact eq_comm
    | some node =>
        rw [h.mem_lineage_iff hid]
        refine ⟨Or.inr, fun hw => hw.elim (fun he => ?_) fun hm => hm⟩
        exact he ▸ h.mem_subtree.mpr ⟨⟨node, hid⟩, .refl⟩
  rw [← decide_eq_decide.mpr hmem]
  exact ⟨fun hc => hc.unique hwalk, fun he => he ▸ hwalk⟩

/-! ## What is put into a slot -/

/-- The node has such a slot, and the child is free and of the type of the slot. -/
def Suits (forest : Forest) (registry : Registry) (id : NodeId) (param : String)
    (child : NodeId) : Prop :=
  ∃ node variant slot inner, forest.get? id = some node ∧
    registry.get? node.variant = some variant ∧ variant.param? param = some slot ∧
    forest.get? child = some inner ∧ inner.owner = .detached ∧ inner.result = slot.type

/-- A child that suits the slot is refused only if the node lies below it. -/
theorem Linked.setArgument_iff (h : Linked forest) :
    (∃ after, (setArgument registry id param child).runOn forest = (.ok (), after)) ↔
      forest.Suits registry id param child ∧ id ∉ forest.subtree child := by
  constructor
  · intro hx
    obtain ⟨after, hset⟩ := hx
    obtain ⟨node, variant, hid, hv, hbind, hlineage, _⟩ := setArgument_ok.mp hset
    obtain ⟨slot, inner, hs, hi, hd, ht⟩ := checkBinding_ok.mp hbind
    refine ⟨⟨node, variant, slot, inner, hid, hv, hs, hi, hd, ht⟩, ?_⟩
    exact fun hm => hlineage ((h.mem_lineage_iff hid).mpr hm)
  · intro hw
    obtain ⟨⟨node, variant, slot, inner, hid, hv, hs, hi, hd, ht⟩, hnot⟩ := hw
    exact ⟨_, setArgument_ok.mpr ⟨node, variant, hid, hv,
      checkBinding_ok.mpr ⟨slot, inner, hs, hi, hd, ht⟩,
      fun hm => hnot ((h.mem_lineage_iff hid).mp hm), rfl⟩⟩

/-- And then the complaint is that it would close a cycle. -/
theorem Linked.setArgument_cycle (h : Linked forest)
    (hsuits : forest.Suits registry id param child) (hm : id ∈ forest.subtree child) :
    (setArgument registry id param child).runOn forest = (.error (.cycle id child), forest) := by
  obtain ⟨node, variant, slot, inner, hid, hv, hs, hi, hd, ht⟩ := hsuits
  have hnode : forest.require id = .ok node := require_ok.mpr hid
  have hvariant : registry.require node.variant = .ok variant := Registry.require_ok.mpr hv
  have hbind : forest.checkBinding variant param child = .ok () :=
    checkBinding_ok.mpr ⟨slot, inner, hs, hi, hd, ht⟩
  have hlineage : child ∈ forest.lineage id := (h.mem_lineage_iff hid).mpr hm
  rw [setArgument, runOn_get_bind, runOn_passed hnode, runOn_passed hvariant,
    runOn_passed hbind, runOn_ite, if_pos hlineage]
  rfl

/-- **What was put into a slot is in it**, alone, and knows who holds it. -/
theorem Linked.setArgument_fills (h : Linked forest)
    (hset : (setArgument registry id param child).runOn forest = (.ok (), after)) :
    ∃ left inner, after.get? id = some left ∧
      (left.arguments.filter fun binding => binding.param == param) = [⟨param, child⟩] ∧
      after.get? child = some inner ∧ inner.owner = .argument id := by
  obtain ⟨node, variant, hid, _, hbind, hlineage, rfl⟩ := setArgument_ok.mp hset
  obtain ⟨_, inner, _, hi, hd, _⟩ := checkBinding_ok.mp hbind
  have hne : id ≠ child := ne_of_not_mem_lineage h hid hlineage
  have hparent : ((forest.vacate id param).fillSlot id param child).get? id
      = some ((node.clear param).fill param child) := by
    rw [get?_fillSlot param hne, if_pos rfl, get?_vacate_self h hid]
    rfl
  have hchild : ((forest.vacate id param).fillSlot id param child).get? child
      = some { inner with owner := .argument id } := by
    rw [get?_fillSlot param hne, if_neg hne.symm, if_pos rfl,
      get?_vacate_free h hid hi hd hne.symm]
    rfl
  refine ⟨_, _, hparent, ?_, hchild, rfl⟩
  -- what had the name is gone, and the child has come under it
  rw [Node.fill, Node.clear, List.filter_append, List.filter_filter]
  simp

end Forest

namespace Scenario

variable {registry : Registry} {scenario : Scenario} {id child : NodeId} {param : String}

/-- What it takes to put a child into a slot, and what comes of it. -/
structure SlotFilling (registry : Registry) (scenario : Scenario) (id : NodeId) (param : String)
    (child : NodeId) : Prop where
  /-- The walk up from the node ends, and it finds the child if the node is the child or is
  listed below it. -/
  climbs : ∀ found, scenario.forest.Climbs child id found ↔
    found = decide (id = child ∨ id ∈ scenario.forest.subtree child)
  /-- So a walk from a node that exists, and none is begun elsewhere, finds the child exactly if
  the node is listed below it. -/
  found : ∀ node, scenario.forest.get? id = some node →
    (scenario.forest.Climbs child id true ↔ id ∈ scenario.forest.subtree child)
  /-- A child is taken if it suits the slot and the node is not listed below it. -/
  accepted : (∃ after, (setArgument registry id param child).runOn scenario = (.ok (), after)) ↔
    scenario.forest.Suits registry id param child ∧ id ∉ scenario.forest.subtree child
  /-- If that is all there is against it, the complaint says so. -/
  cycle : scenario.forest.Suits registry id param child → id ∈ scenario.forest.subtree child →
    (setArgument registry id param child).runOn scenario = (.error (.cycle id child), scenario)
  /-- A child that was taken is what is in the slot. -/
  fills : ∀ after, (setArgument registry id param child).runOn scenario = (.ok (), after) →
    ∃ left inner, after.forest.get? id = some left ∧
      (left.arguments.filter fun binding => binding.param == param) = [⟨param, child⟩] ∧
      after.forest.get? child = some inner ∧ inner.owner = .argument id

/-- **A child is kept out of a slot by exactly what is wrong with it**, whatever variants there
are. -/
theorem Reached.slotFilling (h : Reached scenario) (registry : Registry) (id : NodeId)
    (param : String) (child : NodeId) : SlotFilling registry scenario id param child where
  climbs _ := h.owned.linked.climbs_iff
  found node hid := by
    have hl := h.owned.linked
    rw [hl.climbs_iff, eq_comm, decide_eq_true_iff]
    -- a node is within its own subtree
    refine or_iff_right_of_imp fun he => ?_
    exact he ▸ hl.mem_subtree.mpr ⟨⟨node, hid⟩, .refl⟩
  accepted := by
    rw [← h.owned.linked.setArgument_iff]
    constructor
    · intro hx
      obtain ⟨_, hset⟩ := hx
      obtain ⟨forest, hset, _⟩ := onForest_ok.mp hset
      exact ⟨forest, hset⟩
    · intro hx
      obtain ⟨forest, hset⟩ := hx
      exact ⟨_, onForest_ok.mpr ⟨forest, hset, rfl⟩⟩
  cycle hsuits hm := by
    rw [setArgument, onForest_runOn, h.owned.linked.setArgument_cycle hsuits hm]
  fills after hrun := by
    obtain ⟨forest, hset, rfl⟩ := onForest_ok.mp hrun
    exact h.owned.linked.setArgument_fills hset

end Scenario

/-! ## A knot

Two negations, one in the slot of the other. The outer one is free, of the right type, and may
not be put into the slot of the inner one. -/

namespace Knot

def requests : List Request :=
  [.createDraft "Not", .createDraft "Not", .setArgument ⟨0⟩ "value" ⟨1⟩]

/-- The script. -/
def script : Scenario :=
  requests.foldl (fun scenario request => request.after ⟨Builtin.variants⟩ scenario)
    (.empty "knot")

theorem script_reachable : Scenario.Reachable .builtin script :=
  Scenario.reachable_requests "knot" requests (by decide +kernel)

end Knot

namespace Scenario

theorem slotFilling_knot :
    SlotFilling .builtin Knot.script ⟨1⟩ "value" ⟨0⟩ ∧
      Knot.script.forest.subtree ⟨0⟩ = [⟨0⟩, ⟨1⟩] ∧
      (setArgument .builtin ⟨1⟩ "value" ⟨0⟩).runOn Knot.script
        = (.error (.cycle ⟨1⟩ ⟨0⟩), Knot.script) := by
  refine ⟨Knot.script_reachable.reached.slotFilling .builtin ⟨1⟩ "value" ⟨0⟩, by decide +kernel, ?_⟩
  rw [Registry.builtin_eq]
  decide +kernel

end Scenario

end Rulebook
