import Rulebook.Proofs.Forest.Extends

/-!
# Trees that are taken back

Inserting a tree makes nodes before it can tell whether the whole tree obeys the
rules, so a refusal finds some of them there already. What saves the attempt is
that it never leaves a node lying about: at every moment the new nodes form one
tree, of which only the root is held by no slot. Removing the root then removes
every new node, and old nodes are never touched.

Both halves of this are kept by every step of the recursion, whether the step
succeeds or fails: `Seedling` says what stands while a tree is built, `Cleared`
what is left when it was taken back.
-/

namespace Rulebook

namespace Forest

open Attempt

variable {start forest after : Forest} {registry : Registry} {root id : NodeId}

/-- Of the new nodes only the root is held by no slot, so they form one tree. -/
structure Seedling (start : Forest) (root : NodeId) (forest : Forest) : Prop where
  beside : Extends start forest
  fresh : start.nextId ≤ root.raw
  only : ∀ {id : NodeId} {node : Node}, forest.get? id = some node → start.nextId ≤ id.raw →
    (∀ parent, node.owner ≠ .argument parent) → id = root

/-- There are no new nodes. -/
structure Cleared (start forest : Forest) : Prop where
  beside : Extends start forest
  old : ∀ {id : NodeId} {node : Node}, forest.get? id = some node → id.raw < start.nextId

theorem Extends.trans {mid : Forest} (h : Extends start mid) (hm : Extends mid after) :
    Extends start after where
  linked := hm.linked
  later := Nat.le_trans h.later hm.later
  old := by
    intro id hid
    rw [hm.old (Nat.lt_of_lt_of_le hid h.later), h.old hid]

/-- Only the next number can tell that there have been other nodes. -/
theorem Cleared.eq (h : Cleared start forest) (hs : Linked start) :
    ∃ next, start.nextId ≤ next ∧ forest = { start with nextId := next } :=
  ⟨forest.nextId, h.beside.later, h.beside.eq_of_no_new (fun _ _ => h.old) hs⟩

namespace Seedling

theorem plant (hs : Linked start) (variant : Variant) (literal : Option Literal) :
    Seedling start ⟨start.nextId⟩ (start.plant variant literal) where
  beside := (Extends.refl hs).plant variant literal
  fresh := Nat.le_refl _
  only := by
    intro id node hn hnew _
    rcases (get?_plant_iff hs).mp hn with ⟨he, _⟩ | hold
    · exact he
    · exact absurd (hs.used hold) (Nat.not_lt.mpr hnew)

/-- **All new nodes hang below the root.** -/
theorem below (h : Seedling start root forest) (hs : Linked start) {node : Node}
    (hn : forest.get? id = some node) (hnew : start.nextId ≤ id.raw) : forest.Below root id := by
  -- along the way up, which stays among the new nodes until it ends
  have hg := h.beside.linked.grounded hn
  clear hn
  induction hg with
  | root hn hroot => exact h.only hn hnew hroot ▸ .refl
  | held hn ho _ ih =>
      have hh := h.beside.linked.up hn ho
      have hiff := h.beside.old_iff hs hh
      exact (ih (by omega)).tail hh

/-- **Removing the root removes every new node.** -/
theorem uproot (h : Seedling start root forest) (hs : Linked start) :
    Cleared start (forest.removeSubtree root) where
  beside := h.beside.removeSubtree hs h.fresh
  old := by
    intro id left hl
    obtain ⟨hb, node, hn, _⟩ := (get?_removeSubtree h.beside.linked).mp hl
    exact Nat.lt_of_not_le fun hnew => hb (h.below hs hn hnew)

/-- What was built on top and taken back again makes no difference. -/
theorem cleared (h : Seedling start root forest) (hc : Cleared forest after) :
    Seedling start root after where
  beside := h.beside.trans hc.beside
  fresh := h.fresh
  only := by
    intro id node hn hnew hroot
    rw [hc.beside.old (hc.old hn)] at hn
    exact h.only hn hnew hroot

/-- **A tree in a slot of the root** grows together with it. -/
theorem setArgument {param : String} {child : NodeId} (h : Seedling start root forest)
    (hs : Linked start) (hc : Seedling forest child after) {filled : Forest}
    (hr : (setArgument registry root param child).runOn after = (.ok (), filled)) :
    Seedling start root filled := by
  have hgrown : Extends start after := h.beside.trans hc.beside
  have hchild : start.nextId ≤ child.raw := Nat.le_trans h.beside.later hc.fresh
  have hext : Extends start ((Forest.setArgument registry root param child).runOn after).2 :=
    hgrown.setArgument hs h.fresh hchild
  rw [hr] at hext
  refine ⟨hext, h.fresh, fun {id left} hl hnew hroot => ?_⟩
  obtain ⟨holder, _, hn, _, _, hlineage, rfl⟩ := setArgument_ok.mp hr
  have hne : root ≠ child := ne_of_not_mem_lineage hgrown.linked hn hlineage
  obtain ⟨mid, hm, hleft⟩ := (get?_fillSlot_iff hne).mp hl
  by_cases hid : id = root
  · exact hid
  rw [if_neg hid] at hleft
  split at hleft
  · -- the child is held by the slot now
    subst hleft
    exact absurd rfl (hroot root)
  · rename_i hidc
    subst hleft
    -- every other node was there before the slot was filled, held as it is now
    obtain ⟨node, hnode, howner⟩ : ∃ node, after.get? id = some node ∧ node.owner = mid.owner := by
      rcases vacate_cases hgrown.linked hn with he | ⟨gone, _, he⟩
      · rw [he] at hm
        exact ⟨mid, hm, rfl⟩
      · rw [he] at hm
        obtain ⟨_, node, hnode, rfl⟩ := (get?_removeSubtree hgrown.linked).mp hm
        exact ⟨node, hnode, rfl⟩
    rw [← howner] at hroot
    by_cases hold : id.raw < forest.nextId
    · rw [hc.beside.old hold] at hnode
      exact h.only hnode hnew hroot
    · exact absurd (hc.only hnode (Nat.not_lt.mp hold) hroot) hidc

end Seedling

mutual

/-- A tree that was inserted stands beside the old nodes; one that was refused is gone. -/
theorem insertTree_seedling : ∀ (tree : NodeTree) {start : Forest}, Linked start →
    (∀ root after, (insertTree registry tree).runOn start = (.ok root, after) →
      Seedling start root after) ∧
    ∀ fault after, (insertTree registry tree).runOn start = (.error fault, after) →
      Cleared start after
  | ⟨name, literal, arguments⟩, start, hs => by
      have hnone : Cleared start start := ⟨.refl hs, hs.used⟩
      have hargs : ∀ variant,
          Seedling start ⟨start.nextId⟩ ((insertArguments registry ⟨start.nextId⟩ arguments).runOn
            (start.plant variant literal)).2 := fun variant =>
        keeps_insertArguments hs arguments _ (.plant hs variant literal)
      constructor
      · intro root after hr
        obtain ⟨variant, _, _, rfl, hins⟩ := insertTree_ok.mp hr
        have hgrown := hargs variant
        rw [hins] at hgrown
        exact hgrown
      · intro fault after hr
        rw [insertTree] at hr
        simp only [bind_error, check_error, check_ok, add, runOn_ofRun] at hr
        -- a refusal before the node is planted leaves everything as it was
        obtain ⟨_, rfl⟩ | ⟨variant, _, ⟨_, rfl⟩, ⟨_, rfl⟩ | ⟨_, _, ⟨_, rfl⟩, hr⟩⟩ := hr
        · exact hnone
        · exact hnone
        obtain hadd | ⟨_, _, hadd, hins | ⟨_, _, _, hpure⟩⟩ := hr
        · exact absurd (congrArg Prod.fst hadd) (by simp)
        · cases hadd
          -- after that, what has grown is torn out by the root
          obtain ⟨built, hbuilt, rfl⟩ := onFailure_error.mp hins
          have hgrown := hargs variant
          rw [hbuilt] at hgrown
          exact hgrown.uproot hs
        · exact absurd (congrArg Prod.fst hpure) (by simp)

/-- Filling the slots of the root, whether or not it comes to its end. -/
theorem keeps_insertArguments {start : Forest} {root : NodeId} (hs : Linked start) :
    ∀ (arguments : List (String × NodeTree)),
      Keeps (Seedling start root) (insertArguments registry root arguments)
  | [] => by
      rw [insertArguments]
      exact .pure _
  | (param, tree) :: rest => by
      intro forest h
      have htree := insertTree_seedling tree h.beside.linked
      rw [insertArguments]
      refine bind_after (fun child grown hr => ?_) fun e t hr => ?_
      · have hchild := htree.1 child grown hr
        refine Keeps.after (onFailure_after (fun _ t ha => ?_) fun e t ha => ?_)
          fun _ => keeps_insertArguments hs rest
        · exact h.setArgument hs hchild ha
        · -- the child was grown and then refused, so it goes again
          rw [setArgument_spares _ _ _ ha]
          exact h.cleared (hchild.uproot h.beside.linked)
      · exact h.cleared (htree.2 e t hr)

end

end Forest

end Rulebook
