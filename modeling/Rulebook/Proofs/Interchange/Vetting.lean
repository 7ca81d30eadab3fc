import Rulebook.Proofs.Interchange.Assembly
import Rulebook.Proofs.Interchange.Denotation
import Rulebook.Proofs.Interchange.Encoding

/-!
# What was read can be written

A literal is read only if what it refers to exists, so it can be written again,
and the host knows what it names. Nodes that were made by reading hold such
literals and one another, never a node from before; therefore all that an import
has added to a script can be exported from it.
-/

namespace Rulebook

open Attempt
open TriggerText (Part)
open Scenario (Sound Underway)

variable {registry : Registry} {scenario before mid after : Scenario} {σ : Type} [Services σ]
  {services : σ} {literal : Literal}

/-! ## Literals -/

/-- The literal can be written in the script, and the host knows what it names. -/
structure Literal.Vetted (scenario : Scenario) (services : σ) (literal : Literal) : Prop where
  write : ∃ text, LiteralText.write scenario literal = .ok text
  known : literal.KnownTo services

/-- **A literal that was read is vetted.** -/
theorem vetted_read {type : ValueType} {text : List Char}
    (h : LiteralText.read scenario services type text = .ok literal) :
    literal.Vetted scenario services := by
  cases LiteralText.read_ok.mp h with
  | int _ | text _ | bool _ | comparator _ | damageType _ => exact ⟨⟨_, rfl⟩, trivial⟩
  | block _ hknown | item _ hknown => exact ⟨⟨_, rfl⟩, hknown⟩
  | @region _ region hn =>
      refine ⟨?_, trivial⟩
      cases hr : scenario.region? region.id with
      | some found => exact ⟨LiteralText.regionText found, by simp [LiteralText.write, hr]⟩
      | none =>
          have hne := List.find?_eq_none.mp hr region hn.mem
          simp at hne

theorem vetted_neutral {type : ValueType} (h : Literal.neutral? type = some literal) :
    literal.Vetted scenario services := by
  cases type <;> cases h <;> exact ⟨⟨_, rfl⟩, trivial⟩

/-! ## Nodes -/

namespace Forest

/-- Nodes from the number on have good literals and hold nodes from the number on only. -/
def VettedFrom (good : Literal → Prop) (first : Nat) (forest : Forest) : Prop :=
  ∀ x node, forest.get? x = some node → first ≤ x.raw →
    (∀ literal, node.literal = some literal → good literal) ∧
      ∀ child ∈ node.children, first ≤ child.raw

namespace VettedFrom

variable {forest : Forest} {good : Literal → Prop} {first : Nat} {id parent child : NodeId}

theorem plant (h : forest.VettedFrom good first) (hl : Linked forest) {variant : Variant}
    {literal : Option Literal} (hgood : ∀ value, literal = some value → good value) :
    (forest.plant variant literal).VettedFrom good first := by
  intro x node hn hx
  rcases (get?_plant_iff hl).mp hn with ⟨_, rfl⟩ | hold
  · exact ⟨hgood, by simp [planted, Node.children]⟩
  · exact h x node hold hx

theorem fillSlot (h : forest.VettedFrom good first) (hne : parent ≠ child)
    (hchild : first ≤ child.raw) (param : String) :
    (forest.fillSlot parent param child).VettedFrom good first := by
  intro x left hn hx
  obtain ⟨node, hold, rfl⟩ := (get?_fillSlot_iff hne).mp hn
  obtain ⟨hgood, hchildren⟩ := h x node hold hx
  split
  · refine ⟨hgood, fun c hc => ?_⟩
    rw [Node.children_fill, List.mem_append, List.mem_singleton] at hc
    rcases hc with hc | rfl
    · exact hchildren c hc
    · exact hchild
  · split
    · exact ⟨hgood, hchildren⟩
    · exact ⟨hgood, hchildren⟩

theorem removeSubtree (h : forest.VettedFrom good first) (hl : Linked forest) (id : NodeId) :
    (forest.removeSubtree id).VettedFrom good first := by
  intro x left hn hx
  obtain ⟨_, node, hold, rfl⟩ := (get?_removeSubtree hl).mp hn
  obtain ⟨hgood, hchildren⟩ := h x node hold hx
  exact ⟨hgood, fun c hc => hchildren c (Node.mem_children_release.mp hc).1⟩

theorem setOwner (h : forest.VettedFrom good first) (id : NodeId) (owner : Owner) :
    (forest.setOwner id owner).VettedFrom good first := by
  intro x left hn hx
  rw [get?_setOwner] at hn
  split at hn
  · obtain ⟨node, hold, rfl⟩ := Option.map_eq_some_iff.mp hn
    have hnode := h x node hold hx
    exact hnode
  · exact h x left hn hx

/-- All literals of a tree are good if its root is one of the nodes. -/
theorem literals (h : forest.VettedFrom good first) (hl : Linked forest) :
    ∀ {fuel : Nat} {id : NodeId} {tree : NodeTree}, forest.treeWithin fuel id = some tree →
      first ≤ id.raw → ∀ literal ∈ tree.literals, good literal := by
  intro fuel
  induction fuel with
  | zero => intro id tree ht; simp [treeWithin] at ht
  | succ fuel ih =>
      intro id tree ht hid literal hlit
      obtain ⟨node, filled, hn, hf, rfl⟩ := treeWithin_succ.mp ht
      obtain ⟨hgood, hchildren⟩ := h id node hn hid
      have hnames : node.arguments.map Binding.param = filled.map Prod.fst :=
        SideBySide.map_eq (hf.imp fun _ _ hpair => hpair.1)
      rcases (NodeTree.mem_literals_slots (hnames ▸ hl.names hn)).mp hlit with
        hown | ⟨pair, hp, hin⟩
      · exact hgood literal hown
      · -- the children of a new node are new too
        obtain ⟨binding, hb, _, hinner⟩ := SideBySide.exists_left hf hp
        have hnew := hchildren _ (Node.mem_children.mpr ⟨binding, hb, rfl⟩)
        exact ih hinner hnew literal hin

end VettedFrom

end Forest

/-- **Reading makes nodes with vetted literals**, and puts into slots only what it made. -/
theorem steady_vetted {scene : ReadingScene σ} {start : Forest} {good : Literal → Prop}
    {first : Nat} (hfirst : first ≤ start.nextId)
    (hgood : ∀ literal : Literal, literal.Vetted scene.scenario scene.services → good literal) :
    Steady scene start (Forest.VettedFrom good first) where
  draft := by
    intro forest id hl h
    refine Forest.createDraft_spares.after (P := Forest.VettedFrom good first) h ?_
    intro _ after hs
    obtain ⟨variant, literal, _, hdraft, _, rfl⟩ := Forest.createDraft_ok.mp hs
    refine h.plant hl ?_
    rintro value rfl
    unfold Forest.draftLiteral at hdraft
    cases hv : variant.literal with
    | none => simp [hv] at hdraft
    | some type =>
        cases hneutral : Literal.neutral? type with
        | none => simp [hv, hneutral] at hdraft
        | some neutral =>
            simp only [hv, hneutral, Except.ok.injEq, Option.some.injEq] at hdraft
            exact hgood _ (vetted_neutral (hdraft ▸ hneutral))
  node := by
    intro forest id type text literal hread hl h
    refine Forest.createNode_spares.after (P := Forest.VettedFrom good first) h ?_
    intro _ after hs
    obtain ⟨variant, _, _, _, _, _, rfl⟩ := Forest.createNode_ok.mp hs
    refine h.plant hl ?_
    rintro value ⟨⟩
    exact hgood _ (vetted_read hread)
  fill := by
    intro forest parent child param hchild hl h
    refine Forest.setArgument_spares.after (P := Forest.VettedFrom good first) h ?_
    intro _ after hs
    obtain ⟨node, variant, hn, _, _, hlineage, rfl⟩ := Forest.setArgument_ok.mp hs
    have hne : parent ≠ child := Forest.ne_of_not_mem_lineage hl hn hlineage
    -- emptying a slot adds neither nodes nor children
    have hvacate : (forest.vacate parent param).VettedFrom good first := by
      cases ha : node.argument? param with
      | none =>
          rw [Forest.vacate_of_empty hn ha]
          exact h
      | some other =>
          rw [Forest.vacate_eq_removeSubtree hl hn ha]
          exact h.removeSubtree hl other
    exact hvacate.fillSlot hne (Nat.le_trans hfirst hchild) param

/-! ## Imports -/

namespace Scenario

variable {trigger : Trigger}

/-- What an import has added so far was vetted. -/
structure Vetted (services : σ) (before mid : Scenario) (trigger : Trigger) : Prop where
  next : before.forest.nextId ≤ mid.forest.nextId
  nodes : mid.forest.VettedFrom (Literal.Vetted before services) before.forest.nextId
  roots : ∀ clause, ∀ root ∈ trigger.roots clause, before.forest.nextId ≤ root.raw

theorem vetted_start (h : Sound registry before) (name : String) :
    Vetted services before ((addTrigger name).runOn before).2
      { id := ⟨before.nextTrigger⟩, name } := by
  refine ⟨Nat.le_refl _, fun x node hn hx => ?_, fun clause root hr => ?_⟩
  · exact absurd (h.owned.linked.used hn) (Nat.not_lt.mpr hx)
  · cases clause <;> exact absurd hr (by simp [Trigger.roots])

theorem Vetted.step (h : Vetted services before mid trigger)
    (hu : Underway registry before mid trigger) {part : Part}
    (hrun : (importPart registry services trigger.id part).runOn mid = (.ok (), after)) :
    ∃ root, Underway registry before after
        (trigger.mapRoots part.clause fun roots => roots ++ [root]) ∧
      Vetted services before after
        (trigger.mapRoots part.clause fun roots => roots ++ [root]) := by
  -- what can be written and is known stays so, for the regions are the same
  have hgood : ∀ literal : Literal,
      literal.Vetted mid services → literal.Vetted before services := by
    intro literal hl
    obtain ⟨text, hw⟩ := hl.write
    rw [write_congr hu.regions] at hw
    exact ⟨⟨text, hw⟩, hl.known⟩
  obtain ⟨root, forest, node, hread, hn, _, _, rfl⟩ := hu.importPart_ok.mp hrun
  obtain ⟨hroot, hnext, hlinked, hnodes⟩ :=
    kept_of_decodeLines hu.sound.owned.linked (steady_vetted h.next hgood) h.nodes hread
  have hnew : before.forest.nextId ≤ root.raw := Nat.le_trans h.next hroot
  refine ⟨root, hu.step hrun, ?_, hnodes.setOwner root _, fun clause other ho => ?_⟩
  · rw [withRoot, Forest.nextId_setOwner]
    exact Nat.le_trans h.next hnext
  · rw [Trigger.roots_mapRoots] at ho
    split at ho
    · rcases List.mem_append.mp ho with ho | ho
      · exact h.roots _ other ho
      · rw [List.mem_singleton.mp ho]
        exact hnew
    · exact h.roots clause other ho

theorem Vetted.run (parts : List Part) :
    ∀ {mid : Scenario} {trigger : Trigger}, Vetted services before mid trigger →
      Underway registry before mid trigger →
      (importParts registry services trigger.id parts).runOn mid = (.ok (), after) →
      ∃ done : Trigger, done.id = trigger.id ∧ Underway registry before after done ∧
        Vetted services before after done := by
  induction parts with
  | nil =>
      intro mid trigger h hu hrun
      cases pure_ok.mp hrun with
      | intro _ he => exact ⟨trigger, rfl, he ▸ hu, he ▸ h⟩
  | cons part rest ih =>
      intro mid trigger h hu hrun
      obtain ⟨next, hpart, hrest⟩ := importParts_cons_ok.mp hrun
      obtain ⟨root, hu', h'⟩ := h.step hu hpart
      obtain ⟨done, hid, hdone⟩ := ih h' hu' (by rwa [Trigger.id_mapRoots])
      exact ⟨done, hid.trans (Trigger.id_mapRoots _), hdone⟩

/-- **What an accepted text has added to a script was vetted.** -/
theorem vetted_importTrigger (h : Sound registry before) {text : String} {id : TriggerId}
    (hrun : (importTrigger registry services text).runOn before = (.ok id, after)) :
    ∃ trigger : Trigger, trigger.id = id ∧ Underway registry before after trigger ∧
      Vetted services before after trigger := by
  obtain ⟨outline, mid, _, rfl, hparts, hflag⟩ := importTrigger_ok.mp hrun
  obtain ⟨trigger, hid, hu, hv⟩ := (vetted_start h outline.name).run outline.parts
    (underway_start h outline.name) hparts
  have hid' : trigger.id = ⟨before.nextTrigger⟩ := hid
  rw [← hid'] at hflag
  cases hu.enabled_ok.mp hflag
  refine ⟨{ trigger with enabled := outline.enabled }, hid', hu.finish outline.enabled,
    hv.next, hv.nodes, fun clause root hr => hv.roots clause root ?_⟩
  cases clause <;> exact hr

end Scenario

end Rulebook
