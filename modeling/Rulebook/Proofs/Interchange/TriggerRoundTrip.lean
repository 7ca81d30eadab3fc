import Rulebook.Proofs.Interchange.Export
import Rulebook.Proofs.Interchange.RoundTrip
import Rulebook.Proofs.Interchange.Vetting

/-!
# Writing a trigger and reading it back

Reading what was written of a trigger appends another trigger that looks just
like it, root by root, and touches nothing that was there. `Copying` is how far
this has come after some of the roots. The copy is written with the very same
text, as a text depends on nothing but what a trigger looks like.

A text that was not written but accepted all the same has made a trigger that
can be written, so from then on the same is true of it.
-/

namespace Rulebook

open Attempt
open TriggerText (Part)
open Scenario (Sound Underway Vetted)

variable {registry : Registry} {scenario before mid after : Scenario} {trigger : Trigger} {σ : Type}
  [Services σ] {services : σ}

/-- The two nodes have the same snapshot, each in its script. -/
def Scenario.LookAlike (scenario other : Scenario) (root twin : NodeId) : Prop :=
  ∃ tree, scenario.forest.snapshot root = some tree ∧ other.forest.snapshot twin = some tree

/-- One trigger was appended, which is a copy of the given one; nothing else has changed. -/
structure Scenario.Copied (scenario : Scenario) (trigger : Trigger) (before after : Scenario)
    (copy : Trigger) : Prop where
  triggers : after.triggers = before.triggers ++ [copy]
  name : copy.name = trigger.name
  enabled : copy.enabled = trigger.enabled
  /-- The roots look the same, pair by pair and in the same order. -/
  roots : ∀ clause, List.Forall₂ (scenario.LookAlike after) (trigger.roots clause)
    (copy.roots clause)
  nodes : ∀ id node, before.forest.get? id = some node → after.forest.get? id = some node
  regions : after.regions = before.regions

namespace Trigger

theorem mem_places {clause : Clause} {root : NodeId} :
    (clause, root) ∈ trigger.places ↔ root ∈ trigger.roots clause := by
  cases clause <;> simp [places, Clause.all]

theorem filter_places (clause : Clause) :
    (trigger.places.filter fun place => place.1 = clause).map Prod.snd = trigger.roots clause := by
  cases clause <;> simp [places, Clause.all, List.filter_map, Function.comp_def]

/-- What is true of the roots of each list, pair by pair, is true of all places. -/
theorem forall₂_places {R : NodeId → NodeId → Prop} {copy : Trigger}
    (h : ∀ clause, List.Forall₂ R (trigger.roots clause) (copy.roots clause)) :
    List.Forall₂ (fun place twin => place.1 = twin.1 ∧ R place.2 twin.2) trigger.places
      copy.places := by
  refine List.rel_flatMap (R := Eq) (List.forall₂_refl Clause.all) ?_
  rintro clause _ rfl
  rw [List.forall₂_map_left_iff, List.forall₂_map_right_iff]
  exact (h clause).imp fun _ _ hr => ⟨rfl, hr⟩

end Trigger

/-! ## Root by root -/

/-- The trigger has copies of the roots at the places, and what was there is as it was. -/
structure Copying (scenario before mid : Scenario) (done : List (Clause × NodeId))
    (trigger : Trigger) : Prop where
  old : ∀ id node, before.forest.get? id = some node → mid.forest.get? id = some node
  shown : ∀ clause, List.Forall₂ (fun root twin => ∃ tree, scenario.forest.Shows root tree ∧
      mid.forest.Shows twin tree)
    ((done.filter fun place => place.1 = clause).map Prod.snd) (trigger.roots clause)

/-- The part holds what was written of the root at the place. -/
structure Planned (registry : Registry) (services : σ) (scenario : Scenario)
    (place : Clause × NodeId) (part : Part) : Prop where
  accepted : ∃ node, scenario.forest.get? place.2 = some node ∧
    place.1.accepts node.kind node.result = true
  written : ∃ entries, scenario.entries registry place.2 = .ok entries ∧
    part.Holds place.1 (entries.map Entry.chars)
  known : ∀ tree, scenario.forest.Shows place.2 tree →
    ∀ literal ∈ tree.literals, literal.KnownTo services

theorem copying_start (scenario before : Scenario) (name : String) :
    Copying scenario before ((Scenario.addTrigger name).runOn before).2 []
      { id := ⟨before.nextTrigger⟩, name } := by
  refine ⟨fun _ _ h => h, fun clause => ?_⟩
  cases clause <;> exact .nil

/-- Lines of entries are not empty. -/
theorem filter_body {body : List (Nat × List Char)} {entries : List Entry}
    (h : body.map Prod.snd = entries.map Entry.chars) :
    (body.filter fun line => !line.2.isEmpty).map Prod.snd = entries.map Entry.chars := by
  have hall : body.filter (fun line => !line.2.isEmpty) = body := by
    rw [List.filter_eq_self]
    intro line hl
    have hm : line.2 ∈ entries.map Entry.chars := h ▸ List.mem_map_of_mem hl
    obtain ⟨entry, _, he⟩ := List.mem_map.mp hm
    rw [← he]
    simp [Entry.chars]
  rw [hall, h]

/-- A planned part is read: the script gains the tree of the root, and the list takes it. -/
theorem Planned.importPart {place : Clause × NodeId} {part : Part}
    (hp : Planned registry services scenario place part) (hs : Sound registry scenario)
    (hu : Underway registry before mid trigger) (hsame : before.regions = scenario.regions) :
    part.clause = place.1 ∧ ∃ tree forest, scenario.forest.Shows place.2 tree ∧
      mid.forest.Gained tree forest ∧
      (Scenario.importPart registry services trigger.id part).runOn mid
        = (.ok (), Scenario.withRoot before mid forest trigger part.clause
            ⟨mid.forest.nextId⟩) := by
  obtain ⟨node, hnode, haccepts⟩ := hp.accepted
  obtain ⟨entries, hentries, hclause, hbody⟩ := hp.written
  obtain ⟨tree, htree⟩ := hs.owned.linked.exists_shows hnode
  have hshows := hs.owned.linked.snapshot_iff.mp htree
  obtain ⟨forest, hread, hg⟩ := decodeLines_same hs hu.sound.owned.linked
    (hu.regions.trans hsame) hshows hentries (hp.known tree hshows) (filter_body hbody)
  have hchanges : Scenario.Changes registry mid
      ((Scenario.decodeLines registry services part.body).runOn mid).2 :=
    Scenario.decode_changes hu.sound.owned
  rw [hread] at hchanges
  have hsound : Sound registry { mid with forest } := hu.sound.changes hchanges rfl
  -- the new root is of the kind that the list took before
  obtain ⟨copy, hcopy, hdetached⟩ := hg.detached
  obtain ⟨hkind, hresult⟩ := hs.alike_of_shows hsound hnode hshows hcopy hg.shows
  have haccepts' : part.clause.accepts copy.kind copy.result = true := by
    rw [hclause, hkind, hresult]
    exact haccepts
  refine ⟨hclause, tree, forest, hshows, hg, ?_⟩
  exact hu.importPart_ok.mpr ⟨_, forest, copy, hread, hcopy, hdetached, haccepts', rfl⟩

/-- **One more root is copied.** -/
theorem Copying.step {done : List (Clause × NodeId)} {place : Clause × NodeId} {part : Part}
    (h : Copying scenario before mid done trigger) (hs : Sound registry scenario)
    (hu : Underway registry before mid trigger) (hsame : before.regions = scenario.regions)
    (hp : Planned registry services scenario place part) :
    ∃ after twin,
      (Scenario.importPart registry services trigger.id part).runOn mid = (.ok (), after) ∧
      Underway registry before after
        (trigger.mapRoots part.clause fun roots => roots ++ [twin]) ∧
      Copying scenario before after (done ++ [place])
        (trigger.mapRoots part.clause fun roots => roots ++ [twin]) := by
  obtain ⟨clause, root⟩ := place
  obtain ⟨hclause, tree, forest, hshows, hg, hrun⟩ := hp.importPart hs hu hsame
  have hclause' : part.clause = clause := hclause
  refine ⟨_, ⟨mid.forest.nextId⟩, hrun, hu.step hrun, fun x other hx => ?_, fun other => ?_⟩
  · have hmid := h.old x other hx
    -- the new root has a number that no node had
    have hne : x ≠ ⟨mid.forest.nextId⟩ := by
      rintro rfl
      rw [hu.sound.owned.linked.get?_next] at hmid
      exact absurd hmid (by simp)
    show (forest.setOwner ⟨mid.forest.nextId⟩ (.trigger trigger.id)).get? x = some other
    rw [Forest.get?_setOwner, if_neg hne]
    exact hg.old x other hmid
  · have hshown : List.Forall₂ (fun root twin => ∃ seen, scenario.forest.Shows root seen ∧
        (forest.setOwner ⟨mid.forest.nextId⟩ (.trigger trigger.id)).Shows twin seen)
        ((done.filter fun place => place.1 = other).map Prod.snd) (trigger.roots other) :=
      (h.shown other).imp fun _ _ ⟨seen, hseen, htwin⟩ =>
        ⟨seen, hseen, (hg.shows_old htwin).setOwner _ _⟩
    -- only the list of the part is longer than before
    rw [Trigger.roots_mapRoots, hclause', List.filter_append, List.map_append]
    by_cases he : other = clause
    · subst he
      rw [if_pos rfl, List.filter_cons_of_pos (by simp)]
      exact List.rel_append hshown (.cons ⟨tree, hshows, hg.shows.setOwner _ _⟩ .nil)
    · rw [if_neg he, List.filter_cons_of_neg (by simpa using Ne.symm he), List.filter_nil,
        List.map_nil, List.append_nil]
      exact hshown

/-- All roots are copied. -/
theorem Copying.run {places : List (Clause × NodeId)} {parts : List Part}
    (hs : Sound registry scenario) (hsame : before.regions = scenario.regions)
    (hall : List.Forall₂ (Planned registry services scenario) places parts) :
    ∀ {mid : Scenario} {trigger : Trigger} {done : List (Clause × NodeId)},
      Copying scenario before mid done trigger → Underway registry before mid trigger →
      ∃ after copy,
        (Scenario.importParts registry services trigger.id parts).runOn mid = (.ok (), after) ∧
        copy.id = trigger.id ∧ copy.name = trigger.name ∧ Underway registry before after copy ∧
        Copying scenario before after (done ++ places) copy := by
  induction hall with
  | nil =>
      intro mid trigger done h hu
      rw [List.append_nil]
      exact ⟨mid, trigger, rfl, rfl, rfl, hu, h⟩
  | @cons place part places parts hp _ ih =>
      intro mid trigger done h hu
      obtain ⟨next, twin, hpart, hu', h'⟩ := h.step hs hu hsame hp
      obtain ⟨after, copy, hrest, hid, hname, hdone⟩ := ih h' hu'
      rw [List.append_assoc, List.singleton_append] at hdone
      rw [Trigger.id_mapRoots] at hrest hid
      refine ⟨after, copy, Scenario.importParts_cons_ok.mpr ⟨next, hpart, hrest⟩, hid, ?_, hdone⟩
      rw [hname]
      cases part.clause <;> rfl

/-! ## Whole triggers -/

namespace Scenario

/-- Reading the text appends a copy of the trigger, and the copy is written as the same text. -/
def Reimports (registry : Registry) (services : σ) (scenario : Scenario) (trigger : Trigger)
    (before : Scenario) (text : String) : Prop :=
  ∃ after copy, (importTrigger registry services text).runOn before = (.ok copy.id, after) ∧
    scenario.Copied trigger before after copy ∧ after.exportTrigger registry copy.id = .ok text

/-- The host knows what the literals below the roots of the trigger name. -/
def TriggerKnown (services : σ) (scenario : Scenario) (trigger : Trigger) : Prop :=
  ∀ clause, ∀ root ∈ trigger.roots clause, ∀ tree, scenario.forest.snapshot root = some tree →
    ∀ literal ∈ tree.literals, literal.KnownTo services

variable {id : TriggerId} {text : String}

/-- What was written of a trigger says for every root how to copy it. -/
theorem Sound.exists_plan (h : Sound registry scenario) (ht : trigger ∈ scenario.triggers)
    {parts : List (Clause × List Entry)}
    (hparts : List.Forall₂ (fun place part => part.1 = place.1 ∧
      scenario.entries registry place.2 = .ok part.2) trigger.places parts)
    (hk : TriggerKnown services scenario trigger) :
    ∃ found, TriggerText.outline (TriggerText.write trigger.name trigger.enabled parts).toList
        = .ok ⟨trigger.name, trigger.enabled, found⟩ ∧
      List.Forall₂ (Planned registry services scenario) trigger.places found := by
  obtain ⟨found, houtline, hfound⟩ : ∃ found,
      TriggerText.outline (TriggerText.write trigger.name trigger.enabled parts).toList
        = .ok ⟨trigger.name, trigger.enabled, found⟩ ∧
      List.Forall₂ (fun part found => found.Holds part.1 (part.2.map Entry.chars)) parts found := by
    -- no line of an entry is taken for a header
    refine TriggerText.outline_write fun part hp => ?_
    obtain ⟨place, _, _, hentries⟩ := SideBySide.exists_left hparts hp
    exact wellFormed_entries h Path.named_nil hentries
  refine ⟨found, houtline, ?_⟩
  refine (SideBySide.meet (SideBySide.with_mem hparts.flip) hfound).imp ?_
  rintro ⟨clause, root⟩ part ⟨⟨_, entries⟩, _, ⟨hplace, rfl, hentries⟩, hholds⟩
  have hroot := Trigger.mem_places.mp hplace
  refine ⟨h.conforms.accepted ht _ hroot, ⟨entries, hentries, hholds⟩, fun tree hs => ?_⟩
  exact hk _ root hroot tree (h.owned.linked.snapshot_iff.mpr hs)

/-- When all roots were copied, so was the trigger. -/
theorem copied_of_copying (h : Sound registry scenario) {copy : Trigger}
    (hu : Underway registry before mid copy)
    (hc : Copying scenario before mid trigger.places copy) (hname : copy.name = trigger.name) :
    scenario.Copied trigger before
      { mid with triggers := before.triggers ++ [{ copy with enabled := trigger.enabled }] }
      { copy with enabled := trigger.enabled } := by
  refine ⟨rfl, hname, rfl, fun clause => ?_, hc.old, hu.regions⟩
  have hshown := hc.shown clause
  rw [Trigger.filter_places] at hshown
  have hroots : ({ copy with enabled := trigger.enabled } : Trigger).roots clause
      = copy.roots clause := by cases clause <;> rfl
  rw [hroots]
  refine hshown.imp fun root twin ⟨tree, hs, htwin⟩ => ⟨tree, ?_, ?_⟩
  · exact h.owned.linked.snapshot_iff.mpr hs
  · exact hu.sound.owned.linked.snapshot_iff.mpr htwin

/-- **A copy is written with the same text.** -/
theorem Copied.exportTrigger {copy : Trigger} (hc : scenario.Copied trigger before after copy)
    (h : Sound registry scenario) (ho : Sound registry after)
    (hsame : before.regions = scenario.regions) {parts : List (Clause × List Entry)}
    (hparts : List.Forall₂ (fun place part => part.1 = place.1 ∧
      scenario.entries registry place.2 = .ok part.2) trigger.places parts) :
    after.exportTrigger registry copy.id
      = .ok (TriggerText.write trigger.name trigger.enabled parts) := by
  have hlast := trigger?_last ho.owned.ids hc.triggers
  refine exportTrigger_ok.mpr ⟨copy, parts, hlast, ?_, by rw [hc.name, hc.enabled]⟩
  refine (SideBySide.meet (Trigger.forall₂_places hc.roots) hparts).imp ?_
  rintro ⟨_, twin⟩ ⟨_, entries⟩ ⟨⟨clause, root⟩, _, ⟨rfl, tree, hs, htwin⟩, rfl, hentries⟩
  have hroot := h.owned.linked.snapshot_iff.mp hs
  have htwin' := ho.owned.linked.snapshot_iff.mp htwin
  exact ⟨rfl, entries_congr h ho (hc.regions.trans hsame) hroot htwin' hentries⟩

/-- **What was written of a trigger is read as a copy of it**, in every script with the same
regions. -/
theorem Sound.reimports (h : Sound registry scenario) (hb : Sound registry before)
    (hsame : before.regions = scenario.regions) (ht : scenario.trigger? id = some trigger)
    (he : scenario.exportTrigger registry id = .ok text)
    (hk : TriggerKnown services scenario trigger) :
    Reimports registry services scenario trigger before text := by
  obtain ⟨trigger', parts, ht', hparts, rfl⟩ := exportTrigger_ok.mp he
  rw [ht] at ht'
  cases ht'
  obtain ⟨found, houtline, hplan⟩ := h.exists_plan (List.mem_of_find?_eq_some ht) hparts hk
  obtain ⟨mid, copy, hrun, hid, hname, hu, hc⟩ := Copying.run h hsame hplan
    (copying_start scenario before trigger.name) (underway_start hb trigger.name)
  rw [List.nil_append] at hc
  have hcopied := copied_of_copying h hu hc hname
  have hlast := hu.finish trigger.enabled
  refine ⟨_, _, ?_, hcopied, hcopied.exportTrigger h hlast.sound hsame hparts⟩
  have hid' : copy.id = ⟨before.nextTrigger⟩ := hid
  rw [← hid] at hrun
  exact importTrigger_ok.mpr ⟨_, mid, houtline, hid', hrun, hu.enabled_ok.mpr rfl⟩

/-- What was vetted can be written, and the host knows what it names. -/
theorem Vetted.exists_export (hv : Vetted services before after trigger)
    (hu : Underway registry before after trigger) :
    (∃ exported, after.exportTrigger registry trigger.id = .ok exported) ∧
      TriggerKnown services after trigger := by
  have hlast : trigger ∈ after.triggers := by
    rw [hu.triggers]
    simp
  have hvetted : ∀ clause, ∀ root ∈ trigger.roots clause, ∀ tree,
      after.forest.snapshot root = some tree →
      ∀ literal ∈ tree.literals, literal.Vetted before services := by
    intro clause root hr tree hs
    exact hv.nodes.literals hu.sound.owned.linked hs (hv.roots clause root hr)
  have hknown : TriggerKnown services after trigger := by
    intro clause root hr tree hs literal hl
    exact (hvetted clause root hr tree hs literal hl).known
  obtain ⟨parts, hparts⟩ : ∃ parts : List (Clause × List Entry), List.Forall₂ (fun place part =>
      part.1 = place.1 ∧ after.entries registry place.2 = .ok part.2) trigger.places parts := by
    refine SideBySide.exists_list fun ⟨clause, root⟩ hplace => ?_
    have hroot := Trigger.mem_places.mp hplace
    obtain ⟨node, hn, _⟩ := hu.sound.conforms.accepted hlast clause hroot
    obtain ⟨tree, hs⟩ := hu.sound.owned.linked.exists_shows hn
    -- all its literals can be written, so the root can
    obtain ⟨entries, hentries⟩ : ∃ entries, after.entries registry root = .ok entries := by
      have hwalk := Forest.treeWithin_mono (Nat.le_succ _) hs
      refine exists_entries hu.sound hwalk fun literal hl => ?_
      rw [write_congr hu.regions]
      exact (hvetted clause root hroot tree hs literal hl).write
    exact ⟨(clause, entries), rfl, hentries⟩
  have hfound := trigger?_last hu.sound.owned.ids hu.triggers
  exact ⟨⟨_, exportTrigger_ok.mpr ⟨trigger, parts, hfound, hparts, rfl⟩⟩, hknown⟩

/-- **Triggers survive being written and read.** What was written of a trigger is read as a copy
of it, which is written with the same text. And whatever text is accepted, the trigger that comes
of it can be written, and what is written of it is read as a copy of it, whether in the script
that has it or in the script that was there before. -/
theorem Reachable.export_import (h : Reachable registry scenario) (services : σ) :
    (∀ id trigger text, scenario.trigger? id = some trigger →
        scenario.exportTrigger registry id = .ok text → TriggerKnown services scenario trigger →
        Reimports registry services scenario trigger scenario text) ∧
      ∀ text id after, (importTrigger registry services text).runOn scenario = (.ok id, after) →
        ∃ trigger exported, after.trigger? id = some trigger ∧
          after.exportTrigger registry id = .ok exported ∧
          Reimports registry services after trigger after exported ∧
          Reimports registry services after trigger scenario exported := by
  have hs := h.isSound
  refine ⟨fun id trigger text ht he hk => ?_, fun text id after hrun => ?_⟩
  · exact hs.reimports hs rfl ht he hk
  obtain ⟨trigger, rfl, hu, hv⟩ := vetted_importTrigger hs hrun
  obtain ⟨⟨exported, he⟩, hk⟩ := hv.exists_export hu
  have ht := trigger?_last hu.sound.owned.ids hu.triggers
  exact ⟨trigger, exported, ht, he, hu.sound.reimports hu.sound rfl ht he hk,
    hu.sound.reimports hs hu.regions.symm ht he hk⟩

/-- The trigger of the greeting is copied, and so is a disabled one that was written by hand. -/
theorem export_import_greeting :
    (∃ trigger, Greeting.script.trigger? ⟨0⟩ = some trigger ∧
      Reimports Greeting.variants World.empty Greeting.script trigger Greeting.script
        "@trigger greet\n@action\n#Say\n{text}#Word\n{text}$hi") ∧
      ∃ after trigger exported,
        (importTrigger Greeting.variants World.empty
            "@trigger again\r\n\r\n@enabled false\n@action\n#Say\n").runOn Greeting.script
          = (.ok ⟨1⟩, after) ∧
        Reimports Greeting.variants World.empty after trigger after exported := by
  obtain ⟨hwritten, haccepted⟩ := Greeting.script_reachable.export_import World.empty
  constructor
  · refine ⟨_, rfl, hwritten ⟨0⟩ _ _ rfl rfl ?_⟩
    have hsnap : Greeting.script.forest.snapshot ⟨0⟩
        = some ⟨"Say", none, [("text", ⟨"Word", some (.text "hi"), []⟩)]⟩ := rfl
    intro clause root hr tree hs literal hl
    cases clause with
    | events => exact absurd hr List.not_mem_nil
    | conditions => exact absurd hr List.not_mem_nil
    | actions =>
        have hroot : root = ⟨0⟩ := List.mem_singleton.mp hr
        rw [hroot, hsnap] at hs
        cases hs
        have hliteral : literal = .text "hi" := by
          simpa [NodeTree.literals, NodeTree.slotLiterals] using hl
        rw [hliteral]
        trivial
  · have hok : ((importTrigger Greeting.variants World.empty
        "@trigger again\r\n\r\n@enabled false\n@action\n#Say\n").runOn Greeting.script).1
          = .ok ⟨1⟩ := by decide +kernel
    obtain ⟨after, hrun⟩ := exists_after hok
    obtain ⟨trigger, exported, _, _, hagain, _⟩ := haccepted _ ⟨1⟩ after hrun
    exact ⟨after, trigger, exported, hrun, hagain⟩

end Scenario

end Rulebook
