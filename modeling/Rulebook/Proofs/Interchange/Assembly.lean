import Rulebook.Proofs.Interchange.Building
import Rulebook.Proofs.Scenario.Regions

/-!
# Assembling a trigger

A trigger that is read from a text is appended first, without roots, and then
gets its roots part by part. While this is going on it is the last trigger of
the script, and the triggers before it and the regions are those from before:
the import is `Underway`.
-/

namespace Rulebook

open Attempt
open TriggerText (Part Outline)

namespace Scenario

variable {registry : Registry} {scenario before mid after : Scenario} {trigger : Trigger}
  {earlier : List Trigger} {σ : Type} [Services σ] {services : σ}

/-! ## The last trigger -/

theorem ne_of_last (h : (scenario.triggers.map Trigger.id).Nodup)
    (ht : scenario.triggers = earlier ++ [trigger]) : ∀ other ∈ earlier, other.id ≠ trigger.id := by
  intro other ho he
  rw [ht, List.map_append, List.nodup_append] at h
  exact h.2.2 other.id (List.mem_map_of_mem ho) trigger.id (by simp) he

theorem trigger?_last (h : (scenario.triggers.map Trigger.id).Nodup)
    (ht : scenario.triggers = earlier ++ [trigger]) :
    scenario.trigger? trigger.id = some trigger := by
  have hnone : earlier.find? (fun other => other.id == trigger.id) = none := by
    rw [List.find?_eq_none]
    intro other ho
    simpa using ne_of_last h ht other ho
  rw [trigger?, ht, List.find?_append, hnone]
  simp

theorem requireTrigger_last (h : (scenario.triggers.map Trigger.id).Nodup)
    (ht : scenario.triggers = earlier ++ [trigger]) :
    scenario.requireTrigger trigger.id = .ok earlier.length := by
  have hnone : earlier.findIdx? (fun other => other.id == trigger.id) = none := by
    rw [List.findIdx?_eq_none_iff]
    intro other ho
    simpa using ne_of_last h ht other ho
  unfold requireTrigger triggerIndex?
  rw [ht, List.findIdx?_append, hnone]
  simp

/-! ## One part -/

/-- A trigger is being assembled: so far it is the given one. -/
structure Underway (registry : Registry) (before mid : Scenario) (trigger : Trigger) : Prop where
  sound : Sound registry mid
  triggers : mid.triggers = before.triggers ++ [trigger]
  regions : mid.regions = before.regions

/-- The trigger before its first part. -/
theorem underway_start (h : Sound registry before) (name : String) :
    Underway registry before ((addTrigger name).runOn before).2
      { id := ⟨before.nextTrigger⟩, name } :=
  ⟨h.changes (addTrigger_changes name) rfl, rfl, rfl⟩

/-- The script with one more root on a list of its last trigger. -/
def withRoot (before mid : Scenario) (forest : Forest) (trigger : Trigger) (clause : Clause)
    (root : NodeId) : Scenario :=
  { mid with
    forest := forest.setOwner root (.trigger trigger.id)
    triggers := before.triggers ++ [trigger.mapRoots clause fun roots => roots ++ [root]] }

namespace Underway

theorem importPart_ok (h : Underway registry before mid trigger) {part : Part} :
    (importPart registry services trigger.id part).runOn mid = (.ok (), after) ↔
      ∃ root forest node,
        (decodeLines registry services part.body).runOn mid = (.ok root, { mid with forest }) ∧
          forest.get? root = some node ∧ node.owner = .detached ∧
          part.clause.accepts node.kind node.result = true ∧
          after = withRoot before mid forest trigger part.clause root := by
  obtain ⟨forest, hforest, _⟩ : ∃ forest,
      ((decodeLines registry services part.body).runOn mid).2 = { mid with forest } ∧
        Forest.Changes registry mid.forest forest :=
    decodeLines_changes h.sound.owned.linked part.body
  -- reading a tree leaves the triggers alone, so the last one is found where it was
  have hlast : ∀ forest : Forest,
      ({ mid with forest } : Scenario).requireTrigger trigger.id = .ok before.triggers.length :=
    fun forest => requireTrigger_last h.sound.owned.ids h.triggers
  unfold importPart
  simp only [bind_ok, mapError_ok, attach_ok]
  constructor
  · intro hx
    obtain ⟨root, read, hread, index, node, hi, hn, hd, ha, rfl⟩ := hx
    have hsame : read = { mid with forest } := by
      rw [← hforest, hread]
    subst hsame
    rw [hlast] at hi
    cases hi
    refine ⟨root, forest, node, hread, hn, hd, ha, ?_⟩
    simp only [withRoot, h.triggers, modify_split]
  · intro hx
    obtain ⟨root, forest, node, hread, hn, hd, ha, rfl⟩ := hx
    refine ⟨root, _, hread, _, node, hlast forest, hn, hd, ha, ?_⟩
    simp only [withRoot, h.triggers, modify_split]

/-- After one more part. -/
theorem step (h : Underway registry before mid trigger) {part : Part} {forest : Forest}
    {root : NodeId} (hrun : (importPart registry services trigger.id part).runOn mid
      = (.ok (), withRoot before mid forest trigger part.clause root)) :
    Underway registry before (withRoot before mid forest trigger part.clause root)
      (trigger.mapRoots part.clause fun roots => roots ++ [root]) := by
  have hchanges : Changes registry mid
      ((importPart registry services trigger.id part).runOn mid).2 :=
    importPart_changes h.sound.owned
  rw [hrun] at hchanges
  exact ⟨h.sound.changes hchanges rfl, rfl, h.regions⟩

/-- At last the trigger is enabled or disabled. -/
theorem enabled_ok (h : Underway registry before mid trigger) {enabled : Bool} :
    (setTriggerEnabled trigger.id enabled).runOn mid = (.ok (), after) ↔
      after = { mid with triggers := before.triggers ++ [{ trigger with enabled }] } := by
  have hlast := requireTrigger_last h.sound.owned.ids h.triggers
  rw [setTriggerEnabled, updateTrigger_ok]
  constructor
  · intro hx
    obtain ⟨index, hi, rfl⟩ := hx
    rw [hlast] at hi
    cases hi
    rw [h.triggers, modify_split]
  · rintro rfl
    refine ⟨_, hlast, ?_⟩
    rw [h.triggers, modify_split]

theorem finish (h : Underway registry before mid trigger) (enabled : Bool) :
    Underway registry before
      { mid with triggers := before.triggers ++ [{ trigger with enabled }] }
      { trigger with enabled } := by
  have hrun : (setTriggerEnabled trigger.id enabled).runOn mid
      = (.ok (), { mid with triggers := before.triggers ++ [{ trigger with enabled }] }) :=
    h.enabled_ok.mpr rfl
  have hchanges : Changes registry mid ((setTriggerEnabled trigger.id enabled).runOn mid).2 :=
    setTriggerEnabled_changes enabled
  rw [hrun] at hchanges
  exact ⟨h.sound.changes hchanges rfl, rfl, h.regions⟩

end Underway

/-! ## All parts -/

theorem importParts_cons_ok {id : TriggerId} {part : Part} {rest : List Part} :
    (importParts registry services id (part :: rest)).runOn scenario = (.ok (), after) ↔
      ∃ mid, (importPart registry services id part).runOn scenario = (.ok (), mid) ∧
        (importParts registry services id rest).runOn mid = (.ok (), after) := by
  rw [importParts, bind_ok]
  constructor
  · intro h
    obtain ⟨_, mid, hpart, hrest⟩ := h
    exact ⟨mid, hpart, hrest⟩
  · intro h
    obtain ⟨mid, hpart, hrest⟩ := h
    exact ⟨(), mid, hpart, hrest⟩

/-- **An import succeeds part by part.** -/
theorem importTrigger_ok {text : String} {id : TriggerId} :
    (importTrigger registry services text).runOn before = (.ok id, after) ↔
      ∃ outline mid, TriggerText.outline text.toList = .ok outline ∧ id = ⟨before.nextTrigger⟩ ∧
        (importParts registry services id outline.parts).runOn
          ((addTrigger outline.name).runOn before).2 = (.ok (), mid) ∧
        (setTriggerEnabled id outline.enabled).runOn mid = (.ok (), after) := by
  simp only [importTrigger, importOutline, bind_ok, runOn_get, check_ok, onFailure_ok, mapError_ok,
    pure_ok]
  constructor
  · intro h
    obtain ⟨_, _, ⟨⟩, outline, _, ⟨houtline, rfl⟩, new, _, hadd, _, mid, hparts, _, _, hflag,
      rfl, rfl⟩ := h
    rw [addTrigger_runOn] at hadd
    cases hadd
    exact ⟨outline, mid, houtline, rfl, hparts, hflag⟩
  · intro h
    obtain ⟨outline, mid, houtline, rfl, hparts, hflag⟩ := h
    exact ⟨_, _, rfl, outline, _, ⟨houtline, rfl⟩, _, _, addTrigger_runOn _, (), mid, hparts, (), _,
      hflag, rfl, rfl⟩

end Scenario

end Rulebook
