import Rulebook.Proofs.Forest.Edits
import Rulebook.Proofs.Scenario.Changes

/-!
# What the requests of an editor do

For every request: when it is granted, and what the scenario is then. One that
is refused leaves the scenario alone, apart from those that draft a node first.
Either way a request is a run of changes, provided that lists and owners agree
when it is made: deleting a root relies on finding it in a list.
-/

namespace Rulebook

namespace Scenario

open Attempt

variable {registry : Registry} {scenario after : Scenario} {id : TriggerId} {clause : Clause}
  {root : NodeId}

/-! ## Edits of nodes -/

theorem onForest_runOn {α : Type} (edit : Forest.Edit α) :
    (onForest edit).runOn scenario =
      ((edit.runOn scenario.forest).1,
        { scenario with forest := (edit.runOn scenario.forest).2 }) :=
  Attempt.runOn_within _ _ edit scenario

theorem onForest_ok {α : Type} {edit : Forest.Edit α} {a : α} :
    (onForest edit).runOn scenario = (.ok a, after) ↔
      ∃ forest, edit.runOn scenario.forest = (.ok a, forest) ∧
        after = { scenario with forest } := by
  rw [onForest_runOn, Prod.mk.injEq]
  constructor
  · intro h
    obtain ⟨hok, rfl⟩ := h
    obtain ⟨forest, hrun⟩ := exists_after hok
    exact ⟨forest, hrun, by rw [hrun]⟩
  · intro h
    obtain ⟨forest, hrun, rfl⟩ := h
    exact ⟨by rw [hrun], by rw [hrun]⟩

theorem onForest_changes {α : Type} {edit : Forest.Edit α}
    (h : Forest.Changes registry scenario.forest (edit.runOn scenario.forest).2) :
    Changes registry scenario ((onForest edit).runOn scenario).2 :=
  Changes.of_forest h

/-! ## Edits of triggers -/

theorem flatMap_listings_perm (before after : List Trigger) (trigger : Trigger) :
    ((before ++ trigger :: after).flatMap Trigger.listings).Perm
      (trigger.listings ++ (before ++ after).flatMap Trigger.listings) := by
  rw [List.flatMap_append, List.flatMap_cons, List.flatMap_append]
  exact List.perm_append_comm_assoc _ _ _

theorem updateTrigger_ok {f : Trigger → Trigger} :
    (updateTrigger id f).runOn scenario = (.ok (), after) ↔
      ∃ index, scenario.requireTrigger id = .ok index ∧
        after = { scenario with triggers := scenario.triggers.modify index f } := by
  simp only [updateTrigger, bind_ok, runOn_get, check_ok, runOn_set]
  constructor
  · intro h
    obtain ⟨_, _, ⟨⟩, index, _, ⟨hi, rfl⟩, ⟨⟩⟩ := h
    exact ⟨index, hi, rfl⟩
  · intro h
    obtain ⟨index, hi, rfl⟩ := h
    exact ⟨_, _, rfl, index, _, ⟨hi, rfl⟩, rfl⟩

theorem updateTrigger_spares {f : Trigger → Trigger} : Spares (updateTrigger id f) := by
  unfold updateTrigger
  exact .get fun scenario => .checked fun index _ => (Sure.set _).spares

/-- Changing a trigger so that its number and the order of its lists at most differ. -/
theorem updateTrigger_changes {f : Trigger → Trigger} (hid : ∀ trigger, (f trigger).id = trigger.id)
    (hf : ∀ trigger, (f trigger).listings.Perm trigger.listings) :
    Changes registry scenario ((updateTrigger id f).runOn scenario).2 := by
  refine updateTrigger_spares.after (P := Changes registry scenario) .refl fun _ after hs => ?_
  obtain ⟨index, hi, rfl⟩ := updateTrigger_ok.mp hs
  obtain ⟨before, trigger, rest, hsplit, rfl, _⟩ := requireTrigger_ok hi
  rw [hsplit, modify_split]
  refine .single (.arrange [] ?_ ?_)
  · rw [List.nil_append, listings, hsplit]
    refine (flatMap_listings_perm _ _ _).trans (.trans ?_ (flatMap_listings_perm _ _ _).symm)
    exact (hf trigger).symm.append_right _
  · rw [hsplit]
    simp only [List.map_append, List.map_cons, hid]
    exact .refl _

theorem renameTrigger_changes (name : String) :
    Changes registry scenario ((renameTrigger id name).runOn scenario).2 :=
  updateTrigger_changes (fun _ => rfl) fun _ => .refl _

theorem setTriggerEnabled_changes (enabled : Bool) :
    Changes registry scenario ((setTriggerEnabled id enabled).runOn scenario).2 :=
  updateTrigger_changes (fun _ => rfl) fun _ => .refl _

theorem addTrigger_runOn (name : String) :
    (addTrigger name).runOn scenario = (.ok ⟨scenario.nextTrigger⟩, { scenario with
      triggers := scenario.triggers ++ [{ id := ⟨scenario.nextTrigger⟩, name }]
      nextTrigger := scenario.nextTrigger + 1 }) :=
  rfl

theorem addTrigger_changes (name : String) :
    Changes registry scenario ((addTrigger name).runOn scenario).2 := by
  rw [addTrigger_runOn]
  exact .single .addTrigger

theorem deleteTrigger_ok {count : Nat} :
    (deleteTrigger id).runOn scenario = (.ok count, after) ↔
      ∃ index, scenario.requireTrigger id = .ok index ∧
        let roots := (scenario.triggers[index]?.map Trigger.allRoots).getD []
        count = scenario.forest.size - (removeTrees scenario.forest roots).size ∧
          after = { scenario with
            forest := removeTrees scenario.forest roots
            triggers := scenario.triggers.eraseIdx index } := by
  simp only [deleteTrigger, bind_ok, runOn_get, check_ok, runOn_set, pure_ok]
  constructor
  · intro h
    obtain ⟨_, _, ⟨⟩, index, _, ⟨hi, rfl⟩, _, _, ⟨⟩, rfl, rfl⟩ := h
    exact ⟨index, hi, rfl, rfl⟩
  · intro h
    obtain ⟨index, hi, rfl, rfl⟩ := h
    exact ⟨_, _, rfl, index, _, ⟨hi, rfl⟩, _, _, rfl, rfl, rfl⟩

theorem deleteTrigger_spares : Spares (deleteTrigger id) := by
  unfold deleteTrigger
  refine .get fun scenario => .checked fun index _ => Sure.spares ?_
  exact .bind (.set _) fun _ => .pure _

theorem deleteTrigger_changes :
    Changes registry scenario ((deleteTrigger id).runOn scenario).2 := by
  refine deleteTrigger_spares.after (P := Changes registry scenario) .refl fun _ after hs => ?_
  obtain ⟨index, hi, _, rfl⟩ := deleteTrigger_ok.mp hs
  obtain ⟨before, trigger, rest, hsplit, rfl, _⟩ := requireTrigger_ok hi
  rw [hsplit, getElem?_split, eraseIdx_split, Option.map_some, Option.getD_some,
    ← Trigger.map_root_listings]
  refine .single (.arrange trigger.listings ?_ ?_)
  · rw [listings, hsplit]
    exact flatMap_listings_perm _ _ _
  · rw [hsplit]
    refine List.Sublist.subperm (List.Sublist.map _ ?_)
    exact List.Sublist.append_left (List.sublist_cons_self _ _) _

theorem checkTarget_ok {target length : Nat} :
    checkTarget target length = .ok () ↔ target < length := by
  unfold checkTarget
  split <;> simp_all

theorem moveTrigger_ok {target : Nat} :
    (moveTrigger id target).runOn scenario = (.ok (), after) ↔
      ∃ origin, scenario.requireTrigger id = .ok origin ∧ target < scenario.triggers.length ∧
        after = { scenario with triggers := moveEntry scenario.triggers origin target } := by
  simp only [moveTrigger, bind_ok, runOn_get, check_ok, runOn_set]
  constructor
  · intro h
    obtain ⟨_, _, ⟨⟩, origin, _, ⟨hi, rfl⟩, _, _, ⟨ht, rfl⟩, ⟨⟩⟩ := h
    exact ⟨origin, hi, checkTarget_ok.mp ht, rfl⟩
  · intro h
    obtain ⟨origin, hi, ht, rfl⟩ := h
    exact ⟨_, _, rfl, origin, _, ⟨hi, rfl⟩, _, _, ⟨checkTarget_ok.mpr ht, rfl⟩, rfl⟩

theorem moveTrigger_spares {target : Nat} : Spares (moveTrigger id target) := by
  unfold moveTrigger
  refine .get fun scenario => .checked fun origin _ => .checked fun _ _ => ?_
  exact (Sure.set _).spares

theorem moveTrigger_changes {target : Nat} :
    Changes registry scenario ((moveTrigger id target).runOn scenario).2 := by
  refine moveTrigger_spares.after (P := Changes registry scenario) .refl fun _ after hs => ?_
  obtain ⟨origin, _, ht, rfl⟩ := moveTrigger_ok.mp hs
  have hperm : (moveEntry scenario.triggers origin target).Perm scenario.triggers :=
    moveEntry_perm ht
  refine .single (.arrange [] ?_ ?_)
  · exact (hperm.flatMap_right _).symm
  · exact (hperm.map _).subperm

/-! ## Edits of lists -/

theorem attach_ok :
    (attach id clause root).runOn scenario = (.ok (), after) ↔
      ∃ index node, scenario.requireTrigger id = .ok index ∧
        scenario.forest.get? root = some node ∧ node.owner = .detached ∧
        clause.accepts node.kind node.result = true ∧
        after = { scenario with
          forest := scenario.forest.setOwner root (.trigger id)
          triggers := scenario.triggers.modify index fun trigger =>
            trigger.mapRoots clause fun roots => roots ++ [root] } := by
  simp only [attach, bind_ok, runOn_get, check_ok]
  constructor
  · intro hx
    obtain ⟨_, _, ⟨⟩, index, _, ⟨hi, rfl⟩, node, _, ⟨hn, rfl⟩, h⟩ := hx
    rw [runOn_ite] at h
    split at h
    · rename_i hd
      rw [runOn_ite] at h
      split at h
      · rename_i ha
        cases h
        exact ⟨index, node, hi, Forest.require_ok.mp hn, Forest.isDetached_iff.mp hd, ha, rfl⟩
      · simp at h
    · simp at h
  · intro hx
    obtain ⟨index, node, hi, hn, hd, ha, rfl⟩ := hx
    refine ⟨_, _, rfl, index, _, ⟨hi, rfl⟩, node, _, ⟨Forest.require_ok.mpr hn, rfl⟩, ?_⟩
    rw [runOn_ite, if_pos (Forest.isDetached_iff.mpr hd), runOn_ite, if_pos ha]
    rfl

theorem attach_spares : Spares (attach id clause root) := by
  unfold attach
  refine .get fun scenario => .checked fun index _ => .checked fun node _ => ?_
  refine .ite ?_ (.throw_bind _ _)
  exact .ite (Sure.set _).spares (.throw_bind _ _)

theorem attach_changes : Changes registry scenario ((attach id clause root).runOn scenario).2 := by
  refine attach_spares.after (P := Changes registry scenario) .refl fun _ after hs => ?_
  obtain ⟨index, node, hi, hn, hd, ha, rfl⟩ := attach_ok.mp hs
  obtain ⟨before, trigger, rest, hsplit, rfl, rfl⟩ := requireTrigger_ok hi
  rw [hsplit, modify_split]
  refine .single (.attach hn hd ha ?_ ?_)
  · rw [hsplit]
    simp
  · rw [listings, hsplit]
    refine (flatMap_listings_perm _ _ _).trans ?_
    refine .trans ?_ ((flatMap_listings_perm _ _ _).symm.cons _)
    exact (Trigger.listings_mapRoots_append trigger clause root).append_right _

/-- A draft that the list does not take is the root of no trigger, so it can be removed. -/
theorem addDraft_changes (h : Owned scenario) {variant : VariantId} :
    Changes registry scenario ((addDraft registry id clause variant).runOn scenario).2 := by
  unfold addDraft
  refine get_after (checked_after .refl fun _ _ => ?_)
  have hdraft : Forest.Changes registry scenario.forest
      ((Forest.createDraft registry variant).runOn scenario.forest).2 := Forest.createDraft_changes
  refine bind_after (fun node drafted hd => ?_) fun e t hd => ?_
  · rw [onForest_runOn] at hd
    obtain ⟨hok, rfl⟩ := Prod.mk.inj hd
    obtain ⟨grown, hrun⟩ := exists_after hok
    rw [hrun] at hdraft ⊢
    obtain ⟨_, _, _, _, rfl, _⟩ := Forest.createDraft_ok.mp hrun
    refine Keeps.after (onFailure_after (fun _ t ha => ?_) fun e t ha => ?_) fun _ => .pure _
    · have hattach : Changes registry { scenario with forest := grown }
          ((attach id clause ⟨scenario.forest.nextId⟩).runOn
            { scenario with forest := grown }).2 := attach_changes
      rw [ha] at hattach
      exact (Changes.of_forest hdraft).trans hattach
    · -- the draft is not accepted here, so it is removed again
      rw [attach_spares _ _ _ ha]
      exact .of_forest (hdraft.remove_new h.linked (Nat.le_refl _))
  · rw [onForest_runOn] at hd
    obtain ⟨_, rfl⟩ := Prod.mk.inj hd
    exact .of_forest hdraft

/-- A root that a trigger owns stands on one of its lists and is taken off there. -/
theorem unlist_split (h : Owned scenario) {node : Node}
    (hn : scenario.forest.get? root = some node) (ho : node.owner = .trigger id) :
    ∃ before trigger rest clause index, scenario.triggers = before ++ trigger :: rest ∧
      trigger.id = id ∧ (trigger.roots clause)[index]? = some root ∧
      (unlist node.owner root).runOn scenario = (.ok (), { scenario with
        triggers :=
          before ++ (trigger.mapRoots clause fun roots => roots.eraseIdx index) :: rest }) := by
  -- the owner says that the root is on a list of a trigger, so that trigger is found
  obtain ⟨clause, hl⟩ := h.roots.mp ⟨node, hn, ho⟩
  obtain ⟨holder, hmem, he, _⟩ := mem_listings.mp hl
  obtain ⟨index, hi⟩ := exists_requireTrigger hmem
  rw [show holder.id = id from he] at hi
  obtain ⟨before, trigger, rest, hsplit, rfl, hid⟩ := requireTrigger_ok hi
  -- numbers of triggers differ, so it is the one that was found
  have hsame : holder = trigger := by
    refine List.inj_on_of_nodup_map h.ids hmem ?_ (he.trans hid.symm)
    rw [hsplit]
    exact List.mem_append_right _ List.mem_cons_self
  subst hsame
  have hroot : root ∈ holder.roots clause := by assumption
  obtain ⟨⟨c, i⟩, hp⟩ := Trigger.exists_position? hroot
  refine ⟨before, holder, rest, c, i, hsplit, hid, Trigger.position?_some hp, ?_⟩
  rw [ho]
  refine updateTrigger_ok.mpr ⟨before.length, hi, ?_⟩
  rw [hsplit, modify_split, hp]

/-- An entry less on one list is a listing less. -/
theorem listings_eraseIdx_perm {before rest : List Trigger} {trigger : Trigger} {index : Nat}
    (hsplit : scenario.triggers = before ++ trigger :: rest)
    (hget : (trigger.roots clause)[index]? = some root) :
    scenario.listings.Perm (⟨trigger.id, clause, root⟩ ::
      (before ++ (trigger.mapRoots clause fun roots => roots.eraseIdx index) :: rest).flatMap
        Trigger.listings) := by
  rw [listings, hsplit]
  refine (flatMap_listings_perm _ _ _).trans ?_
  refine .trans ?_ ((flatMap_listings_perm _ _ _).symm.cons _)
  exact (Trigger.listings_mapRoots_eraseIdx hget).append_right _

/-- Taking a root off its list takes away one listing. -/
theorem unlist_trigger (h : Owned scenario) {node : Node}
    (hn : scenario.forest.get? root = some node) (ho : node.owner = .trigger id) :
    ∃ triggers clause,
      (unlist node.owner root).runOn scenario = (.ok (), { scenario with triggers }) ∧
      scenario.listings.Perm (⟨id, clause, root⟩ :: triggers.flatMap Trigger.listings) ∧
      triggers.map Trigger.id = scenario.triggers.map Trigger.id := by
  obtain ⟨before, trigger, rest, clause, index, hsplit, rfl, hget, hunlist⟩ := unlist_split h hn ho
  refine ⟨_, clause, hunlist, listings_eraseIdx_perm hsplit hget, ?_⟩
  rw [hsplit]
  simp

theorem deleteNode_changes (h : Owned scenario) :
    Changes registry scenario ((deleteNode root).runOn scenario).2 := by
  unfold deleteNode
  refine get_after (checked_after .refl fun node hr => ?_)
  have hn := Forest.require_ok.mp hr
  cases ho : node.owner with
  | trigger t =>
      obtain ⟨triggers, clause, hu, hl, hids⟩ := unlist_trigger h hn ho
      rw [runOn_bind, ← ho, hu]
      -- a listed root is taken from its list together with its tree
      refine .single (.arrange [⟨t, clause, root⟩] hl ?_)
      rw [hids]
  | detached =>
      -- any other node is in no list
      refine Changes.of_forest (.single (.remove fun n t hn' ht => ?_))
      rw [hn] at hn'
      cases hn'
      exact absurd ht (by simp [ho])
  | argument parent =>
      refine Changes.of_forest (.single (.remove fun n t hn' ht => ?_))
      rw [hn] at hn'
      cases hn'
      exact absurd ht (by simp [ho])

theorem requirePosition_ok {trigger : Option Trigger} {place : Clause × Nat} :
    requirePosition trigger root = .ok place ↔
      ∃ holder, trigger = some holder ∧ holder.position? root = some place := by
  unfold requirePosition
  cases trigger with
  | none => simp
  | some holder =>
      rw [Option.bind_some]
      cases hp : holder.position? root <;> simp [hp]

theorem moveNode_ok {target : Nat} :
    (moveNode root target).runOn scenario = (.ok (), after) ↔
      ∃ node t index trigger clause origin, scenario.forest.get? root = some node ∧
        node.owner = .trigger t ∧ scenario.requireTrigger t = .ok index ∧
        scenario.triggers[index]? = some trigger ∧
        trigger.position? root = some (clause, origin) ∧
        target < (trigger.roots clause).length ∧
        after = { scenario with
          triggers := scenario.triggers.modify index fun trigger =>
            trigger.mapRoots clause fun roots => moveEntry roots origin target } := by
  simp only [moveNode, bind_ok, runOn_get, check_ok]
  constructor
  · intro hx
    obtain ⟨_, _, ⟨⟩, node, _, ⟨hn, rfl⟩, h⟩ := hx
    split at h
    · rename_i t ho
      simp only [bind_ok, check_ok, runOn_set] at h
      obtain ⟨index, _, ⟨hi, rfl⟩, ⟨clause, origin⟩, _, ⟨hp, rfl⟩, _, _, ⟨ht, rfl⟩, hs⟩ := h
      obtain ⟨trigger, htr, hpos⟩ := requirePosition_ok.mp hp
      cases hs
      rw [htr] at ht
      exact ⟨node, t, index, trigger, clause, origin, Forest.require_ok.mp hn, ho, hi, htr, hpos,
        checkTarget_ok.mp ht, rfl⟩
    · simp at h
  · intro hx
    obtain ⟨node, t, index, trigger, clause, origin, hn, ho, hi, htr, hpos, ht, rfl⟩ := hx
    refine ⟨_, _, rfl, node, _, ⟨Forest.require_ok.mpr hn, rfl⟩, ?_⟩
    rw [ho]
    simp only [bind_ok, check_ok, runOn_set]
    refine ⟨index, _, ⟨hi, rfl⟩, (clause, origin), _,
      ⟨requirePosition_ok.mpr ⟨trigger, htr, hpos⟩, rfl⟩, (), _, ⟨?_, rfl⟩, rfl⟩
    rw [htr]
    exact checkTarget_ok.mpr ht

theorem moveNode_spares {target : Nat} : Spares (moveNode root target) := by
  unfold moveNode
  refine .get fun scenario => .checked fun node _ => ?_
  split
  · refine .checked fun index _ => .checked fun place _ => .checked fun _ _ => ?_
    exact (Sure.set _).spares
  · exact .throw _

theorem moveNode_changes {target : Nat} :
    Changes registry scenario ((moveNode root target).runOn scenario).2 := by
  refine moveNode_spares.after (P := Changes registry scenario) .refl fun _ after hs => ?_
  obtain ⟨_, _, _, trigger, clause, origin, _, _, hi, htr, _, ht, rfl⟩ := moveNode_ok.mp hs
  obtain ⟨before, holder, rest, hsplit, rfl, _⟩ := requireTrigger_ok hi
  rw [hsplit, getElem?_split] at htr
  cases htr
  rw [hsplit, modify_split]
  refine .single (.arrange [] ?_ ?_)
  · rw [List.nil_append, listings, hsplit]
    refine (flatMap_listings_perm _ _ _).trans (.trans ?_ (flatMap_listings_perm _ _ _).symm)
    exact (Trigger.listings_mapRoots_perm (moveEntry_perm ht)).symm.append_right _
  · rw [hsplit]
    simp only [List.map_append, List.map_cons, Trigger.id_mapRoots]
    exact .refl _

/-! ## Edits of regions -/

theorem pushRegion_runOn (name : String) (stableId : Option Uuid) (bounds : Bounds) :
    (pushRegion name stableId bounds).runOn scenario = (.ok ⟨scenario.nextRegion⟩, { scenario with
      regions := scenario.regions ++ [{ id := ⟨scenario.nextRegion⟩, name, stableId, bounds }]
      nextRegion := scenario.nextRegion + 1 }) :=
  rfl

theorem addRegion_changes (name : String) (bounds : Bounds) :
    Changes registry scenario ((addRegion name bounds).runOn scenario).2 := by
  rw [addRegion, pushRegion_runOn]
  exact .single (.addRegion (by simp))

theorem addFreshRegion_changes (name : String) {bits : BitVec 128} (bounds : Bounds)
    (hfresh : scenario.regionOfStableId? (Uuid.ofRandomBits bits) = none) :
    Changes registry scenario ((addFreshRegion name bits bounds).runOn scenario).2 := by
  rw [addFreshRegion, pushRegion_runOn]
  refine .single (.addRegion fun known hk => ?_)
  cases hk
  exact hfresh

theorem addSharedRegion_changes (name : String) (stableId : Uuid) (bounds : Bounds) :
    Changes registry scenario ((addSharedRegion name stableId bounds).runOn scenario).2 := by
  rw [addSharedRegion, runOn_bind, runOn_get]
  dsimp only
  rw [runOn_ite]
  split
  · exact .refl
  · rename_i hnew
    rw [pushRegion_runOn]
    refine .single (.addRegion fun known hk => ?_)
    cases hk
    simpa using hnew

theorem renameRegion_changes {region : RegionId} (name : String) :
    Changes registry scenario ((renameRegion region name).runOn scenario).2 := by
  rw [renameRegion, runOn_bind, runOn_get]
  dsimp only
  split
  · exact .refl
  · rename_i index hi
    obtain ⟨hlt, _⟩ := List.findIdx?_eq_some_iff_getElem.mp hi
    obtain ⟨before, a, rest, hsplit, rfl⟩ := exists_split hlt
    rw [runOn_set]
    refine .single (.sift ?_)
    -- the name is no part of what the two lists are compared by
    rw [hsplit, modify_split, List.map_append, List.map_append, List.map_cons, List.map_cons]

theorem removeRegion_changes {region : RegionId} :
    Changes registry scenario ((removeRegion region).runOn scenario).2 := by
  rw [removeRegion, runOn_bind, runOn_get]
  dsimp only
  split
  · exact .refl
  · rw [runOn_bind, runOn_set]
    exact .single (.sift ((List.eraseIdx_sublist _ _).map _))

end Scenario

end Rulebook
