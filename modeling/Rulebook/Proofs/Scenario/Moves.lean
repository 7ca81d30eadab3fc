import Rulebook.Proofs.Evaluation.Typing
import Rulebook.Proofs.Scenario.Ownership

/-!
# Moves

A move takes an entry out of a list and puts it in again somewhere else. The place
to move to is a place of the list as it was, and it is the one where the entry
stands afterwards, whether it was moved up or down. The others stay in the order
they were in, so moving the entry back to where it came from gives the old list.

Triggers are moved among all triggers. A root is moved on the list that it stands
on, and it stands on no other, so there is only one place where it can be found.
-/

namespace Rulebook

/-! ## One entry is moved -/

/-- The entry of the one place stands at the other, and the others are as they were. -/
structure Moved {α : Type} (entries : List α) (origin target : Nat) (moved : List α) : Prop where
  entry : moved[target]? = entries[origin]?
  others : moved.eraseIdx target = entries.eraseIdx origin
  length : moved.length = entries.length

section MoveEntry

variable {α : Type} {entries : List α} {entry : α} {origin target : Nat}

theorem moveEntry_eq (h : entries[origin]? = some entry) :
    moveEntry entries origin target = (entries.eraseIdx origin).insertIdx target entry := by
  rw [moveEntry, h]

theorem moveEntry_moved (h : entries[origin]? = some entry) (ht : target < entries.length) :
    Moved entries origin target (moveEntry entries origin target) := by
  obtain ⟨hlt, _⟩ := List.getElem?_eq_some_iff.mp h
  have hle : target ≤ (entries.eraseIdx origin).length := by
    rw [List.length_eraseIdx_of_lt hlt]
    omega
  refine ⟨?_, ?_, (moveEntry_perm ht).length_eq⟩
  · rw [moveEntry_eq h, List.getElem?_insertIdx_self, if_pos hle, h]
  · rw [moveEntry_eq h, List.eraseIdx_insertIdx_self]

/-- What was moved can be moved back. -/
theorem Moved.back {moved : List α} (h : Moved entries origin target moved)
    (ho : origin < entries.length) : moveEntry moved target origin = entries := by
  have hentry : moved[target]? = some entries[origin] := by
    rw [h.entry, List.getElem?_eq_getElem ho]
  rw [moveEntry_eq hentry, h.others, List.insertIdx_eraseIdx_getElem ho]

end MoveEntry

namespace Trigger

/-- The trigger with other roots on one list. -/
def withRoots (trigger : Trigger) (clause : Clause) (roots : List NodeId) : Trigger :=
  trigger.mapRoots clause fun _ => roots

variable {trigger : Trigger} {clause other : Clause} {root : NodeId} {i j : Nat}

@[simp] theorem withRoots_roots : trigger.withRoots clause (trigger.roots clause) = trigger := by
  cases clause <;> rfl

@[simp] theorem roots_withRoots (roots : List NodeId) :
    (trigger.withRoots clause roots).roots clause = roots := by
  cases clause <;> rfl

@[simp] theorem withRoots_withRoots (roots roots' : List NodeId) :
    (trigger.withRoots clause roots).withRoots clause roots' = trigger.withRoots clause roots' := by
  cases clause <;> rfl

/-- A root that stands on the lists once stands in one place. -/
theorem place_unique (h : trigger.allRoots.Nodup) (hi : (trigger.roots clause)[i]? = some root)
    (hj : (trigger.roots other)[j]? = some root) : clause = other ∧ i = j := by
  have hlisted : ∀ {clause i}, (trigger.roots clause)[i]? = some root →
      ⟨trigger.id, clause, root⟩ ∈ trigger.listings :=
    fun hk => mem_listings.mpr ⟨rfl, List.mem_of_getElem? hk⟩
  have honce : (trigger.listings.map Listing.root).Nodup := by rwa [map_root_listings]
  cases List.inj_on_of_nodup_map honce (hlisted hi) (hlisted hj) rfl
  have hroots : (trigger.roots clause).Nodup :=
    (List.nodup_flatMap.mp h).1 clause (by cases clause <;> simp [Clause.all])
  obtain ⟨hlt, _⟩ := List.getElem?_eq_some_iff.mp hi
  exact ⟨rfl, (List.getElem?_inj hlt hroots).mp (hi.trans hj.symm)⟩

/-- **A root is found in its place**, and nothing is found elsewhere. -/
theorem position?_eq_some_iff (h : trigger.allRoots.Nodup) :
    trigger.position? root = some (clause, i) ↔ (trigger.roots clause)[i]? = some root := by
  refine ⟨position?_some, fun hi => ?_⟩
  obtain ⟨⟨other, j⟩, hp⟩ := exists_position? (List.mem_of_getElem? hi)
  obtain ⟨rfl, rfl⟩ := place_unique h hi (position?_some hp)
  exact hp

end Trigger

namespace Scenario

open Attempt

variable {scenario : Scenario} {trigger : Trigger} {clause : Clause} {root : NodeId}
  {index origin target : Nat}

/-- `move` takes an entry of a list from its place to any place that the list has. The script is
`put entries`, and nothing but the list can come to differ. -/
structure Moves {α : Type} (scenario : Scenario) (move : Nat → Edit Unit) (entries : List α)
    (origin : Nat) (put : List α → Scenario) : Prop where
  accepted : ∀ target,
    (∃ after, (move target).runOn scenario = (.ok (), after)) ↔ target < entries.length
  refused : ∀ target, entries.length ≤ target → (move target).runOn scenario
    = (.error (.indexOutOfBounds target entries.length), scenario)
  moved : ∀ target after, (move target).runOn scenario = (.ok (), after) →
    ∃ moved, after = put moved ∧ Moved entries origin target moved
  /-- Moving the entry to where it came from restores the script. -/
  back : ∀ target after, (move target).runOn scenario = (.ok (), after) →
    (move origin).runOn after = (.ok (), scenario)

/-- It is enough to know what the move does where it is possible, and that it is refused
elsewhere. -/
theorem Moves.of_runOn {α : Type} {move : Nat → Edit Unit} {entries : List α} {entry : α}
    {put : List α → Scenario} (ho : entries[origin]? = some entry) (hput : put entries = scenario)
    (hmove : ∀ {target}, target < entries.length →
      (move target).runOn scenario = (.ok (), put (moveEntry entries origin target)))
    (hback : ∀ {target}, target < entries.length →
      (move origin).runOn (put (moveEntry entries origin target))
        = (.ok (), put (moveEntry (moveEntry entries origin target) target origin)))
    (hrefuse : ∀ {target}, entries.length ≤ target → (move target).runOn scenario
      = (.error (.indexOutOfBounds target entries.length), scenario)) :
    Moves scenario move entries origin put := by
  obtain ⟨hlt, _⟩ := List.getElem?_eq_some_iff.mp ho
  -- a move succeeds only to a place within the list
  have hinside : ∀ {target after}, (move target).runOn scenario = (.ok (), after) →
      target < entries.length ∧ after = put (moveEntry entries origin target) := by
    intro target after hrun
    by_cases ht : target < entries.length
    · rw [hmove ht] at hrun
      cases hrun
      exact ⟨ht, rfl⟩
    · rw [hrefuse (Nat.le_of_not_lt ht)] at hrun
      cases hrun
  refine ⟨fun target => ⟨fun ⟨_, hrun⟩ => (hinside hrun).1, fun ht => ⟨_, hmove ht⟩⟩,
    fun target => hrefuse, fun target after hrun => ?_, fun target after hrun => ?_⟩
  · obtain ⟨ht, rfl⟩ := hinside hrun
    exact ⟨_, rfl, moveEntry_moved ho ht⟩
  · obtain ⟨ht, rfl⟩ := hinside hrun
    rw [hback ht, (moveEntry_moved ho ht).back hlt, hput]

/-! ## Triggers among triggers -/

theorem checkTarget_error {length : Nat} (h : length ≤ target) :
    checkTarget target length = .error (.indexOutOfBounds target length) := by
  rw [checkTarget, if_neg (Nat.not_lt.mpr h)]

namespace Owned

/-- A trigger is found where it stands. -/
theorem requireTrigger (h : Owned scenario) (ht : scenario.triggers[index]? = some trigger) :
    scenario.requireTrigger trigger.id = .ok index := by
  obtain ⟨found, hfound⟩ := exists_requireTrigger (List.mem_of_getElem? ht)
  obtain ⟨before, holder, after, hsplit, rfl, hid⟩ := requireTrigger_ok hfound
  have hholder : (scenario.triggers.map Trigger.id)[before.length]? = some trigger.id := by
    rw [List.getElem?_map, hsplit, getElem?_split, Option.map_some, hid]
  have htrigger : (scenario.triggers.map Trigger.id)[index]? = some trigger.id := by
    rw [List.getElem?_map, ht, Option.map_some]
  obtain ⟨hlt, _⟩ := List.getElem?_eq_some_iff.mp hholder
  -- no two triggers have the same number
  have hsame : before.length = index :=
    (List.getElem?_inj hlt h.ids).mp (hholder.trans htrigger.symm)
  rw [hfound, hsame]

theorem moveTrigger_runOn (h : Owned scenario) (ht : scenario.triggers[origin]? = some trigger)
    (hlt : target < scenario.triggers.length) :
    (moveTrigger trigger.id target).runOn scenario
      = (.ok (), { scenario with triggers := moveEntry scenario.triggers origin target }) :=
  moveTrigger_ok.mpr ⟨origin, h.requireTrigger ht, hlt, rfl⟩

theorem moveTrigger_refused (h : Owned scenario) (ht : scenario.triggers[origin]? = some trigger)
    (hge : scenario.triggers.length ≤ target) :
    (moveTrigger trigger.id target).runOn scenario
      = (.error (.indexOutOfBounds target scenario.triggers.length), scenario) := by
  rw [moveTrigger, runOn_get_bind, runOn_passed (h.requireTrigger ht),
    runOn_refused (checkTarget_error hge)]

theorem moves_trigger (h : Owned scenario) (ht : scenario.triggers[origin]? = some trigger) :
    Moves scenario (moveTrigger trigger.id) scenario.triggers origin
      fun triggers => { scenario with triggers } := by
  refine .of_runOn ht rfl (h.moveTrigger_runOn ht) (fun {target} hlt => ?_)
    (h.moveTrigger_refused ht)
  have hmoved := moveEntry_moved ht hlt
  have hchanges : Changes .empty scenario ((moveTrigger trigger.id target).runOn scenario).2 :=
    moveTrigger_changes
  have howned := hchanges.owned h
  rw [h.moveTrigger_runOn ht hlt] at howned
  obtain ⟨ho, _⟩ := List.getElem?_eq_some_iff.mp ht
  refine howned.moveTrigger_runOn (hmoved.entry.trans ht) ?_
  rw [hmoved.length]
  exact ho

/-! ## Roots on the lists of triggers -/

/-- The root of a list is found where it stands, and so is the list. -/
theorem moveNode_ready (h : Owned scenario) (ht : scenario.triggers[index]? = some trigger)
    (hr : (trigger.roots clause)[origin]? = some root) :
    ∃ node, scenario.forest.get? root = some node ∧ node.owner = .trigger trigger.id ∧
      scenario.requireTrigger trigger.id = .ok index ∧
      requirePosition scenario.triggers[index]? root = .ok (clause, origin) := by
  have hm := List.mem_of_getElem? ht
  have hall := Trigger.mem_allRoots.mpr ⟨clause, List.mem_of_getElem? hr⟩
  obtain ⟨node, hn, ho⟩ := h.heldBy_of_mem hm hall
  refine ⟨node, hn, ho, h.requireTrigger ht, requirePosition_ok.mpr ⟨trigger, ht, ?_⟩⟩
  exact (Trigger.position?_eq_some_iff (h.nodup_allRoots hm)).mpr hr

theorem moveNode_runOn (h : Owned scenario) (ht : scenario.triggers[index]? = some trigger)
    (hr : (trigger.roots clause)[origin]? = some root)
    (hlt : target < (trigger.roots clause).length) :
    (moveNode root target).runOn scenario = (.ok (), { scenario with
      triggers := scenario.triggers.set index
        (trigger.withRoots clause (moveEntry (trigger.roots clause) origin target)) }) := by
  obtain ⟨node, hn, ho, hi, hp⟩ := h.moveNode_ready ht hr
  obtain ⟨holder, hholder, hposition⟩ := requirePosition_ok.mp hp
  cases ht.symm.trans hholder
  refine moveNode_ok.mpr
    ⟨node, _, index, trigger, clause, origin, hn, ho, hi, ht, hposition, hlt, ?_⟩
  obtain ⟨before, found, after, hsplit, rfl, _⟩ := requireTrigger_ok hi
  rw [hsplit, getElem?_split] at ht
  cases ht
  have hroots : trigger.withRoots clause (moveEntry (trigger.roots clause) origin target)
      = trigger.mapRoots clause fun roots => moveEntry roots origin target :=
    Trigger.mapRoots_congr rfl
  rw [hsplit, modify_split, List.set_append_right _ _ (Nat.le_refl _), Nat.sub_self,
    List.set_cons_zero, hroots]

theorem moveNode_refused (h : Owned scenario) (ht : scenario.triggers[index]? = some trigger)
    (hr : (trigger.roots clause)[origin]? = some root)
    (hge : (trigger.roots clause).length ≤ target) :
    (moveNode root target).runOn scenario
      = (.error (.indexOutOfBounds target (trigger.roots clause).length), scenario) := by
  obtain ⟨node, hn, ho, hi, hp⟩ := h.moveNode_ready ht hr
  rw [moveNode, runOn_get_bind, runOn_passed (Forest.require_ok.mpr hn), ho]
  dsimp only
  rw [runOn_passed hi, runOn_passed hp]
  dsimp only
  rw [ht, Option.map_some, Option.getD_some, runOn_refused (checkTarget_error hge)]

theorem moves_root (h : Owned scenario) (ht : scenario.triggers[index]? = some trigger)
    (hr : (trigger.roots clause)[origin]? = some root) :
    Moves scenario (moveNode root) (trigger.roots clause) origin fun roots =>
      { scenario with
        triggers := scenario.triggers.set index (trigger.withRoots clause roots) } := by
  obtain ⟨hlt, hget⟩ := List.getElem?_eq_some_iff.mp ht
  have hput : scenario.triggers.set index (trigger.withRoots clause (trigger.roots clause))
      = scenario.triggers := by
    rw [Trigger.withRoots_roots, ← hget, List.set_getElem_self]
  refine .of_runOn hr (by rw [hput]) (h.moveNode_runOn ht hr) (fun {target} htarget => ?_)
    (h.moveNode_refused ht hr)
  have hmoved := moveEntry_moved hr htarget
  have hchanges : Changes .empty scenario ((moveNode root target).runOn scenario).2 :=
    moveNode_changes
  have howned := hchanges.owned h
  rw [h.moveNode_runOn ht hr htarget] at howned
  -- the trigger stands where it stood, with the root in its new place
  obtain ⟨ho, _⟩ := List.getElem?_eq_some_iff.mp hr
  rw [← hmoved.length] at ho
  have hplace : ((trigger.withRoots clause (moveEntry (trigger.roots clause) origin target)).roots
      clause)[target]? = some root := by
    rw [Trigger.roots_withRoots, hmoved.entry, hr]
  have hrun := howned.moveNode_runOn (List.getElem?_set_self hlt) hplace
    (by rwa [Trigger.roots_withRoots])
  rw [hrun, List.set_set, Trigger.withRoots_withRoots, Trigger.roots_withRoots]

end Owned

/-- What can be moved in a script, and what comes of it. -/
structure Movable (scenario : Scenario) : Prop where
  /-- A trigger can be moved to any place among the triggers. -/
  trigger : ∀ {origin trigger}, scenario.triggers[origin]? = some trigger →
    Moves scenario (moveTrigger trigger.id) scenario.triggers origin
      fun triggers => { scenario with triggers }
  /-- A root can be moved to any place of the list that it stands on. -/
  root : ∀ {index trigger clause origin root}, scenario.triggers[index]? = some trigger →
    (trigger.roots clause)[origin]? = some root →
    Moves scenario (moveNode root) (trigger.roots clause) origin fun roots =>
      { scenario with triggers := scenario.triggers.set index (trigger.withRoots clause roots) }
  /-- A root is found where it stands and nowhere else. -/
  position : ∀ {trigger}, trigger ∈ scenario.triggers → ∀ {root clause index},
    trigger.position? root = some (clause, index) ↔ (trigger.roots clause)[index]? = some root

/-- **Moves are permutations** of the triggers and of the lists of a script. -/
theorem Reached.movable (h : Reached scenario) : Movable scenario where
  trigger ht := h.owned.moves_trigger ht
  root ht hr := h.owned.moves_root ht hr
  position ht := Trigger.position?_eq_some_iff (h.owned.nodup_allRoots ht)

end Scenario

/-! ## A parade

Two triggers, the second of which says three things one after the other. -/

namespace Parade

def requests : List Request :=
  [.addTrigger "muster", .addTrigger "march", .addDraft ⟨1⟩ .actions "LogMessage",
    .addDraft ⟨1⟩ .actions "LogMessage", .addDraft ⟨1⟩ .actions "LogMessage"]

/-- The script. -/
def script : Scenario :=
  requests.foldl (fun scenario request => request.after ⟨Builtin.variants⟩ scenario)
    (.empty "parade")

theorem script_reachable : Scenario.Reachable .builtin script :=
  Scenario.reachable_requests "parade" requests (by decide +kernel)

end Parade

namespace Scenario

/-- The first of the three is moved to the end, where there is no place beyond the third, and the
second trigger to the front. -/
theorem movable_parade :
    Movable Parade.script ∧
      (((moveNode ⟨0⟩ 2).runOn Parade.script).2.trigger? ⟨1⟩).map Trigger.actions
        = some [⟨1⟩, ⟨2⟩, ⟨0⟩] ∧
      ((moveNode ⟨0⟩ 3).runOn Parade.script).1 = .error (.indexOutOfBounds 3 3) ∧
      ((moveTrigger ⟨1⟩ 0).runOn Parade.script).2.triggers.map Trigger.name = ["march", "muster"] :=
  ⟨Parade.script_reachable.reached.movable, by decide +kernel, by decide +kernel,
    by decide +kernel⟩

end Scenario

end Rulebook
