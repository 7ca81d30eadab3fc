import Mathlib.Data.List.Perm.Basic
import Rulebook.Scenario.Edit

/-!
# What the lists of triggers hold

Who a root belongs to is written down twice as well: as the owner of the node,
and by its place in a list of a trigger. A *listing* is such a place with the
trigger, the list and the root. All listings of a script together are all that
an invariant has to know about its triggers: most edits only put them into
another order, and the others add or take away a few.
-/

namespace Rulebook

/-- An entry in a list of a trigger. -/
structure Listing where
  trigger : TriggerId
  clause : Clause
  root : NodeId
deriving DecidableEq

namespace Trigger

/-- The entries of all lists of a trigger. -/
def listings (trigger : Trigger) : List Listing :=
  Clause.all.flatMap fun clause => (trigger.roots clause).map (Listing.mk trigger.id clause)

variable {trigger : Trigger} {clause : Clause} {root : NodeId}

theorem mem_listings {listing : Listing} :
    listing ∈ trigger.listings ↔
      listing.trigger = trigger.id ∧ listing.root ∈ trigger.roots listing.clause := by
  obtain ⟨id, clause, root⟩ := listing
  cases clause <;> simp [listings, Clause.all, roots, eq_comm, and_comm]

theorem map_root_listings : trigger.listings.map Listing.root = trigger.allRoots := by
  simp [listings, allRoots, List.map_flatMap, Function.comp_def]

theorem mem_allRoots : root ∈ trigger.allRoots ↔ ∃ clause, root ∈ trigger.roots clause := by
  simp [allRoots, Clause.all]
  constructor
  · rintro (h | h | h)
    · exact ⟨_, h⟩
    · exact ⟨_, h⟩
    · exact ⟨_, h⟩
  · intro hx
    obtain ⟨clause, h⟩ := hx
    cases clause <;> simp [h]

@[simp] theorem id_mapRoots (f : List NodeId → List NodeId) :
    (trigger.mapRoots clause f).id = trigger.id := by
  cases clause <;> rfl

theorem roots_mapRoots {f : List NodeId → List NodeId} {other : Clause} :
    (trigger.mapRoots clause f).roots other =
      if other = clause then f (trigger.roots clause) else trigger.roots other := by
  cases clause <;> cases other <;> rfl

/-- What becomes of a list depends on what is on it only. -/
theorem mapRoots_congr {f g : List NodeId → List NodeId}
    (h : f (trigger.roots clause) = g (trigger.roots clause)) :
    trigger.mapRoots clause f = trigger.mapRoots clause g := by
  cases clause with
  | events => exact congrArg (fun events => { trigger with events }) h
  | conditions => exact congrArg (fun conditions => { trigger with conditions }) h
  | actions => exact congrArg (fun actions => { trigger with actions }) h

/-- The listings of one list of a trigger, apart from the others, which no change of that list
touches. -/
theorem exists_listings_mapRoots (trigger : Trigger) (clause : Clause) :
    ∃ others,
      trigger.listings.Perm ((trigger.roots clause).map (Listing.mk trigger.id clause) ++ others) ∧
      ∀ f, ((trigger.mapRoots clause f).listings).Perm
        ((f (trigger.roots clause)).map (Listing.mk trigger.id clause) ++ others) := by
  suffices h : ∃ others, ∀ f, ((trigger.mapRoots clause f).listings).Perm
      ((f (trigger.roots clause)).map (Listing.mk trigger.id clause) ++ others) by
    -- for the function that changes nothing this is the first half as well
    obtain ⟨others, ho⟩ := h
    have hsame : trigger.mapRoots clause (fun roots => roots) = trigger := by cases clause <;> rfl
    have hold := ho fun roots => roots
    rw [hsame] at hold
    exact ⟨others, hold, ho⟩
  let events := trigger.events.map (Listing.mk trigger.id .events)
  let conditions := trigger.conditions.map (Listing.mk trigger.id .conditions)
  let actions := trigger.actions.map (Listing.mk trigger.id .actions)
  cases clause with
  | events =>
      refine ⟨conditions ++ actions, fun f => ?_⟩
      simp [listings, Clause.all, mapRoots, roots, conditions, actions]
  | conditions =>
      refine ⟨events ++ actions, fun f => ?_⟩
      simp only [listings, Clause.all, mapRoots, roots, List.flatMap_cons, List.flatMap_nil,
        List.append_nil, events, actions]
      exact List.perm_append_comm_assoc _ _ _
  | actions =>
      refine ⟨events ++ conditions, fun f => ?_⟩
      simp only [listings, Clause.all, mapRoots, roots, List.flatMap_cons, List.flatMap_nil,
        List.append_nil, events, conditions]
      rw [← List.append_assoc]
      exact List.perm_append_comm

theorem listings_mapRoots_perm {f : List NodeId → List NodeId}
    (hf : (f (trigger.roots clause)).Perm (trigger.roots clause)) :
    (trigger.mapRoots clause f).listings.Perm trigger.listings := by
  obtain ⟨others, hold, ho⟩ := exists_listings_mapRoots trigger clause
  exact (ho f).trans (((hf.map _).append_right _).trans hold.symm)

theorem listings_mapRoots_append (trigger : Trigger) (clause : Clause) (root : NodeId) :
    (trigger.mapRoots clause fun roots => roots ++ [root]).listings.Perm
      (⟨trigger.id, clause, root⟩ :: trigger.listings) := by
  obtain ⟨others, hold, ho⟩ := exists_listings_mapRoots trigger clause
  refine (ho _).trans (List.Perm.trans ?_ (hold.symm.cons _))
  rw [List.map_append, List.append_assoc]
  exact List.perm_middle

theorem listings_mapRoots_eraseIdx {index : Nat} (h : (trigger.roots clause)[index]? = some root) :
    trigger.listings.Perm (⟨trigger.id, clause, root⟩ ::
      (trigger.mapRoots clause fun roots => roots.eraseIdx index).listings) := by
  obtain ⟨others, hold, ho⟩ := exists_listings_mapRoots trigger clause
  obtain ⟨hlt, hget⟩ := List.getElem?_eq_some_iff.mp h
  have hsplit : (trigger.roots clause).Perm (root :: (trigger.roots clause).eraseIdx index) := by
    rw [← hget]
    exact (List.getElem_cons_eraseIdx_perm hlt).symm
  have hmore := (hsplit.map (Listing.mk trigger.id clause)).append_right others
  rw [List.map_cons, List.cons_append] at hmore
  have hless := (ho fun roots => roots.eraseIdx index).symm
  exact hold.trans (hmore.trans (hless.cons _))

/-- What is found at a position is there. -/
theorem position?_some {index : Nat} (h : trigger.position? root = some (clause, index)) :
    (trigger.roots clause)[index]? = some root := by
  obtain ⟨c, _, hc⟩ := List.exists_of_findSome?_eq_some h
  obtain ⟨i, hi, he⟩ := Option.map_eq_some_iff.mp hc
  cases he
  obtain ⟨hlt, hget, _⟩ := List.idxOf?_eq_some_iff.mp hi
  rw [List.getElem?_eq_getElem hlt, hget]

/-- A root that is on a list has a position. -/
theorem exists_position? (h : root ∈ trigger.roots clause) :
    ∃ place, trigger.position? root = some place := by
  rw [← Option.isSome_iff_exists, position?, List.findSome?_isSome_iff]
  refine ⟨clause, by cases clause <;> simp [Clause.all], ?_⟩
  rw [Option.isSome_map, List.isSome_idxOf?]
  exact h

end Trigger

/-! ## One entry among others -/

/-- Where there is an entry, the list falls into what is before it and what is after it. -/
theorem exists_split {α : Type} {entries : List α} {index : Nat} (h : index < entries.length) :
    ∃ before entry after, entries = before ++ entry :: after ∧ before.length = index := by
  refine ⟨entries.take index, entries[index], entries.drop (index + 1), ?_, ?_⟩
  · rw [List.getElem_cons_drop, List.take_append_drop]
  · rw [List.length_take]
    omega

theorem modify_split {α : Type} (before after : List α) (a : α) (f : α → α) :
    (before ++ a :: after).modify before.length f = before ++ f a :: after := by
  induction before with
  | nil => rfl
  | cons b before ih => simpa using ih

theorem eraseIdx_split {α : Type} (before after : List α) (a : α) :
    (before ++ a :: after).eraseIdx before.length = before ++ after := by
  induction before with
  | nil => rfl
  | cons b before ih => simpa using ih

theorem getElem?_split {α : Type} (before after : List α) (a : α) :
    (before ++ a :: after)[before.length]? = some a := by
  simp

/-- An entry that is moved stays in the list. -/
theorem moveEntry_perm {α : Type} {entries : List α} {origin target : Nat}
    (ht : target < entries.length) : (moveEntry entries origin target).Perm entries := by
  unfold moveEntry
  split
  · rename_i entry he
    obtain ⟨hlt, hget⟩ := List.getElem?_eq_some_iff.mp he
    have hlen : target ≤ (entries.eraseIdx origin).length := by
      rw [List.length_eraseIdx_of_lt hlt]
      omega
    refine (List.perm_insertIdx entry _ hlen).trans ?_
    rw [← hget]
    exact List.getElem_cons_eraseIdx_perm hlt
  · exact .refl _

namespace Scenario

/-- The entries of all lists of all triggers. -/
def listings (scenario : Scenario) : List Listing := scenario.triggers.flatMap Trigger.listings

variable {scenario : Scenario} {id : TriggerId}

theorem mem_listings {listing : Listing} :
    listing ∈ scenario.listings ↔ ∃ trigger ∈ scenario.triggers,
      trigger.id = listing.trigger ∧ listing.root ∈ trigger.roots listing.clause := by
  simp only [listings, List.mem_flatMap, Trigger.mem_listings]
  constructor
  · intro h
    obtain ⟨trigger, ht, he, hr⟩ := h
    exact ⟨trigger, ht, he.symm, hr⟩
  · intro h
    obtain ⟨trigger, ht, he, hr⟩ := h
    exact ⟨trigger, ht, he.symm, hr⟩

theorem map_root_listings :
    scenario.listings.map Listing.root = scenario.triggers.flatMap Trigger.allRoots := by
  simp [listings, List.map_flatMap, Trigger.map_root_listings]

/-- Where a trigger was found, it stands between those before and those after it. -/
theorem requireTrigger_ok {index : Nat} (h : scenario.requireTrigger id = .ok index) :
    ∃ before trigger after, scenario.triggers = before ++ trigger :: after ∧
      before.length = index ∧ trigger.id = id := by
  unfold requireTrigger triggerIndex? at h
  split at h
  · rename_i i hi
    cases h
    obtain ⟨hlt, hp, _⟩ := List.findIdx?_eq_some_iff_getElem.mp hi
    obtain ⟨before, trigger, after, hsplit, rfl⟩ := exists_split hlt
    refine ⟨before, trigger, after, hsplit, rfl, ?_⟩
    simpa [hsplit] using hp
  · exact absurd h (by simp)

/-- A trigger of the script is found. -/
theorem exists_requireTrigger {trigger : Trigger} (h : trigger ∈ scenario.triggers) :
    ∃ index, scenario.requireTrigger trigger.id = .ok index := by
  unfold requireTrigger
  split
  · rename_i index _
    exact ⟨index, rfl⟩
  · rename_i hnone
    have hall := List.findIdx?_eq_none_iff.mp hnone trigger h
    simp at hall

end Scenario

end Rulebook
