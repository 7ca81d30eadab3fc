import Rulebook.Proofs.Interchange.Assembly
import Rulebook.Proofs.Interchange.Decoding
import Rulebook.Proofs.Snapshot

/-!
# Numbers are not used again

What an operation makes it hands out by a number, and no number is handed out
twice. Every change of a script leaves the next number of each sort where it was
or moves it on, and what is there after a change was there before it or has a
number that had not been given out. A failed import does put the next numbers
back, but it hands nothing out, so those numbers are still unused.

Storing a script and loading it again changes none of this, because the script
comes back as it was.
-/

namespace Rulebook

open Attempt

/-- What the step yields, if it does not fail. -/
def Attempt.yield? {ε σ α : Type} (step : Attempt ε σ α) (s : σ) : Option α :=
  (step.runOn s).1.toOption

theorem Attempt.yield?_eq_some {ε σ α : Type} {step : Attempt ε σ α} {s : σ} {a : α} :
    step.yield? s = some a ↔ ∃ t, step.runOn s = (.ok a, t) := by
  unfold yield?
  cases hr : step.runOn s with
  | mk result t => cases result <;> simp [Except.toOption]

/-- The number of a node, of a trigger or of a region. -/
inductive Handle where
  | node (id : NodeId)
  | trigger (id : TriggerId)
  | region (id : RegionId)
deriving DecidableEq

namespace Scenario

variable {registry : Registry} {scenario mid after : Scenario} {handle : Handle}

/-- There is something of the number. -/
def Has (scenario : Scenario) : Handle → Prop
  | .node id => ∃ node, scenario.forest.get? id = some node
  | .trigger id => id ∈ scenario.triggers.map Trigger.id
  | .region id => id ∈ scenario.regions.map Region.id

/-- The number lies below the next one of its sort. -/
def Spent (scenario : Scenario) : Handle → Prop
  | .node id => id.raw < scenario.forest.nextId
  | .trigger id => id.raw < scenario.nextTrigger
  | .region id => id.raw < scenario.nextRegion

/-- The next numbers have not gone back, and what is there was there before or is new. -/
structure Later (scenario after : Scenario) : Prop where
  nextNode : scenario.forest.nextId ≤ after.forest.nextId
  nextTrigger : scenario.nextTrigger ≤ after.nextTrigger
  nextRegion : scenario.nextRegion ≤ after.nextRegion
  node : ∀ {id left}, after.forest.get? id = some left →
    (∃ node, scenario.forest.get? id = some node) ∨ scenario.forest.nextId ≤ id.raw
  trigger : ∀ id ∈ after.triggers.map Trigger.id,
    id ∈ scenario.triggers.map Trigger.id ∨ scenario.nextTrigger ≤ id.raw
  region : ∀ id ∈ after.regions.map Region.id,
    id ∈ scenario.regions.map Region.id ∨ scenario.nextRegion ≤ id.raw

namespace Later

theorem refl (scenario : Scenario) : Later scenario scenario where
  nextNode := Nat.le_refl _
  nextTrigger := Nat.le_refl _
  nextRegion := Nat.le_refl _
  node hl := .inl ⟨_, hl⟩
  trigger _ := .inl
  region _ := .inl

theorem spent (h : Later scenario after) (hs : scenario.Spent handle) : after.Spent handle := by
  cases handle with
  | node id => exact Nat.lt_of_lt_of_le hs h.nextNode
  | trigger id => exact Nat.lt_of_lt_of_le hs h.nextTrigger
  | region id => exact Nat.lt_of_lt_of_le hs h.nextRegion

theorem origin (h : Later scenario after) (ha : after.Has handle) :
    scenario.Has handle ∨ ¬ scenario.Spent handle := by
  cases handle with
  | node id =>
      obtain ⟨left, hl⟩ := ha
      exact (h.node hl).imp_right Nat.not_lt.mpr
  | trigger id => exact (h.trigger id ha).imp_right Nat.not_lt.mpr
  | region id => exact (h.region id ha).imp_right Nat.not_lt.mpr

theorem trans (h : Later scenario mid) (hm : Later mid after) : Later scenario after where
  nextNode := Nat.le_trans h.nextNode hm.nextNode
  nextTrigger := Nat.le_trans h.nextTrigger hm.nextTrigger
  nextRegion := Nat.le_trans h.nextRegion hm.nextRegion
  node hl := by
    rcases hm.node hl with ⟨_, hn⟩ | hnew
    · exact h.node hn
    · exact .inr (Nat.le_trans h.nextNode hnew)
  trigger id hid := by
    rcases hm.trigger id hid with hold | hnew
    · exact h.trigger id hold
    · exact .inr (Nat.le_trans h.nextTrigger hnew)
  region id hid := by
    rcases hm.region id hid with hold | hnew
    · exact h.region id hold
    · exact .inr (Nat.le_trans h.nextRegion hnew)

/-- **What has been removed does not come back.** -/
theorem gone (h : Later scenario after) (hs : scenario.Spent handle) (hg : ¬ scenario.Has handle) :
    ¬ after.Has handle := fun ha => (h.origin ha).elim hg fun hnew => hnew hs

end Later

/-! ## One change -/

theorem nextId_removeTrees (roots : List NodeId) :
    ∀ forest : Forest, (removeTrees forest roots).nextId = forest.nextId := by
  induction roots with
  | nil => exact fun _ => rfl
  | cons root rest ih => exact fun forest => (ih _).trans Forest.nextId_removeSubtree

theorem Change.later (hc : Change registry scenario after) (h : Owned scenario) :
    Later scenario after := by
  cases hc with
  | forest hf =>
      exact { Later.refl scenario with
        nextNode := hf.nextId_le
        node := fun hl => (hf.origin h.linked hl).imp_right And.left }
  | addTrigger =>
      refine { Later.refl scenario with nextTrigger := Nat.le_succ _, trigger := ?_ }
      intro id hid
      rw [List.map_append] at hid
      rcases List.mem_append.mp hid with hold | hnew
      · exact .inl hold
      · rw [List.mem_singleton.mp hnew]
        -- what is new has the number that the counter stood at
        exact .inr (Nat.le_refl _)
  | attach hr _ _ hids _ =>
      refine { Later.refl scenario with
        node := fun {id left} hl => ?_
        trigger := fun id hid => ?_ }
      · rw [Forest.get?_setOwner] at hl
        split at hl
        · obtain ⟨node, hn, _⟩ := Option.map_eq_some_iff.mp hl
          exact .inl ⟨node, hn⟩
        · exact .inl ⟨left, hl⟩
      · rw [← hids]
        exact .inl hid
  | arrange gone _ hids =>
      exact { Later.refl scenario with
        nextNode := Nat.le_of_eq (nextId_removeTrees _ _).symm
        node := fun hl => by
          obtain ⟨node, hn, _⟩ := get?_of_removeTrees _ h.linked hl
          exact .inl ⟨node, hn⟩
        trigger := fun id hid => .inl (hids.subset hid) }
  | addRegion _ =>
      refine { Later.refl scenario with nextRegion := Nat.le_succ _, region := ?_ }
      intro id hid
      rw [List.map_append] at hid
      rcases List.mem_append.mp hid with hold | hnew
      · exact .inl hold
      · rw [List.mem_singleton.mp hnew]
        exact .inr (Nat.le_refl _)
  | sift hsub =>
      refine { Later.refl scenario with region := fun id hid => .inl ?_ }
      have hids := hsub.map Prod.fst
      rw [List.map_map, List.map_map] at hids
      exact hids.subset hid

theorem Changes.later (hc : Changes registry scenario after) (h : Owned scenario) :
    Later scenario after :=
  hc.keep (P := Later scenario) (fun hstep ho hl => hl.trans (hstep.later ho)) h (.refl scenario)

/-- What is there has a number that was given out. -/
theorem Has.spent (ha : scenario.Has handle) (h : Owned scenario) (hs : Surveyed scenario) :
    scenario.Spent handle := by
  cases handle with
  | node id =>
      obtain ⟨node, hn⟩ := ha
      exact h.linked.used hn
  | trigger id =>
      obtain ⟨trigger, ht, rfl⟩ := List.mem_map.mp ha
      exact h.used trigger ht
  | region id =>
      obtain ⟨region, hr, rfl⟩ := List.mem_map.mp ha
      exact hs.used region hr

/-! ## What an operation hands out -/

/-- The number was not given out before and is now. -/
def Issues (scenario after : Scenario) (handle : Handle) : Prop :=
  ¬ scenario.Spent handle ∧ after.Spent handle

theorem onForest_issues {edit : Forest.Edit NodeId} {id : NodeId}
    (hedit : ∀ forest, edit.runOn scenario.forest = (.ok id, forest) →
      id = ⟨scenario.forest.nextId⟩ ∧ scenario.forest.nextId < forest.nextId)
    (hr : (onForest edit).runOn scenario = (.ok id, after)) :
    Issues scenario after (.node id) := by
  rw [onForest_runOn] at hr
  obtain ⟨hok, rfl⟩ := Prod.mk.inj hr
  obtain ⟨forest, hrun⟩ := exists_after hok
  obtain ⟨rfl, hlt⟩ := hedit forest hrun
  rw [hrun]
  exact ⟨Nat.lt_irrefl _, hlt⟩

theorem createDraft_issues {id : NodeId} {variant : VariantId}
    (hr : (createDraft registry variant).runOn scenario = (.ok id, after)) :
    Issues scenario after (.node id) := by
  refine onForest_issues (fun forest hrun => ?_) hr
  obtain ⟨_, _, _, _, rfl, rfl⟩ := Forest.createDraft_ok.mp hrun
  exact ⟨rfl, Nat.lt_succ_self _⟩

theorem nextId_fillSlots (parent : NodeId) (arguments : List (String × NodeId)) :
    ∀ forest : Forest, (forest.fillSlots parent arguments).nextId = forest.nextId := by
  induction arguments with
  | nil => exact fun _ => rfl
  | cons given rest ih =>
      exact fun forest => (ih _).trans (Forest.nextId_fillSlot parent given.2 given.1)

theorem createNode_issues {id : NodeId} {variant : VariantId} {arguments : List (String × NodeId)}
    {literal : Option Literal}
    (hr : (createNode registry variant arguments literal).runOn scenario = (.ok id, after)) :
    Issues scenario after (.node id) := by
  refine onForest_issues (fun forest hrun => ?_) hr
  obtain ⟨_, _, _, _, _, rfl, rfl⟩ := Forest.createNode_ok.mp hrun
  rw [nextId_fillSlots]
  exact ⟨rfl, Nat.lt_succ_self _⟩

theorem insertTree_issues (h : Forest.Linked scenario.forest) {id : NodeId} {tree : NodeTree}
    (hr : (insertTree registry tree).runOn scenario = (.ok id, after)) :
    Issues scenario after (.node id) := by
  refine onForest_issues (fun forest hrun => ⟨Forest.insertTree_ok_id hrun, ?_⟩) hr
  obtain ⟨name, literal, arguments⟩ := tree
  obtain ⟨variant, _, _, rfl, hargs⟩ := Forest.insertTree_ok.mp hrun
  -- the root takes the next number, and filling its slots does not go back
  have hplanted := Forest.linked_plant h variant literal
  have hfilled : Forest.Changes registry (scenario.forest.plant variant literal)
      ((Forest.insertArguments registry ⟨scenario.forest.nextId⟩ arguments).runOn
        (scenario.forest.plant variant literal)).2 :=
    Forest.insertArguments_changes _ arguments hplanted
  rw [hargs] at hfilled
  exact hfilled.nextId_le hplanted

theorem Issues.later (hi : Issues scenario mid handle) (hl : Later mid after) :
    Issues scenario after handle := ⟨hi.1, hl.spent hi.2⟩

theorem addDraft_issues (h : Owned scenario) {id : NodeId} {t : TriggerId} {clause : Clause}
    {variant : VariantId}
    (hr : (addDraft registry t clause variant).runOn scenario = (.ok id, after)) :
    Issues scenario after (.node id) := by
  unfold addDraft at hr
  simp only [bind_ok, runOn_get, check_ok, pure_ok] at hr
  obtain ⟨_, _, ⟨⟩, _, _, ⟨_, rfl⟩, node, drafted, hdraft, _, _, hattach, rfl, rfl⟩ := hr
  have hdrafted : Changes registry scenario
      ((createDraft registry variant).runOn scenario).2 :=
    onForest_changes Forest.createDraft_changes
  have hattached : Changes registry drafted ((attach t clause node).runOn drafted).2 :=
    attach_changes
  rw [createDraft, hdraft] at hdrafted
  rw [onFailure_ok.mp hattach] at hattached
  exact (createDraft_issues hdraft).later (hattached.later (hdrafted.owned h))

theorem pushRegion_issues {name : String} {stableId : Option Uuid} {bounds : Bounds}
    {id : RegionId} (hr : (pushRegion name stableId bounds).runOn scenario = (.ok id, after)) :
    Issues scenario after (.region id) := by
  rw [pushRegion_runOn] at hr
  cases hr
  exact ⟨Nat.lt_irrefl _, Nat.lt_succ_self _⟩

theorem addSharedRegion_issues {name : String} {stableId : Uuid} {bounds : Bounds}
    {id : RegionId}
    (hr : (addSharedRegion name stableId bounds).runOn scenario = (.ok id, after)) :
    Issues scenario after (.region id) := by
  rw [addSharedRegion, runOn_bind, runOn_get] at hr
  dsimp only at hr
  rw [runOn_ite] at hr
  split at hr
  · exact absurd (congrArg Prod.fst hr) (by simp)
  · exact pushRegion_issues hr

theorem addTrigger_issues {name : String} {id : TriggerId}
    (hr : (addTrigger name).runOn scenario = (.ok id, after)) :
    Issues scenario after (.trigger id) := by
  rw [addTrigger_runOn] at hr
  cases hr
  exact ⟨Nat.lt_irrefl _, Nat.lt_succ_self _⟩

section Reading

variable {σ : Type} [Services σ] {services : σ} {text : String}

theorem decode_issues (h : Owned scenario) {id : NodeId}
    (hr : (decode registry services text).runOn scenario = (.ok id, after)) :
    Issues scenario after (.node id) := by
  obtain ⟨_, _, _, hsprouted⟩ := sprouted_of_decode h.linked hr
  obtain ⟨node, hn, _⟩ := hsprouted.detached
  have hchanges : Changes registry scenario
      ((decode registry services text).runOn scenario).2 := decode_changes h
  rw [hr] at hchanges
  have hspent := (hchanges.owned h).linked.used hn
  rw [hsprouted.fresh] at hspent ⊢
  exact ⟨Nat.lt_irrefl _, hspent⟩

theorem importTrigger_issues (h : Owned scenario) {id : TriggerId}
    (hr : (importTrigger registry services text).runOn scenario = (.ok id, after)) :
    Issues scenario after (.trigger id) := by
  obtain ⟨outline, mid, _, rfl, hparts, hflag⟩ := importTrigger_ok.mp hr
  have hnew : Issues scenario ((addTrigger outline.name).runOn scenario).2
      (.trigger ⟨scenario.nextTrigger⟩) := addTrigger_issues (addTrigger_runOn outline.name)
  have hadd : Changes registry scenario ((addTrigger outline.name).runOn scenario).2 :=
    addTrigger_changes outline.name
  -- importing the parts is a run of changes from there
  have hall : Keeps (Changes registry ((addTrigger outline.name).runOn scenario).2)
      (importParts registry services ⟨scenario.nextTrigger⟩ outline.parts) :=
    keeps_importParts (hadd.owned h) outline.parts
  have hmid := hall _ .refl
  rw [hparts] at hmid
  have hlast : Changes registry mid
      ((setTriggerEnabled ⟨scenario.nextTrigger⟩ outline.enabled).runOn mid).2 :=
    setTriggerEnabled_changes outline.enabled
  rw [hflag] at hlast
  have hrest : Changes registry ((addTrigger outline.name).runOn scenario).2 after :=
    hmid.trans hlast
  exact hnew.later (hrest.later (hadd.owned h))

end Reading

end Scenario

namespace Request

open Scenario (Issues)

variable {registry : Registry} {scenario : Scenario} {handle : Handle}

/-- The number that a request hands out, if it is granted and makes something. -/
def made? (registry : Registry) (scenario : Scenario) : Request → Option Handle
  | addTrigger name => ((Scenario.addTrigger name).yield? scenario).map .trigger
  | addDraft id clause variant =>
    ((Scenario.addDraft registry id clause variant).yield? scenario).map .node
  | createNode variant arguments literal =>
    ((Scenario.createNode registry variant arguments literal).yield? scenario).map .node
  | createDraft variant => ((Scenario.createDraft registry variant).yield? scenario).map .node
  | insertTree tree => ((Scenario.insertTree registry tree).yield? scenario).map .node
  | addRegion name bounds => ((Scenario.addRegion name bounds).yield? scenario).map .region
  | addFreshRegion name bits bounds =>
    ((Scenario.addFreshRegion name bits bounds).yield? scenario).map .region
  | addSharedRegion name stableId bounds =>
    ((Scenario.addSharedRegion name stableId bounds).yield? scenario).map .region
  | decode services text => ((Scenario.decode registry services text).yield? scenario).map .node
  | importTrigger services text =>
    ((Scenario.importTrigger registry services text).yield? scenario).map .trigger
  | deleteTrigger _ | renameTrigger _ _ | setTriggerEnabled _ _ | moveTrigger _ _ | attach _ _ _
  | deleteNode _ | moveNode _ _ | setArgument _ _ _ | clearArgument _ _ | setLiteral _ _
  | renameRegion _ _ | removeRegion _ => none

/-- **What a request hands out is new.** -/
theorem issues (h : Scenario.Owned scenario) {request : Request}
    (hm : request.made? registry scenario = some handle) :
    Issues scenario (request.after registry scenario) handle := by
  -- a request that yields a handle has run its edit to the end
  have hissues : ∀ {ε α : Type} {step : Attempt ε Scenario α} {wrap : α → Handle},
      (step.yield? scenario).map wrap = some handle →
      (∀ a after, step.runOn scenario = (.ok a, after) → Issues scenario after (wrap a)) →
      Issues scenario (step.runOn scenario).2 handle := by
    intro ε α step wrap hy hall
    obtain ⟨a, ha, rfl⟩ := Option.map_eq_some_iff.mp hy
    obtain ⟨after, hr⟩ := yield?_eq_some.mp ha
    rw [hr]
    exact hall a after hr
  cases request with
  | addTrigger name => exact hissues hm fun _ _ => Scenario.addTrigger_issues
  | addDraft id clause variant => exact hissues hm fun _ _ => Scenario.addDraft_issues h
  | createNode variant arguments literal =>
      exact hissues hm fun _ _ => Scenario.createNode_issues
  | createDraft variant => exact hissues hm fun _ _ => Scenario.createDraft_issues
  | insertTree tree => exact hissues hm fun _ _ => Scenario.insertTree_issues h.linked
  | addRegion name bounds => exact hissues hm fun _ _ => Scenario.pushRegion_issues
  | addFreshRegion name bits bounds => exact hissues hm fun _ _ => Scenario.pushRegion_issues
  | addSharedRegion name stableId bounds =>
      exact hissues hm fun _ _ => Scenario.addSharedRegion_issues
  | decode services text => exact hissues hm fun _ _ => Scenario.decode_issues h
  | importTrigger services text => exact hissues hm fun _ _ => Scenario.importTrigger_issues h
  | _ => exact absurd hm (by simp [made?])

end Request

/-! ## Operations in a row -/

/-- What is done to a script: a request is made, with variants of its own, or the script is stored,
its nodes in some order, and loaded again. -/
inductive Operation : Type 1 where
  | edit (registry : Registry) (request : Request)
  | reload (order : Forest → List (NodeId × Node))

namespace Operation

/-- The script after an operation. What cannot be loaded is not taken. -/
def after (scenario : Scenario) : Operation → Scenario
  | edit registry request => request.after registry scenario
  | reload order => (Scenario.ofBytes? (scenario.toBytesBy order)).getD scenario

/-- The number that an operation hands out. -/
def made? (scenario : Scenario) : Operation → Option Handle
  | edit registry request => request.made? registry scenario
  | reload _ => none

/-- What is taken for granted: identifiers that are drawn at random are fresh, numbers fit in 32
bits, and what is stored is such as a machine can hold, every node once. -/
def Allowed (scenario : Scenario) : Operation → Prop
  | edit registry request =>
    request.Fresh scenario ∧ (request.after registry scenario).InRange
  | reload order =>
    (order scenario.forest).Perm scenario.forest.nodes.toList ∧ scenario.Storable

instance decidableAllowed (scenario : Scenario) : (operation : Operation) →
    Decidable (operation.Allowed scenario)
  | edit _ _ => inferInstanceAs (Decidable (_ ∧ _))
  | reload _ => inferInstanceAs (Decidable (_ ∧ _))

/-- The operation makes use of no other variants. -/
def Within (registry : Registry) : Operation → Prop
  | edit other _ => other = registry
  | reload _ => True

variable {scenario : Scenario} {operation : Operation} {handle : Handle}

theorem after_reload (h : Scenario.Reached scenario) {order : Forest → List (NodeId × Node)}
    (ha : (reload order).Allowed scenario) : (reload order).after scenario = scenario := by
  obtain ⟨ho, hstore⟩ := ha
  have hback := h.ofBytes?_toBytesBy hstore ho []
  rw [List.append_nil] at hback
  rw [after, hback, Option.getD_some]

theorem reached (h : Scenario.Reached scenario) (ha : operation.Allowed scenario) :
    Scenario.Reached (operation.after scenario) := by
  cases operation with
  | edit registry request => exact h.request registry request ha.1 ha.2
  | reload order =>
      rw [after_reload h ha]
      exact h

theorem later (h : Scenario.Reached scenario) (ha : operation.Allowed scenario) :
    Scenario.Later scenario (operation.after scenario) := by
  cases operation with
  | edit registry request => exact (request.changes h.owned ha.1).later h.owned
  | reload order =>
      rw [after_reload h ha]
      exact .refl scenario

theorem issues (h : Scenario.Reached scenario) (hm : operation.made? scenario = some handle) :
    Scenario.Issues scenario (operation.after scenario) handle := by
  cases operation with
  | edit registry request => exact Request.issues h.owned hm
  | reload order => exact absurd hm (by simp [made?])

end Operation

namespace Scenario

variable {scenario : Scenario} {handle : Handle}

/-- The script after some operations. -/
def ran (scenario : Scenario) (operations : List Operation) : Scenario :=
  operations.foldl Operation.after scenario

/-- Each of the operations is allowed where the ones before it lead to. -/
def Permits : Scenario → List Operation → Prop
  | _, [] => True
  | scenario, operation :: rest =>
    operation.Allowed scenario ∧ Permits (operation.after scenario) rest

instance decidablePermits : (scenario : Scenario) → (operations : List Operation) →
    Decidable (scenario.Permits operations)
  | _, [] => .isTrue trivial
  | scenario, operation :: rest =>
    have := decidablePermits (operation.after scenario) rest
    inferInstanceAs (Decidable (_ ∧ _))

/-- The numbers that the operations hand out, in order. -/
def made : Scenario → List Operation → List Handle
  | _, [] => []
  | scenario, operation :: rest =>
    (operation.made? scenario).toList ++ made (operation.after scenario) rest

theorem ran_append (operations more : List Operation) :
    scenario.ran (operations ++ more) = (scenario.ran operations).ran more :=
  List.foldl_append

theorem permits_append {operations more : List Operation} :
    ∀ {scenario : Scenario}, scenario.Permits (operations ++ more) ↔
      scenario.Permits operations ∧ (scenario.ran operations).Permits more := by
  induction operations with
  | nil => exact ⟨fun h => ⟨trivial, h⟩, And.right⟩
  | cons operation rest ih =>
      intro scenario
      rw [List.cons_append, Permits, Permits, ih, and_assoc]
      rfl

/-- Storing and loading do not lead away from what requests can reach. -/
theorem Reachable.ran {registry : Registry} {operations : List Operation} :
    ∀ {scenario : Scenario}, Reachable registry scenario → scenario.Permits operations →
      (∀ operation ∈ operations, operation.Within registry) →
      Reachable registry (scenario.ran operations) := by
  induction operations with
  | nil => exact fun h _ _ => h
  | cons operation rest ih =>
      intro scenario h hp hw
      obtain ⟨ha, hrest⟩ := hp
      refine ih ?_ hrest fun other ho => hw other (List.mem_cons_of_mem _ ho)
      cases operation with
      | edit other request =>
          obtain rfl : other = registry := hw _ List.mem_cons_self
          exact h.request request ha.1 ha.2
      | reload order =>
          -- a snapshot that is read back is the scenario it was taken of
          rw [Operation.after_reload h.reached ha]
          exact h

/-- What a run of operations comes to: a script that could be reached anyway, later than the one it
began with, and new numbers, each handed out once. -/
structure RunsTo (scenario : Scenario) (operations : List Operation) : Prop where
  reached : Reached (scenario.ran operations)
  later : Later scenario (scenario.ran operations)
  issued : ∀ handle ∈ scenario.made operations, Issues scenario (scenario.ran operations) handle
  distinct : (scenario.made operations).Nodup

theorem Reached.runsTo {operations : List Operation} :
    ∀ {scenario : Scenario}, Reached scenario → scenario.Permits operations →
      scenario.RunsTo operations := by
  induction operations with
  | nil => exact fun h _ => ⟨h, .refl _, by simp [made], List.nodup_nil⟩
  | cons operation rest ih =>
      intro scenario h hp
      obtain ⟨ha, hrest⟩ := hp
      have hrun := ih (operation.reached h ha) hrest
      have hstep := operation.later h ha
      have hfirst : ∀ handle, operation.made? scenario = some handle →
          Issues scenario (operation.after scenario) handle := fun _ => Operation.issues h
      refine ⟨hrun.reached, hstep.trans hrun.later, fun handle hm => ?_, ?_⟩
      · rcases List.mem_append.mp hm with hm | hm
        · exact (hfirst handle (Option.mem_toList.mp hm)).later hrun.later
        · obtain ⟨hnew, hspent⟩ := hrun.issued handle hm
          exact ⟨fun hs => hnew (hstep.spent hs), hspent⟩
      · refine List.nodup_append.mpr ⟨?_, hrun.distinct, fun a hm b hm' he => ?_⟩
        · cases operation.made? scenario <;> simp
        -- what was handed out first is spent, and what comes then is not
        subst he
        exact (hrun.issued a hm').1 (hfirst a (Option.mem_toList.mp hm)).2

end Scenario

end Rulebook
