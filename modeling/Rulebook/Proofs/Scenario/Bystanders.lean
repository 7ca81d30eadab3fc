import Rulebook.Proofs.Forest.Locality
import Rulebook.Proofs.Scenario.Matching

/-!
# Triggers that an occurrence does not concern

Such a trigger might as well not be there. It is asked whether it is meant, which
leaves the host alone, and that is all. And if it is deleted, then what goes with
it are the trees on its own lists: no tree on a list of another trigger shares a
node with them, so everything that is evaluated for the others is as before.
-/

namespace Rulebook

namespace Scenario

open Forest (Linked)

variable {scenario : Scenario} {trigger other : Trigger} {x : NodeId}

/-- The removal of several trees is not seen from outside of them. -/
theorem get?_removeTrees_of_apart (roots : List NodeId) :
    ∀ {forest : Forest}, Linked forest → (∀ root ∈ roots, ∀ parent, ¬ forest.Holds parent root) →
      (∀ root ∈ roots, ¬ forest.Below root x) →
      (removeTrees forest roots).get? x = forest.get? x := by
  induction roots with
  | nil => exact fun _ _ _ => rfl
  | cons root others ih =>
      intro forest h hfree hb
      obtain ⟨hfirst, hothers⟩ := List.forall_mem_cons.mp hfree
      obtain ⟨hb, hbs⟩ := List.forall_mem_cons.mp hb
      have hrest := ih (Forest.linked_removeSubtree h root)
        (fun other ho parent hh => hothers other ho parent (Forest.holds_of_removeSubtree h hh))
        (fun other ho hbelow => hbs other ho (Forest.below_of_removeSubtree h hbelow))
      exact hrest.trans (Forest.get?_removeSubtree_of_apart h (hfirst x) hb)

/-- The node is in none of the trees on the lists of the trigger. -/
def Apart (scenario : Scenario) (trigger : Trigger) (id : NodeId) : Prop :=
  ∀ root ∈ trigger.allRoots, ¬ scenario.forest.Below root id

namespace Owned

theorem isRoot (h : Owned scenario) (ht : trigger ∈ scenario.triggers) {root : NodeId}
    (hr : root ∈ trigger.allRoots) : scenario.forest.IsRoot root := by
  obtain ⟨node, hn, ho⟩ := h.heldBy_of_mem ht hr
  exact ⟨node, hn, Or.inr ⟨trigger.id, ho⟩⟩

/-- What stands on the lists of one trigger is not below what stands on those of another. -/
theorem apart_of_ne (h : Owned scenario) (ht : trigger ∈ scenario.triggers)
    (ho : other ∈ scenario.triggers) (hne : other.id ≠ trigger.id) {root : NodeId}
    (hr : root ∈ other.allRoots) : scenario.Apart trigger root := by
  intro top htop hb
  cases (h.isRoot ho hr).eq_of_below h.linked hb
  obtain ⟨node, hn, hown⟩ := h.heldBy_of_mem ho hr
  obtain ⟨node', hn', hown'⟩ := h.heldBy_of_mem ht htop
  cases hn.symm.trans hn'
  exact hne (Owner.trigger.inj (hown.symm.trans hown'))

/-- Without the trees of a trigger, evaluations of nodes that are not in them are as before. -/
theorem agreeOn_removeTrees (h : Owned scenario) (ht : trigger ∈ scenario.triggers)
    (registry : Registry) (facts : Facts) (triggers : List Trigger) :
    Scene.AgreeOn (scenario.Apart trigger) ⟨registry, scenario, facts⟩
      ⟨registry, { scenario with
        forest := removeTrees scenario.forest trigger.allRoots, triggers }, facts⟩ where
  registry := rfl
  facts := rfl
  regions _ := rfl
  nodes := get?_removeTrees_of_apart trigger.allRoots h.linked
    fun _ hr => (h.isRoot ht hr).not_holds h.linked
  closed hp hn ha root hr hb := by
    have hholds := Forest.holds_of_argument? hn ha
    rcases h.linked.below_of_holds hb hholds with rfl | hb
    · exact (h.isRoot ht hr).not_holds h.linked _ hholds
    · exact hp root hr hb

end Owned

end Scenario

/-! ## Asked in vain -/

namespace Scene

variable {σ ρ : Type} [Services σ] [RandomSource ρ] {scene : Scene} {limit : Nat}
  {occurrence : Occurrence} {trigger : Trigger}

/-- A trigger that is not concerned is passed over. -/
theorem Builtin.runTriggers_cons (h : scene.Builtin) (hf : scene.facts = .ofOccurrence occurrence)
    (hno : trigger.enabled = false ∨
      ∀ event ∈ trigger.events, ¬ scene.scenario.Matches scene.registry occurrence event)
    (rest : List Trigger) (s : Host σ ρ) :
    scene.runTriggers limit (trigger :: rest) s = scene.runTriggers limit rest s := by
  rw [runTriggers]
  rcases hno with hoff | hnone
  · rw [if_neg (by simp [hoff])]
  · have hdecides := h.hearsAny_decides hf (scene.hearsAny_hears limit trigger.events s)
    have hunheard : scene.hearsAny limit trigger.events s = (false, s) :=
      Prod.ext (hdecides.eq_false fun hx => hnone _ hx.choose_spec.1 hx.choose_spec.2)
        hdecides.quiet
    rw [hunheard]
    split <;> rfl

end Scene

namespace Scenario

open Attempt

variable {σ ρ : Type} [Services σ] [RandomSource ρ] {scenario : Scenario} {trigger : Trigger}

/-- A trigger that is there can be deleted. -/
theorem Owned.exists_deleteTrigger (h : Owned scenario) (ht : trigger ∈ scenario.triggers) :
    ∃ before rest, scenario.triggers = before ++ trigger :: rest ∧
      (deleteTrigger trigger.id).runOn scenario =
        (.ok (scenario.forest.size - (removeTrees scenario.forest trigger.allRoots).size),
          { scenario with
            forest := removeTrees scenario.forest trigger.allRoots
            triggers := before ++ rest }) := by
  obtain ⟨index, hi⟩ := exists_requireTrigger ht
  obtain ⟨before, found, rest, hsplit, rfl, hid⟩ := requireTrigger_ok hi
  have hfound : found ∈ scenario.triggers := by
    rw [hsplit]
    exact List.mem_append_right _ List.mem_cons_self
  cases List.inj_on_of_nodup_map h.ids hfound ht hid
  refine ⟨before, rest, hsplit, deleteTrigger_ok.mpr ⟨before.length, hi, ?_⟩⟩
  rw [hsplit, getElem?_split, eraseIdx_split, Option.map_some, Option.getD_some]
  exact ⟨rfl, rfl⟩

/-- **A trigger that an occurrence does not concern makes no difference** to how the occurrence is
handled: without it the report is the same, and so is what is left of host and random source. -/
theorem Reachable.dispatch_deleteTrigger (h : Reachable .builtin scenario) (engine : Engine ρ)
    (hr : engine.registry = .builtin) (services : σ) (occurrence : Occurrence)
    (ht : trigger ∈ scenario.triggers)
    (hno : trigger.enabled = false ∨
      ∀ event ∈ trigger.events, ¬ scenario.Matches engine.registry occurrence event) :
    ∃ count after, (deleteTrigger trigger.id).runOn scenario = (.ok count, after) ∧
      engine.dispatch (some after) services occurrence
        = engine.dispatch (some scenario) services occurrence := by
  obtain ⟨before, rest, hsplit, hdelete⟩ := h.owned.exists_deleteTrigger ht
  let after : Scenario := { scenario with
    forest := removeTrees scenario.forest trigger.allRoots, triggers := before ++ rest }
  let scene : Scene := ⟨engine.registry, scenario, .ofOccurrence occurrence⟩
  let twin : Scene := ⟨engine.registry, after, .ofOccurrence occurrence⟩
  refine ⟨_, after, hdelete, ?_⟩
  have hagree : Scene.AgreeOn (scenario.Apart trigger) scene twin :=
    h.owned.agreeOn_removeTrees ht _ _ _
  -- the other triggers have other numbers, so their trees are still there
  have hapart : ∀ other ∈ before ++ rest, ∀ clause, ∀ root ∈ other.roots clause,
      scenario.Apart trigger root := by
    intro other ho clause root hroot
    have hother : other ∈ scenario.triggers := by
      rw [hsplit]
      exact List.mem_append.mpr ((List.mem_append.mp ho).imp id (List.mem_cons_of_mem _))
    have hne : other.id ≠ trigger.id := fun he =>
      not_mem_of_split h.owned.ids hsplit (he ▸ List.mem_map_of_mem ho)
    exact h.owned.apart_of_ne ht hother hne (Trigger.mem_allRoots.mpr ⟨clause, hroot⟩)
  have hpassed : ∀ s : Host σ ρ, twin.runTriggers engine.config.maxDepth (before ++ rest) s
      = scene.runTriggers engine.config.maxDepth scenario.triggers s := by
    intro s
    rw [hagree.runTriggers_eq hapart, hsplit, scene.runTriggers_append, scene.runTriggers_append,
      (h.scene hr _ : scene.Builtin).runTriggers_cons rfl hno]
  have hdispatch : ∀ s : Host σ ρ,
      dispatch engine.registry engine.config.maxDepth (some after) occurrence s
        = dispatch engine.registry engine.config.maxDepth (some scenario) occurrence s := by
    intro s
    rw [dispatch_some, dispatch_some, ← hpassed]
  rw [Engine.dispatch, Engine.dispatch, hdispatch]

/-- The trigger of the gate that does not say which region it is meant for is not concerned. -/
theorem dispatch_deleteTrigger_gate :
    ∃ count after, (deleteTrigger ⟨1⟩).runOn Gate.script = (.ok count, after) ∧
      Gate.engine.dispatch (some after) World.empty (.regionEntered ⟨0⟩ ⟨0⟩)
        = Gate.engine.dispatch (some Gate.script) World.empty (.regionEntered ⟨0⟩ ⟨0⟩) := by
  have hr : Gate.engine.registry = .builtin := Engine.create_registry _ _ _
  have hthere : { id := ⟨1⟩, name := "count", events := [⟨2⟩] } ∈ Gate.script.triggers := by
    decide +kernel
  have hunmatched : ∀ event ∈ [⟨2⟩],
      ¬ Gate.script.Matches Gate.engine.registry (.regionEntered ⟨0⟩ ⟨0⟩) event := by
    rw [hr, Registry.builtin_eq]
    decide +kernel
  have hsame := Gate.script_reachable.dispatch_deleteTrigger Gate.engine hr World.empty
    (.regionEntered ⟨0⟩ ⟨0⟩) hthere (Or.inr hunmatched)
  exact hsame

end Scenario

end Rulebook
