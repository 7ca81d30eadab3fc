import Rulebook.Dispatch

/-!
# What evaluation looks at

To evaluate a node, the script is looked at in that node, in what is in its slots
and so on downwards, and in the list of regions; nowhere else. So if two scenes
agree on some nodes, and no slot of these holds any other node, then they
evaluate these nodes to the same results and leave the host in the same states.
What is done with a trigger is made of evaluations of what stands on its lists.
-/

namespace Rulebook

namespace Scene

/-- What a literal stands for depends on the regions of the script only. -/
theorem literalValue?_congr {σ : Type} [Services σ] {scene twin : Scene}
    (h : ∀ id, twin.scenario.region? id = scene.scenario.region? id) (services : σ)
    (literal : Literal) :
    twin.literalValue? services literal = scene.literalValue? services literal := by
  cases literal with
  | region id => rw [literalValue?, literalValue?, h]
  | _ => rfl

/-- The scenes agree on a part of the nodes that has, with a node, whatever is in its slots, and on
all else that evaluations read. -/
structure AgreeOn (part : NodeId → Prop) (scene twin : Scene) : Prop where
  registry : twin.registry = scene.registry
  facts : twin.facts = scene.facts
  regions : ∀ id, twin.scenario.region? id = scene.scenario.region? id
  nodes : ∀ {id}, part id → twin.scenario.forest.get? id = scene.scenario.forest.get? id
  closed : ∀ {id node param child}, part id → scene.scenario.forest.get? id = some node →
    node.argument? param = some child → part child

namespace AgreeOn

variable {σ ρ : Type} [Services σ] {part : NodeId → Prop} {scene twin : Scene} {node : Node}
  {child child' : NodeId → Evaluation σ ρ Value} {limit : Nat}

/-! ## Evaluating a node -/

theorem resolve_eq (h : AgreeOn part scene twin) (id : NodeId) (literal : Literal) :
    (twin.resolve id literal : Evaluation σ ρ Value) = scene.resolve id literal := by
  unfold resolve
  simp only [literalValue?_congr h.regions]

omit [Services σ] in
theorem region_eq (h : AgreeOn part scene twin) (id : NodeId) (region : RegionId) :
    (twin.region id region : Evaluation σ ρ Region) = scene.region id region := by
  unfold Scene.region
  rw [h.regions]

theorem argument_eq (h : AgreeOn part scene twin) {param : String}
    (hchild : ∀ {held}, node.argument? param = some held → child' held = child held) :
    twin.argument child' node param = scene.argument child node param := by
  unfold argument
  rw [h.registry]
  cases hheld : node.argument? param with
  | none => simp only [h.resolve_eq]
  | some held => exact hchild hheld

variable [RandomSource ρ]

/-- A script is served to the same end if what is in the slots of the node is. -/
theorem serve_eq {α : Type} (h : AgreeOn part scene twin)
    (hchild : ∀ {param held}, node.argument? param = some held → child' held = child held)
    (script : Script α) : twin.serve child' node script = scene.serve child node script := by
  induction script with
  | done | fail => rfl
  | argument param next ih =>
      rw [serve, serve, h.argument_eq hchild]
      exact congrArg _ (funext ih)
  | literal next ih => exact ih node.literal
  | resolve literal next ih =>
      rw [serve, serve, h.resolve_eq]
      exact congrArg _ (funext ih)
  | facts next ih =>
      rw [serve, serve, h.facts]
      exact ih scene.facts
  | region id next ih =>
      rw [serve, serve, h.region_eq]
      exact congrArg _ (funext ih)
  | ask query next ih => exact congrArg _ (funext ih)
  | perform effect next ih => exact congrArg _ (funext fun _ => ih)
  | roll low high next ih => exact congrArg _ (funext ih)

/-- By induction on the levels that may still be entered. -/
theorem evaluateWithin_eq (h : AgreeOn part scene twin) (limit remaining : Nat) :
    ∀ {id : NodeId}, part id →
      (twin.evaluateWithin limit remaining id : Evaluation σ ρ Value)
        = scene.evaluateWithin limit remaining id := by
  induction remaining with
  | zero =>
      intro id hp
      rw [evaluateWithin, evaluateWithin, h.nodes hp, h.registry]
  | succ remaining ih =>
      intro id hp
      rw [evaluateWithin, evaluateWithin, h.nodes hp, h.registry]
      cases hn : scene.scenario.forest.get? id with
      | none => rfl
      | some node =>
          -- the part is closed, so what the slots hold is in it again
          have hserve : ∀ rule : Rule,
              (twin.serve (twin.evaluateWithin limit remaining) node rule : Evaluation σ ρ Value)
                = scene.serve (scene.evaluateWithin limit remaining) node rule :=
            h.serve_eq fun hheld => ih (h.closed hp hn hheld)
          simp only [hserve]

/-- **Evaluation looks at nothing outside of the part.** -/
theorem evaluate_eq (h : AgreeOn part scene twin) {id : NodeId} (hp : part id) (limit : Nat) :
    (twin.evaluate limit id : Evaluation σ ρ Value) = scene.evaluate limit id :=
  h.evaluateWithin_eq limit limit hp

theorem evaluateBool_eq (h : AgreeOn part scene twin) {id : NodeId} (hp : part id) (limit : Nat) :
    (twin.evaluateBool limit id : Evaluation σ ρ Bool) = scene.evaluateBool limit id := by
  unfold evaluateBool evaluateAs
  rw [h.evaluate_eq hp, h.nodes hp]

/-! ## What is done with triggers -/

theorem hears_eq (h : AgreeOn part scene twin) {event : NodeId} (hp : part event) (s : Host σ ρ) :
    twin.hears limit event s = scene.hears limit event s := by
  unfold hears inspect
  rw [h.nodes hp, h.registry, h.facts]
  cases hn : scene.scenario.forest.get? event with
  | none => rfl
  | some node =>
      have hserve : ∀ script : Script RegionId,
          (twin.serve (twin.evaluate limit) node script : Evaluation σ ρ RegionId)
            = scene.serve (scene.evaluate limit) node script :=
        h.serve_eq fun hheld => h.evaluate_eq (h.closed hp hn hheld) limit
      simp only [hserve]

theorem hearsAny_eq (h : AgreeOn part scene twin) {events : List NodeId} :
    (∀ event ∈ events, part event) →
      ∀ s : Host σ ρ, twin.hearsAny limit events s = scene.hearsAny limit events s := by
  induction events with
  | nil => exact fun _ _ => rfl
  | cons event rest ih =>
      intro hp s
      obtain ⟨hfirst, hrest⟩ := List.forall_mem_cons.mp hp
      simp only [hearsAny, h.hears_eq hfirst, ih hrest]

theorem checkConditions_eq (h : AgreeOn part scene twin) {conditions : List NodeId} :
    (∀ condition ∈ conditions, part condition) →
      ∀ s : Host σ ρ, twin.checkConditions limit conditions s
        = scene.checkConditions limit conditions s := by
  induction conditions with
  | nil => exact fun _ _ => rfl
  | cons condition rest ih =>
      intro hp s
      obtain ⟨hfirst, hrest⟩ := List.forall_mem_cons.mp hp
      simp only [checkConditions, h.evaluateBool_eq hfirst, ih hrest]

theorem runActions_eq (h : AgreeOn part scene twin) {actions : List NodeId} :
    (∀ action ∈ actions, part action) →
      ∀ s : Host σ ρ, twin.runActions limit actions s = scene.runActions limit actions s := by
  induction actions with
  | nil => exact fun _ _ => rfl
  | cons action rest ih =>
      intro hp s
      obtain ⟨hfirst, hrest⟩ := List.forall_mem_cons.mp hp
      simp only [runActions, h.evaluate_eq hfirst, ih hrest]

/-- **Triggers are handled the same** if all that stands on their lists belongs to the part. -/
theorem runTriggers_eq (h : AgreeOn part scene twin) {triggers : List Trigger} :
    (∀ trigger ∈ triggers, ∀ clause, ∀ root ∈ trigger.roots clause, part root) →
      ∀ s : Host σ ρ, twin.runTriggers limit triggers s = scene.runTriggers limit triggers s := by
  induction triggers with
  | nil => exact fun _ _ => rfl
  | cons trigger rest ih =>
      intro hp s
      obtain ⟨hfirst, hrest⟩ := List.forall_mem_cons.mp hp
      have hevents : ∀ event ∈ trigger.events, part event := hfirst .events
      have hconditions : ∀ condition ∈ trigger.conditions, part condition := hfirst .conditions
      have hactions : ∀ action ∈ trigger.actions, part action := hfirst .actions
      simp only [runTriggers, runTrigger, h.hearsAny_eq hevents,
        h.checkConditions_eq hconditions, h.runActions_eq hactions, ih hrest]

end AgreeOn

end Scene

end Rulebook
