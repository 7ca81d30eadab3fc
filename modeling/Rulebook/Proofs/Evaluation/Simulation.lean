import Rulebook.Dispatch
import Rulebook.Proofs.Attempt

/-!
# Two hosts side by side

All that an evaluation learns of its host is what the services reply and what the
random source draws. So if two hosts stand in a relation in which they reply alike,
and every question, effect and draw keeps them in it, then whatever is evaluated or
handled comes to the same on both, and they are still in the relation.

For handling an occurrence it is enough to know this of what the triggers hold.
-/

namespace Rulebook

/-- On hosts in the relation both runs come to the same, and leave them in the relation. -/
def Tracks {η θ α : Type} (R : η → θ → Prop) (run : η → α × η) (twin : θ → α × θ) : Prop :=
  ∀ host other, R host other →
    ∃ a after after', run host = (a, after) ∧ twin other = (a, after') ∧ R after after'

namespace Tracks

variable {σ ρ τ υ α β : Type} {R : Host σ ρ → Host τ υ → Prop}

theorem stay (a : α) : Tracks R (fun host => (a, host)) fun other => (a, other) :=
  fun host other h => ⟨a, host, other, rfl, rfl, h⟩

theorem pure (a : α) : Tracks R (Pure.pure a : Evaluation σ ρ α).runOn
    (Pure.pure a : Evaluation τ υ α).runOn :=
  stay (Except.ok a)

theorem throw (error : EvalError) : Tracks R (MonadExcept.throw error : Evaluation σ ρ α).runOn
    (MonadExcept.throw error : Evaluation τ υ α).runOn :=
  stay (Except.error error)

theorem bind {step : Evaluation σ ρ α} {twin : Evaluation τ υ α} {next : α → Evaluation σ ρ β}
    {next' : α → Evaluation τ υ β} (hs : Tracks R step.runOn twin.runOn)
    (hn : ∀ a, Tracks R (next a).runOn (next' a).runOn) :
    Tracks R (step >>= next).runOn (twin >>= next').runOn := by
  intro host other h
  obtain ⟨result, between, between', hrun, htwin, hbetween⟩ := hs host other h
  rw [Attempt.runOn_bind, Attempt.runOn_bind, hrun, htwin]
  cases result with
  | ok a => exact hn a between between' hbetween
  | error error => exact ⟨.error error, between, between', rfl, rfl, hbetween⟩

end Tracks

/-- Hosts in the relation cannot be told apart by what can be asked of them. -/
structure Simulates {σ ρ τ υ : Type} [Services σ] [RandomSource ρ] [Services τ] [RandomSource υ]
    (R : Host σ ρ → Host τ υ → Prop) : Prop where
  hasBlock : ∀ {host other}, R host other → ∀ key,
    Services.hasBlock host.services key = Services.hasBlock other.services key
  hasItem : ∀ {host other}, R host other → ∀ key,
    Services.hasItem host.services key = Services.hasItem other.services key
  ask : ∀ query, Tracks R (Scene.ask query : Evaluation σ ρ query.Answer).runOn
    (Scene.ask query : Evaluation τ υ query.Answer).runOn
  perform : ∀ node effect, Tracks R (Scene.perform node effect : Evaluation σ ρ Unit).runOn
    (Scene.perform node effect : Evaluation τ υ Unit).runOn
  roll : ∀ low high, Tracks R (Scene.roll low high : Evaluation σ ρ Int64).runOn
    (Scene.roll low high : Evaluation τ υ Int64).runOn

namespace Scene

variable {σ ρ τ υ : Type} [Services σ] [RandomSource ρ] [Services τ] [RandomSource υ]
  {R : Host σ ρ → Host τ υ → Prop} {scene : Scene} {limit : Nat} {node : Node}

/-! ## Evaluating a node -/

theorem resolve_tracks (h : Simulates R) (id : NodeId) (literal : Literal) :
    Tracks R (scene.resolve id literal : Evaluation σ ρ Value).runOn
      (scene.resolve id literal : Evaluation τ υ Value).runOn := by
  intro host other hrelated
  have hvalue : scene.literalValue? host.services literal
      = scene.literalValue? other.services literal := by
    cases literal with
    | block key => rw [literalValue?, literalValue?, h.hasBlock hrelated]
    | item key => rw [literalValue?, literalValue?, h.hasItem hrelated]
    | _ => rfl
  rw [resolve, Attempt.runOn_get_bind, Attempt.runOn_check, resolve, Attempt.runOn_get_bind,
    Attempt.runOn_check, hvalue]
  exact ⟨_, host, other, rfl, rfl, hrelated⟩

/-- A rule does nothing but ask, and have its arguments evaluated. -/
theorem serve_tracks {α : Type} (h : Simulates R) {child : NodeId → Evaluation σ ρ Value}
    {child' : NodeId → Evaluation τ υ Value}
    (hchild : ∀ held, Tracks R (child held).runOn (child' held).runOn) (script : Script α) :
    Tracks R (scene.serve child node script).runOn (scene.serve child' node script).runOn := by
  induction script with
  | done result => exact .pure result
  | fail why => exact .throw _
  | argument param next ih =>
      refine .bind ?_ ih
      unfold argument
      split
      · exact hchild _
      · split
        · exact resolve_tracks h _ _
        · exact .throw _
  | literal next ih => exact ih node.literal
  | resolve literal next ih => exact .bind (resolve_tracks h _ literal) ih
  | facts next ih => exact ih scene.facts
  | region id next ih =>
      refine .bind ?_ ih
      unfold Scene.region
      split
      · exact .pure _
      · exact .throw _
  | ask query next ih => exact .bind (h.ask query) ih
  | perform effect next ih => exact .bind (h.perform node.id effect) fun _ => ih
  | roll low high next ih => exact .bind (h.roll low high) ih

/-- By induction on the levels that may still be entered. -/
theorem evaluateWithin_tracks (h : Simulates R) (scene : Scene) (limit levels : Nat) :
    ∀ id, Tracks R (scene.evaluateWithin limit levels id : Evaluation σ ρ Value).runOn
      (scene.evaluateWithin limit levels id : Evaluation τ υ Value).runOn := by
  induction levels with
  | zero =>
      intro id
      unfold evaluateWithin
      split
      · exact .throw _
      · split
        · exact .throw _
        · exact .throw _
  | succ levels ih =>
      intro id
      unfold evaluateWithin
      split
      · exact .throw _
      · split
        · exact .throw _
        · refine .bind (serve_tracks h ih _) fun value => ?_
          split
          · exact .pure value
          · exact .bind (.throw _) fun _ => .pure value

/-- **Evaluating a node** comes to the same on both hosts. -/
theorem evaluate_tracks (h : Simulates R) (scene : Scene) (limit : Nat) (id : NodeId) :
    Tracks R (scene.evaluate limit id : Evaluation σ ρ Value).runOn
      (scene.evaluate limit id : Evaluation τ υ Value).runOn :=
  evaluateWithin_tracks h scene limit limit id

theorem evaluateBool_tracks (h : Simulates R) (scene : Scene) (limit : Nat) (id : NodeId) :
    Tracks R (scene.evaluateBool limit id : Evaluation σ ρ Bool).runOn
      (scene.evaluateBool limit id : Evaluation τ υ Bool).runOn := by
  have has : Tracks R (scene.evaluateAs limit .bool id : Evaluation σ ρ Value).runOn
      (scene.evaluateAs limit .bool id : Evaluation τ υ Value).runOn := by
    unfold evaluateAs
    split
    · exact .throw _
    · split
      · exact evaluate_tracks h scene limit id
      · exact .bind (.throw _) fun _ => evaluate_tracks h scene limit id
  refine .bind has fun value => ?_
  cases value with
  | bool value => exact .pure value
  | _ => exact .throw _

/-! ## Handling an occurrence -/

/-- What the trigger holds comes to the same on both hosts. -/
structure Tracked (R : Host σ ρ → Host τ υ → Prop) (scene : Scene) (limit : Nat)
    (trigger : Trigger) : Prop where
  /-- An event may have a region in its slot, which is evaluated. -/
  events : ∀ event ∈ trigger.events, ∀ node, scene.scenario.forest.get? event = some node →
    Tracks R (scene.inspect limit node (Script.regionArg regionParam)).runOn
      (scene.inspect limit node (Script.regionArg regionParam)).runOn
  conditions : ∀ condition ∈ trigger.conditions,
    Tracks R (scene.evaluateBool limit condition).runOn (scene.evaluateBool limit condition).runOn
  actions : ∀ action ∈ trigger.actions,
    Tracks R (scene.evaluate limit action).runOn (scene.evaluate limit action).runOn

/-- On hosts that cannot be told apart, whatever triggers hold comes to the same. -/
theorem Tracked.of_simulates (h : Simulates R) (scene : Scene) (limit : Nat) (trigger : Trigger) :
    Tracked R scene limit trigger :=
  ⟨fun _ _ _ _ => serve_tracks h (evaluate_tracks h scene limit) _,
    fun _ _ => evaluateBool_tracks h scene limit _, fun _ _ => evaluate_tracks h scene limit _⟩

theorem hears_tracks {event : NodeId}
    (h : ∀ node, scene.scenario.forest.get? event = some node →
      Tracks R (scene.inspect limit node (Script.regionArg regionParam)).runOn
        (scene.inspect limit node (Script.regionArg regionParam)).runOn) :
    Tracks R (scene.hears limit event) (scene.hears limit event) := by
  intro host other hrelated
  unfold hears
  cases hn : scene.scenario.forest.get? event with
  | none => exact ⟨_, host, other, rfl, rfl, hrelated⟩
  | some node =>
      obtain ⟨result, after, after', hrun, htwin, hafter⟩ := h node hn host other hrelated
      -- where the slot is not looked at, nothing is done at all
      dsimp only
      rw [hrun, htwin]
      cases scene.registry.get? node.variant with
      | none => exact ⟨_, host, other, rfl, rfl, hrelated⟩
      | some variant =>
          dsimp only
          split
          · split
            · cases result with
              | ok named => exact ⟨_, after, after', rfl, rfl, hafter⟩
              | error error => exact ⟨_, after, after', rfl, rfl, hafter⟩
            · exact ⟨_, host, other, rfl, rfl, hrelated⟩
          · exact ⟨_, host, other, rfl, rfl, hrelated⟩

theorem hearsAny_tracks {events : List NodeId} :
    (∀ event ∈ events, ∀ node, scene.scenario.forest.get? event = some node →
      Tracks R (scene.inspect limit node (Script.regionArg regionParam)).runOn
        (scene.inspect limit node (Script.regionArg regionParam)).runOn) →
    Tracks R (scene.hearsAny limit events) (scene.hearsAny limit events) := by
  induction events with
  | nil => exact fun _ => .stay false
  | cons event rest ih =>
      intro h host other hrelated
      obtain ⟨hfirst, hrest⟩ := List.forall_mem_cons.mp h
      obtain ⟨heard, after, after', hrun, htwin, hafter⟩ := hears_tracks hfirst host other hrelated
      rw [hearsAny, hearsAny, hrun, htwin]
      cases heard with
      | true => exact ⟨true, after, after', rfl, rfl, hafter⟩
      | false => exact ih hrest after after' hafter

theorem checkConditions_tracks {conditions : List NodeId} :
    (∀ condition ∈ conditions, Tracks R (scene.evaluateBool limit condition).runOn
      (scene.evaluateBool limit condition).runOn) →
    Tracks R (scene.checkConditions limit conditions)
      (scene.checkConditions limit conditions) := by
  induction conditions with
  | nil => exact fun _ => .stay (Status.done, 0)
  | cons condition rest ih =>
      intro h host other hrelated
      obtain ⟨hfirst, hrest⟩ := List.forall_mem_cons.mp h
      obtain ⟨verdict, after, after', hrun, htwin, hafter⟩ := hfirst host other hrelated
      rw [checkConditions, checkConditions, hrun, htwin]
      -- both see the same verdict, so both stop or both go on
      cases verdict with
      | error error => exact ⟨_, after, after', rfl, rfl, hafter⟩
      | ok holds =>
          cases holds with
          | false => exact ⟨_, after, after', rfl, rfl, hafter⟩
          | true =>
              obtain ⟨⟨status, checked⟩, final, final', hrun, htwin, hfinal⟩ :=
                ih hrest after after' hafter
              dsimp only
              rw [hrun, htwin]
              exact ⟨_, final, final', rfl, rfl, hfinal⟩

theorem runActions_tracks {actions : List NodeId} :
    (∀ action ∈ actions, Tracks R (scene.evaluate limit action).runOn
      (scene.evaluate limit action).runOn) →
    Tracks R (scene.runActions limit actions) (scene.runActions limit actions) := by
  induction actions with
  | nil => exact fun _ => .stay (0, [])
  | cons action rest ih =>
      intro h host other hrelated
      obtain ⟨hfirst, hrest⟩ := List.forall_mem_cons.mp h
      obtain ⟨result, after, after', hrun, htwin, hafter⟩ := hfirst host other hrelated
      obtain ⟨⟨executed, failures⟩, final, final', hrun', htwin', hfinal⟩ :=
        ih hrest after after' hafter
      rw [runActions, runActions, hrun, htwin]
      cases result with
      | ok value =>
          dsimp only
          rw [hrun', htwin']
          exact ⟨_, final, final', rfl, rfl, hfinal⟩
      | error error =>
          dsimp only
          rw [hrun', htwin']
          exact ⟨_, final, final', rfl, rfl, hfinal⟩

theorem runTrigger_tracks {trigger : Trigger} (h : Tracked R scene limit trigger) :
    Tracks R (scene.runTrigger limit trigger) (scene.runTrigger limit trigger) := by
  intro host other hrelated
  obtain ⟨⟨status, checked⟩, after, after', hrun, htwin, hafter⟩ :=
    checkConditions_tracks h.conditions host other hrelated
  rw [runTrigger, runTrigger, hrun, htwin]
  cases status with
  | done =>
      obtain ⟨⟨executed, failures⟩, final, final', hrun', htwin', hfinal⟩ :=
        runActions_tracks h.actions after after' hafter
      dsimp only
      rw [hrun', htwin']
      exact ⟨_, final, final', rfl, rfl, hfinal⟩
  | failed => exact ⟨_, after, after', rfl, rfl, hafter⟩
  | errored error => exact ⟨_, after, after', rfl, rfl, hafter⟩

/-- **Triggers come to the same** on both hosts if all that they hold does. -/
theorem runTriggers_tracks {triggers : List Trigger} :
    (∀ trigger ∈ triggers, Tracked R scene limit trigger) →
    Tracks R (scene.runTriggers limit triggers) (scene.runTriggers limit triggers) := by
  induction triggers with
  | nil => exact fun _ => .stay []
  | cons trigger rest ih =>
      intro h host other hrelated
      obtain ⟨hfirst, hrest⟩ := List.forall_mem_cons.mp h
      rw [runTriggers, runTriggers]
      by_cases henabled : trigger.enabled
      · rw [if_pos henabled, if_pos henabled]
        obtain ⟨heard, after, after', hrun, htwin, hafter⟩ :=
          hearsAny_tracks hfirst.events host other hrelated
        rw [hrun, htwin]
        -- the hosts are related after the asking, and again after the run
        cases heard with
        | false => exact ih hrest after after' hafter
        | true =>
            obtain ⟨outcome, between, between', hrun, htwin, hbetween⟩ :=
              runTrigger_tracks hfirst after after' hafter
            obtain ⟨outcomes, final, final', hrun', htwin', hfinal⟩ :=
              ih hrest between between' hbetween
            dsimp only
            rw [hrun, htwin]
            dsimp only
            rw [hrun', htwin']
            exact ⟨_, final, final', rfl, rfl, hfinal⟩
      · rw [if_neg henabled, if_neg henabled]
        exact ih hrest host other hrelated

end Scene

/-- **Handling an occurrence** comes to the same on hosts that cannot be told apart. -/
theorem dispatch_tracks {σ ρ τ υ : Type} [Services σ] [RandomSource ρ] [Services τ]
    [RandomSource υ] {R : Host σ ρ → Host τ υ → Prop} (h : Simulates R) (registry : Registry)
    (limit : Nat) (scenario : Option Scenario) (occurrence : Occurrence) :
    Tracks R (dispatch registry limit scenario occurrence)
      (dispatch registry limit scenario occurrence) := by
  intro host other hrelated
  cases scenario with
  | none => exact ⟨_, host, other, rfl, rfl, hrelated⟩
  | some scenario =>
      obtain ⟨outcomes, after, after', hrun, htwin, hafter⟩ :=
        Scene.runTriggers_tracks (fun trigger _ => .of_simulates h
          ⟨registry, scenario, .ofOccurrence occurrence⟩ limit trigger) host other hrelated
      rw [dispatch, dispatch, hrun, htwin]
      exact ⟨_, after, after', rfl, rfl, hafter⟩

end Rulebook
