import Rulebook.Proofs.Evaluation.Depth
import Rulebook.Proofs.Evaluation.Order
import Rulebook.Proofs.Observation

/-!
# Several conditions, or one that says that all of them hold

The conditions of a trigger are checked by a loop that stops at the first that does
not hold. The connective `And` does the same with its two operands, so a list of
conditions may as well be written as one condition: the first of them, and the
second, and so on. The trigger then ends in the same way and leaves the same state
behind, for the conditions that the loop leaves out are those that no operand leads
to.

The one difference is how deep a condition lies. A connective takes a level for
itself, so the limit must be far enough away for the last of the conditions still
to be reached.
-/

namespace Rulebook

open Attempt
open Forest (Linked Shows SamePlace Twins)
open Scene (Akin)

/-! ## Conjunctions as trees and as nodes -/

/-- The tree of a condition that says that all of several hold, which are at least one. -/
def NodeTree.conjunction : NodeTree → List NodeTree → NodeTree
  | first, [] => first
  | first, next :: rest => ⟨"And", none, [("left", first), ("right", conjunction next rest)]⟩

namespace Forest

/-- The node says that all of several others hold: it is the only one of them, or it holds the
first of them and a node that says so of the rest. -/
inductive Joins (forest : Forest) : NodeId → List NodeId → Prop where
  | one (id : NodeId) : Joins forest id [id]
  | both {root first inner : NodeId} {rest : List NodeId} {node : Node} :
      forest.get? root = some node → node.variant = "And" →
      node.argument? "left" = some first → node.argument? "right" = some inner →
      Joins forest inner rest → Joins forest root (first :: rest)

variable {forest : Forest}

/-- A node that shows a conjunction joins nodes that show the conditions. -/
theorem Shows.joins (hf : Linked forest) (rest : List NodeTree) :
    ∀ {first : NodeTree} {root : NodeId}, Shows forest root (.conjunction first rest) →
      ∃ ids, Joins forest root ids ∧
        List.Forall₂ (fun tree id => Shows forest id tree) (first :: rest) ids := by
  induction rest with
  | nil =>
      intro first root h
      exact ⟨[root], .one root, .cons h .nil⟩
  | cons next rest ih =>
      intro first root h
      obtain ⟨node, hn⟩ := h.exists_node
      obtain ⟨hvariant, _⟩ := Prod.mk.inj (h.top hn)
      have hslots : (NodeTree.conjunction first (next :: rest)).arguments.lookup "left"
            = some first ∧
          (NodeTree.conjunction first (next :: rest)).arguments.lookup "right"
            = some (.conjunction next rest) := ⟨rfl, rfl⟩
      obtain ⟨left, hleft, hfirst⟩ := (h.lookup hf hn).mp hslots.1
      obtain ⟨right, hright, hinner⟩ := (h.lookup hf hn).mp hslots.2
      obtain ⟨ids, hjoins, hshows⟩ := ih hinner
      exact ⟨left :: ids, .both hn hvariant.symm hleft hright hjoins, .cons hfirst hshows⟩

end Forest

/-! ## The loop and the connective -/

/-- How a trigger goes on after its conditions have come to a value, as one condition would. -/
def Status.ofVerdict : Except EvalError Value → Status
  | .ok (.bool true) => .done
  | .ok _ => .failed
  | .error error => .errored error

namespace Scene

variable {σ ρ : Type} [Services σ] [RandomSource ρ] {scene : Scene} {limit levels : Nat}
  {root id : NodeId} {ids : List NodeId} {node : Node} {host after : Host σ ρ}

/-- A condition that comes to a boolean holds or does not. -/
theorem evaluateBool_of_ok (hn : scene.scenario.forest.get? id = some node)
    (ht : node.result = .bool) {holds : Bool}
    (hrun : (scene.evaluate limit id).runOn host = (.ok (.bool holds), after)) :
    (scene.evaluateBool limit id).runOn host = (.ok holds, after) := by
  unfold evaluateBool evaluateAs
  rw [hn]
  simp only [ht, if_true]
  rw [runOn_bind, hrun]
  rfl

/-- A condition that fails does so for the reason for which its node does. -/
theorem evaluateBool_of_error (hn : scene.scenario.forest.get? id = some node)
    (ht : node.result = .bool) {error : EvalError}
    (hrun : (scene.evaluate limit id).runOn host = (.error error, after)) :
    (scene.evaluateBool limit id).runOn host = (.error error, after) := by
  unfold evaluateBool evaluateAs
  rw [hn]
  simp only [ht, if_true]
  rw [runOn_bind, hrun]

namespace WellTyped

/-- What comes out of a node that yields a boolean is one. -/
theorem exists_bool (h : scene.WellTyped) (hn : scene.scenario.forest.get? id = some node)
    (ht : node.result = .bool) {value : Value}
    (hrun : (scene.evaluateWithin limit levels id).runOn host = (.ok value, after)) :
    ∃ holds, value = .bool holds := by
  have hends := h.evaluateWithin_ends limit levels hn host
  rw [hrun, ht] at hends
  cases value with
  | bool holds => exact ⟨holds, rfl⟩
  | _ => exact absurd hends (by simp [Check.Ends, Value.type])

/-- The operands of a conjunction yield booleans. -/
theorem bool_of_operand (h : scene.WellTyped) (hb : scene.registry = .builtin)
    (hn : scene.scenario.forest.get? root = some node) (hand : node.variant = "And")
    {param : String} (ha : node.argument? param = some id) :
    ∃ inner, scene.scenario.forest.get? id = some inner ∧ inner.result = .bool := by
  have hv := Builtin.get?_and
  rw [← hb, ← hand] at hv
  obtain ⟨slot, inner, hslot, hi, hresult⟩ := h.conforms.slots hn hv (Node.mem_of_argument? ha)
  have hbool : ∀ slot ∈ [Builtin.operand "left", Builtin.operand "right"], slot.type = .bool := by
    decide
  exact ⟨inner, hi, hresult.trans (hbool slot (Variant.mem_of_param? hslot).1)⟩

/-- A single condition ends the check as its node does. -/
theorem checkConditions_singleton (h : scene.WellTyped)
    (hn : scene.scenario.forest.get? id = some node) (ht : node.result = .bool)
    {result : Except EvalError Value}
    (hrun : (scene.evaluate limit id).runOn host = (result, after)) :
    (scene.checkConditions limit [id] host).1.1 = .ofVerdict result ∧
      (scene.checkConditions limit [id] host).2 = after := by
  cases result with
  | error error =>
      rw [checkConditions, evaluateBool_of_error hn ht hrun]
      exact ⟨rfl, rfl⟩
  | ok value =>
      obtain ⟨holds, rfl⟩ := h.exists_bool hn ht hrun
      rw [checkConditions, evaluateBool_of_ok hn ht hrun]
      cases holds with
      | true => exact ⟨rfl, rfl⟩
      | false => exact ⟨rfl, rfl⟩

/-- **The loop ends as the connective does**, unless that is cut off. What a condition comes to
with the levels that the connectives around it have left is what it comes to with all of them. -/
theorem checkConditions_joins (h : scene.WellTyped) (hb : scene.registry = .builtin)
    (hj : scene.scenario.forest.Joins root ids) :
    ∀ {node : Node}, scene.scenario.forest.get? root = some node → node.result = .bool →
    ∀ {levels : Nat}, levels ≤ limit → ∀ {host after : Host σ ρ} {result : Except EvalError Value},
      (scene.evaluateWithin limit levels root).runOn host = (result, after) →
      (∀ error, error.IsCutOff → result ≠ .error error) →
      (scene.checkConditions limit ids host).1.1 = .ofVerdict result ∧
        (scene.checkConditions limit ids host).2 = after := by
  induction hj with
  | one id =>
      intro node hn ht levels hle host after result hrun huncut
      have hall := evaluateWithin_continues scene limit limit hle id host (by rwa [hrun])
      exact h.checkConditions_singleton hn ht (hall.trans hrun)
  | @both root first inner rest own hroot hand hleft hright _ ih =>
      intro node hn ht levels hle host after result hrun huncut
      obtain ⟨left, hl, htleft⟩ := h.bool_of_operand hb hroot hand hleft
      obtain ⟨right, hr, htright⟩ := h.bool_of_operand hb hroot hand hright
      have hv := Builtin.get?_and
      rw [← hb, ← hand] at hv
      cases levels with
      | zero =>
          -- no level is left for the connective itself
          rw [evaluateWithin, hroot] at hrun
          simp only [hv] at hrun
          cases hrun
          exact absurd rfl (huncut _ (.depth limit))
      | succ levels =>
          rw [h.evaluateWithin_connect hb hroot hv rfl Builtin.both_follows, connect] at hrun
          have hsupply : supply (scene.evaluateWithin limit levels) own (Builtin.operand "left")
              host = (scene.evaluateWithin limit levels first).runOn host := by
            rw [supply, show own.argument? (Builtin.operand "left").name = some first from hleft]
          rw [hsupply] at hrun
          cases hfirst : (scene.evaluateWithin limit levels first).runOn host with
          | mk verdict later =>
              rw [hfirst] at hrun
              have hlift := evaluateWithin_continues scene limit limit
                (show levels ≤ limit by omega) first host
              rw [hfirst] at hlift
              cases verdict with
              | error error =>
                  cases hrun
                  rw [checkConditions, evaluateBool_of_error hl htleft (hlift huncut)]
                  exact ⟨rfl, rfl⟩
              | ok value =>
                  obtain ⟨holds, rfl⟩ := h.exists_bool hl htleft hfirst
                  have hall := hlift fun _ _ he => by cases he
                  rw [checkConditions, evaluateBool_of_ok hl htleft hall]
                  cases holds with
                  | false =>
                      cases hrun
                      exact ⟨rfl, rfl⟩
                  | true =>
                      rw [goOn, if_pos rfl, supply,
                        show own.argument? (Builtin.operand "right").name = some inner from hright]
                        at hrun
                      -- the second operand joins the rest, with one level less
                      exact ih hr htright (by omega) hrun huncut

end WellTyped

end Scene

/-- A list of conditions takes booleans only. -/
theorem Scenario.Conforms.bool_of_condition {registry : Registry} {scenario : Scenario}
    (h : Scenario.Conforms registry scenario) {trigger : Trigger} {id : NodeId}
    (ht : trigger ∈ scenario.triggers) (hid : id ∈ trigger.conditions) :
    ∃ node, scenario.forest.get? id = some node ∧ node.result = .bool := by
  obtain ⟨node, hn, ha⟩ := h.accepted ht .conditions hid
  simp only [Clause.accepts, Bool.and_eq_true, beq_iff_eq] at ha
  exact ⟨node, hn, ha.1.1⟩

/-! ## Triggers -/

/-- The outcomes are the same, but for the numbers of nodes and triggers and for how many conditions
were counted. -/
structure Outcome.EndsAlike (R : NodeId → NodeId → Prop) (outcome twin : Outcome) : Prop where
  status : outcome.status.Alike R twin.status
  actionsExecuted : outcome.actionsExecuted = twin.actionsExecuted
  failures : List.Forall₂ (fun failure other => R failure.node other.node ∧
    failure.error.Alike R other.error) outcome.failures twin.failures

/-- The twin has a single condition, which says that all the conditions of the trigger hold. What
else stands on the lists shows the same trees, in the same order. -/
structure Trigger.Condensed (f g : Forest) (trigger twin : Trigger) : Prop where
  enabled : trigger.enabled = twin.enabled
  events : List.Forall₂ (fun a b => f.snapshot a = g.snapshot b) trigger.events twin.events
  conditions : ∃ first rest root,
    trigger.conditions.map f.snapshot = (first :: rest).map some ∧ twin.conditions = [root] ∧
      g.snapshot root = some (.conjunction first rest)
  actions : List.Forall₂ (fun a b => f.snapshot a = g.snapshot b) trigger.actions twin.actions

/-- The nodes stand in the same place below roots that go together, where the conditions of the twin
are taken to be those given. -/
def Trigger.Corresponding (f g : Forest) (trigger twin : Trigger) (conditions : List NodeId)
    (x y : NodeId) : Prop :=
  ∃ roots ∈ trigger.conditions.zip conditions ++ trigger.actions.zip twin.actions,
    Forest.SamePlace f g roots.1 roots.2 x y

/-- The outcomes are those of two triggers that stand in the same place. If the triggers look alike
the outcomes do, and if the one is condensed they end alike, where its conditions are those that the
single one joins. -/
def Outcome.Counterparts (s t : Scenario) (outcome twin : Outcome) : Prop :=
  ∃ triggers ∈ s.triggers.zip t.triggers, outcome.trigger = triggers.1.id ∧
    twin.trigger = triggers.2.id ∧
    (triggers.1.Alike s.forest t.forest triggers.2 →
      outcome.Alike (triggers.1.SamePlace s.forest t.forest triggers.2) twin) ∧
    (triggers.1.Condensed s.forest t.forest triggers.2 → ∃ root ids,
      triggers.2.conditions = [root] ∧ t.forest.Joins root ids ∧
        List.Forall₂ (fun a b => s.forest.snapshot a = t.forest.snapshot b)
          triggers.1.conditions ids ∧
        outcome.EndsAlike (triggers.1.Corresponding s.forest t.forest triggers.2 ids) twin)

/-- No condition was cut off. -/
def Status.Uncut (status : Status) : Prop := ∀ error, status = .errored error → ¬ error.IsCutOff

/-- What shows the trees of a list stands for what showed them first. -/
theorem forall₂_of_map {α β γ : Type} {f : α → Option γ} {g : β → Option γ} {as : List α}
    {bs : List β} {cs : List γ} (h : as.map f = cs.map some)
    (hall : List.Forall₂ (fun c b => g b = some c) cs bs) :
    List.Forall₂ (fun a b => f a = g b) as bs := by
  induction hall generalizing as with
  | nil =>
      cases List.map_eq_nil_iff.mp h
      exact .nil
  | cons hb _ ih =>
      obtain ⟨a, rest, rfl, ha, hrest⟩ := List.map_eq_cons_iff.mp h
      exact .cons (ha.trans hb.symm) (ih hrest)

namespace Scene

variable {σ ρ : Type} [Services σ] [RandomSource ρ] {scene : Scene} {limit : Nat}
  {trigger : Trigger}

/-- A trigger ends as its conditions do. -/
theorem runTrigger_status (scene : Scene) (limit : Nat) (trigger : Trigger) (host : Host σ ρ) :
    (scene.runTrigger limit trigger host).1.status
      = (scene.checkConditions limit trigger.conditions host).1.1 := by
  unfold runTrigger
  split <;> rename_i hchecks <;> rw [hchecks]

/-- A trigger that the occurrence concerns is run before those that come after it. -/
theorem runTriggers_heard {rest : List Trigger} {host after : Host σ ρ}
    (hon : trigger.enabled = true)
    (hheard : scene.hearsAny limit trigger.events host = (true, after)) :
    scene.runTriggers limit (trigger :: rest) host
      = ((scene.runTrigger limit trigger after).1
          :: (scene.runTriggers limit rest (scene.runTrigger limit trigger after).2).1,
        (scene.runTriggers limit rest (scene.runTrigger limit trigger after).2).2) := by
  rw [runTriggers, if_pos hon, hheard]

end Scene

namespace Scene.Akin

variable {σ ρ : Type} [Services σ] [RandomSource ρ] {scene twin : Scene} {limit : Nat}
  {R : NodeId → NodeId → Prop} {trigger other : Trigger}

/-- Triggers whose conditions end alike, in the same state, end alike. -/
theorem runTrigger_endsAlike (h : Akin scene twin) (limit : Nat) {host : Host σ ρ}
    (hstatus : (scene.checkConditions limit trigger.conditions host).1.1.Alike R
      (twin.checkConditions limit other.conditions host).1.1)
    (hsame : (scene.checkConditions limit trigger.conditions host).2
      = (twin.checkConditions limit other.conditions host).2)
    (ha : List.Forall₂ (Matched scene twin R) trigger.actions other.actions) :
    (scene.runTrigger limit trigger host).1.EndsAlike R (twin.runTrigger limit other host).1 ∧
      (scene.runTrigger limit trigger host).2 = (twin.runTrigger limit other host).2 := by
  unfold runTrigger
  cases hr : scene.checkConditions limit trigger.conditions host with
  | mk checked after =>
      obtain ⟨status, count⟩ := checked
      cases hr' : twin.checkConditions limit other.conditions host with
      | mk checked' after' =>
          obtain ⟨status', count'⟩ := checked'
          rw [hr, hr'] at hstatus hsame
          simp only at hstatus hsame
          subst hsame
          -- only a check that was passed leaves actions to compare
          cases hstatus with
          | done =>
              obtain ⟨hn, hf, hh⟩ := h.runActions_alike limit ha after
              exact ⟨⟨.done, hn, hf⟩, hh⟩
          | failed => exact ⟨⟨.failed, rfl, .nil⟩, rfl⟩
          | errored he => exact ⟨⟨.errored he, rfl, .nil⟩, rfl⟩

/-- **A trigger ends like the one that was condensed from it**, unless that is cut off. -/
theorem runTrigger_condensed (h : Akin scene twin) (hw : twin.WellTyped)
    (hb : twin.registry = .builtin) (hs : Scenario.Owned scene.scenario)
    (ht : Scenario.Owned twin.scenario) (hc : Scenario.Conforms twin.registry twin.scenario)
    (hm : trigger ∈ scene.scenario.triggers) (hm' : other ∈ twin.scenario.triggers)
    (hcond : trigger.Condensed scene.scenario.forest twin.scenario.forest other)
    {host : Host σ ρ} (huncut : (twin.runTrigger limit other host).1.status.Uncut) :
    (∃ root ids, other.conditions = [root] ∧ twin.scenario.forest.Joins root ids ∧
      List.Forall₂ (fun a b =>
        scene.scenario.forest.snapshot a = twin.scenario.forest.snapshot b)
        trigger.conditions ids ∧
      (scene.runTrigger limit trigger host).1.EndsAlike
        (trigger.Corresponding scene.scenario.forest twin.scenario.forest other ids)
        (twin.runTrigger limit other host).1) ∧
      (scene.runTrigger limit trigger host).2 = (twin.runTrigger limit other host).2 := by
  obtain ⟨first, rest, root, htrees, hsingle, hroot⟩ := hcond.conditions
  obtain ⟨ids, hjoins, hshows⟩ := (ht.linked.snapshot_iff.mp hroot).joins ht.linked rest
  have hsnap : List.Forall₂ (fun a b =>
      scene.scenario.forest.snapshot a = twin.scenario.forest.snapshot b)
      (trigger.roots .conditions) ids :=
    forall₂_of_map htrees (hshows.imp fun _ _ hx => ht.linked.snapshot_iff.mpr hx)
  have hconditions : List.Forall₂ (Matched scene twin
      (trigger.Corresponding scene.scenario.forest twin.scenario.forest other ids))
      (trigger.roots .conditions) ids :=
    matched_of_snapshot hs ht hm hsnap fun roots hr _ _ hp =>
      ⟨roots, List.mem_append_left _ hr, hp⟩
  have hactions : List.Forall₂ (Matched scene twin
      (trigger.Corresponding scene.scenario.forest twin.scenario.forest other ids))
      (trigger.roots .actions) other.actions :=
    matched_of_snapshot hs ht hm hcond.actions fun roots hr _ _ hp =>
      ⟨roots, List.mem_append_right _ hr, hp⟩
  obtain ⟨node, hn, hbool⟩ := hc.bool_of_condition hm' (hsingle ▸ List.mem_cons_self)
  cases hrun : (twin.evaluate limit root).runOn host with
  | mk result after =>
      obtain ⟨hstatus, hafter⟩ := hw.checkConditions_singleton hn hbool hrun
      rw [runTrigger_status, hsingle, hstatus] at huncut
      -- the status tells that the single condition was not cut off, so the loop ends as it does
      have hreached : ∀ error, error.IsCutOff → result ≠ .error error := by
        rintro error hcut rfl
        exact huncut error rfl hcut
      obtain ⟨hstatus', hafter'⟩ :=
        hw.checkConditions_joins hb hjoins hn hbool (Nat.le_refl limit) hrun hreached
      obtain ⟨hchecks, _, hsame⟩ := h.checkConditions_alike limit hconditions host
      rw [hstatus', ← hstatus, ← hsingle] at hchecks
      rw [hafter', ← hafter, ← hsingle] at hsame
      obtain ⟨hends, hhost⟩ := h.runTrigger_endsAlike limit hchecks hsame hactions
      exact ⟨⟨root, ids, hsingle, hjoins, hsnap, hends⟩, hhost⟩

/-- **A trigger and its counterpart** look alike or one is condensed; so do they come out. -/
theorem runTrigger_counterparts (h : Akin scene twin) (hw : twin.WellTyped)
    (hb : twin.registry = .builtin) (hs : Scenario.Owned scene.scenario)
    (ht : Scenario.Owned twin.scenario) (hc : Scenario.Conforms twin.registry twin.scenario)
    (hzip : (trigger, other) ∈ scene.scenario.triggers.zip twin.scenario.triggers)
    (hkind : trigger.Alike scene.scenario.forest twin.scenario.forest other ∨
      trigger.Condensed scene.scenario.forest twin.scenario.forest other)
    {host : Host σ ρ} (huncut : (twin.runTrigger limit other host).1.status.Uncut) :
    Outcome.Counterparts scene.scenario twin.scenario
        (scene.runTrigger limit trigger host).1 (twin.runTrigger limit other host).1 ∧
      (scene.runTrigger limit trigger host).2 = (twin.runTrigger limit other host).2 := by
  obtain ⟨hm, hm'⟩ := List.of_mem_zip hzip
  have halike := fun ha : trigger.Alike _ _ other =>
    h.runTrigger_alike limit (matched_roots hs ht hm ha .conditions)
      (matched_roots hs ht hm ha .actions) host
  have hcondensed := fun hcond : trigger.Condensed _ _ other =>
    h.runTrigger_condensed hw hb hs ht hc hm hm' hcond huncut
  refine ⟨⟨_, hzip, (scene.runTrigger_runs limit trigger host).accounts.named,
    (twin.runTrigger_runs limit other host).accounts.named, fun ha => (halike ha).1,
    fun hcond => (hcondensed hcond).1⟩, ?_⟩
  rcases hkind with ha | hcond
  · exact (halike ha).2
  · exact (hcondensed hcond).2

/-- **Triggers that look alike or are condensed come to the same**, one after the other. -/
theorem runTriggers_counterparts (h : Akin scene twin) (hw : twin.WellTyped)
    (hb : twin.registry = .builtin) (hs : Scenario.Owned scene.scenario)
    (ht : Scenario.Owned twin.scenario) (hc : Scenario.Conforms twin.registry twin.scenario)
    {triggers others : List Trigger}
    (hall : List.Forall₂ (fun trigger other =>
      (trigger, other) ∈ scene.scenario.triggers.zip twin.scenario.triggers ∧
        (trigger.Alike scene.scenario.forest twin.scenario.forest other ∨
          trigger.Condensed scene.scenario.forest twin.scenario.forest other)) triggers others) :
    ∀ host : Host σ ρ,
      (∀ outcome ∈ (twin.runTriggers limit others host).1, outcome.status.Uncut) →
      List.Forall₂ (Outcome.Counterparts scene.scenario twin.scenario)
          (scene.runTriggers limit triggers host).1 (twin.runTriggers limit others host).1 ∧
        (scene.runTriggers limit triggers host).2 = (twin.runTriggers limit others host).2 := by
  induction hall with
  | nil => exact fun _ _ => ⟨.nil, rfl⟩
  | @cons trigger other rest others hfirst _ ih =>
      obtain ⟨hzip, hkind⟩ := hfirst
      intro host huncut
      have hm := (List.of_mem_zip hzip).1
      have henabled : trigger.enabled = other.enabled := hkind.elim (·.enabled) (·.enabled)
      have hevents : List.Forall₂ (Matched scene twin fun _ _ => True)
          (trigger.roots .events) other.events :=
        matched_of_snapshot hs ht hm (hkind.elim (fun ha => ha.roots .events) (·.events))
          fun _ _ _ _ _ => trivial
      -- the events look alike in either case, so both triggers are concerned or neither is
      have hheard : scene.hearsAny limit trigger.events host
          = twin.hearsAny limit other.events host :=
        h.hearsAny_eq (hevents.imp fun _ _ hmatched => hmatched.twins) host
      cases hon : other.enabled with
      | false =>
          rw [runTriggers, hon] at huncut
          rw [runTriggers, runTriggers, henabled, hon]
          exact ih host huncut
      | true =>
          cases hr : twin.hearsAny limit other.events host with
          | mk heard after =>
              cases heard with
              | false =>
                  rw [runTriggers, hon, hr] at huncut
                  rw [runTriggers, runTriggers, henabled, hon, hheard, hr]
                  exact ih after huncut
              | true =>
                  rw [runTriggers_heard hon hr] at huncut ⊢
                  rw [runTriggers_heard (henabled.trans hon) (hheard.trans hr)]
                  obtain ⟨hfirst, hrest⟩ := List.forall_mem_cons.mp huncut
                  obtain ⟨hout, hsame⟩ :=
                    h.runTrigger_counterparts hw hb hs ht hc hzip hkind hfirst
                  rw [← hsame] at hrest ⊢
                  obtain ⟨houts, hh⟩ := ih _ hrest
                  exact ⟨.cons hout houts, hh⟩

end Scene.Akin

namespace Scene

variable {σ ρ : Type} [Services σ] [RandomSource ρ] {scene : Scene} {limit : Nat} {id : NodeId}

/-! ## Levels enough for the conditions -/

theorem evaluateBool_uncut (h : Uncut (scene.evaluate limit id : Evaluation σ ρ Value)) :
    Uncut (scene.evaluateBool limit id : Evaluation σ ρ Bool) := by
  refine .bind ?_ fun value => ?_
  · unfold evaluateAs
    split
    · exact .throw (by rintro ⟨⟩)
    · split
      · exact h
      · exact .bind (.throw (by rintro ⟨⟩)) fun _ => h
  · cases value with
    | bool value => exact .pure value
    | _ => exact .throw (by rintro ⟨⟩)

theorem checkConditions_uncut {conditions : List NodeId}
    (h : ∀ id ∈ conditions, Uncut (scene.evaluate limit id : Evaluation σ ρ Value)) :
    ∀ host : Host σ ρ, (scene.checkConditions limit conditions host).1.1.Uncut := by
  induction conditions with
  | nil =>
      rintro host error ⟨⟩
  | cons id rest ih =>
      obtain ⟨hfirst, hrest⟩ := List.forall_mem_cons.mp h
      intro host
      have hends := evaluateBool_uncut hfirst host
      rw [checkConditions]
      cases hr : (scene.evaluateBool limit id).runOn host with
      | mk verdict after =>
          rw [hr] at hends
          cases verdict with
          | error error =>
              rintro _ ⟨⟩
              exact hends
          | ok holds =>
              cases holds with
              | false => rintro _ ⟨⟩
              | true => exact ih hrest after

/-- No trigger is cut off if none of its conditions is. -/
theorem runTriggers_uncut {triggers : List Trigger}
    (h : ∀ trigger ∈ triggers, ∀ id ∈ trigger.conditions,
      Uncut (scene.evaluate limit id : Evaluation σ ρ Value)) :
    ∀ host : Host σ ρ, ∀ outcome ∈ (scene.runTriggers limit triggers host).1,
      outcome.status.Uncut := by
  induction triggers with
  | nil => exact fun _ _ hout => absurd hout List.not_mem_nil
  | cons trigger rest ih =>
      obtain ⟨hfirst, hrest⟩ := List.forall_mem_cons.mp h
      intro host
      cases hon : trigger.enabled with
      | false =>
          rw [runTriggers, hon]
          exact ih hrest host
      | true =>
          cases hr : scene.hearsAny limit trigger.events host with
          | mk heard after =>
              cases heard with
              | false =>
                  rw [runTriggers, hon, hr]
                  exact ih hrest after
              | true =>
                  rw [runTriggers_heard hon hr]
                  refine List.forall_mem_cons.mpr ⟨?_, ih hrest _⟩
                  rw [runTrigger_status]
                  exact checkConditions_uncut hfirst after

end Scene

/-- The reports are those of triggers that look alike or were condensed. -/
structure Report.Counterparts (s t : Scenario) (report twin : Report) : Prop where
  kind : report.kind = twin.kind
  dropped : report.dropped = twin.dropped
  outcomes : List.Forall₂ (Outcome.Counterparts s t) report.outcomes twin.outcomes

namespace Scenario

variable {s t : Scenario}

/-- A script in which conditions were condensed does what it did before. -/
structure Condensation (registry : Registry) (s t : Scenario) : Prop where
  /-- If no condition of the condensed script is cut off, an occurrence is handled alike. -/
  dispatch : ∀ {σ ρ : Type} [Services σ] [RandomSource ρ] {limit : Nat} {occurrence : Occurrence}
    {host : Host σ ρ},
    (∀ outcome ∈ (Rulebook.dispatch registry limit (some t) occurrence host).1.outcomes,
      outcome.status.Uncut) →
    (Rulebook.dispatch registry limit (some s) occurrence host).1.Counterparts s t
        (Rulebook.dispatch registry limit (some t) occurrence host).1 ∧
      (Rulebook.dispatch registry limit (some s) occurrence host).2
        = (Rulebook.dispatch registry limit (some t) occurrence host).2
  /-- No condition is cut off under a limit as high as their trees are deep. -/
  enough : ∀ {σ ρ : Type} [Services σ] [RandomSource ρ] {limit : Nat},
    (∀ trigger ∈ t.triggers, ∀ id ∈ trigger.conditions, ∀ tree ∈ t.forest.snapshot id,
      tree.depth ≤ limit) →
    ∀ occurrence (host : Host σ ρ),
      ∀ outcome ∈ (Rulebook.dispatch registry limit (some t) occurrence host).1.outcomes,
        outcome.status.Uncut

theorem Reachable.condensation_of_builtin {registry : Registry} (hb : registry = .builtin)
    (hs : Reachable registry s) (ht : Reachable registry t)
    (hr : ∀ id, t.region? id = s.region? id)
    (hall : List.Forall₂ (fun trigger twin => trigger.Alike s.forest t.forest twin ∨
      trigger.Condensed s.forest t.forest twin) s.triggers t.triggers) :
    Condensation registry s t := by
  refine ⟨?dispatch, ?enough⟩
  case dispatch =>
    intro σ ρ _ _ limit occurrence host huncut
    have hakin : Akin ⟨registry, s, .ofOccurrence occurrence⟩
        ⟨registry, t, .ofOccurrence occurrence⟩ :=
      ⟨rfl, rfl, hr, hs.owned.linked, ht.owned.linked, hs.conforms.forest, ht.conforms.forest⟩
    have hwell : registry.WellTyped := hb ▸ Registry.builtin_wellTyped
    obtain ⟨hlen, hkinds⟩ := List.forall₂_iff_zip.mp hall
    rw [dispatch_some] at huncut
    rw [dispatch_some, dispatch_some]
    obtain ⟨houts, hh⟩ := hakin.runTriggers_counterparts (ht.wellTyped hwell _) hb hs.owned
      ht.owned ht.conforms
      (List.forall₂_iff_zip.mpr ⟨hlen, fun hzip => ⟨hzip, hkinds hzip⟩⟩) host huncut
    exact ⟨⟨rfl, rfl, houts⟩, hh⟩
  case enough =>
    intro σ ρ _ _ limit hdepth occurrence host
    rw [dispatch_some]
    refine Scene.runTriggers_uncut (fun trigger hm id hid => ?_) host
    -- every condition shows a tree, and the limit is enough for its depth
    obtain ⟨node, hn, _⟩ := ht.conforms.bool_of_condition hm hid
    obtain ⟨tree, htree⟩ := ht.owned.linked.exists_shows hn
    exact Scene.evaluateWithin_uncut ht.owned.linked limit limit
      (ht.owned.linked.snapshot_iff.mp htree) (hdepth trigger hm id hid tree htree)

/-- **A list of conditions is as good as the one condition that all of them hold**, in reachable
scripts of built-in variants. -/
theorem Reachable.condensation (hs : Reachable .builtin s) (ht : Reachable .builtin t)
    (hr : ∀ id, t.region? id = s.region? id)
    (hall : List.Forall₂ (fun trigger twin => trigger.Alike s.forest t.forest twin ∨
      trigger.Condensed s.forest t.forest twin) s.triggers t.triggers) :
    Condensation .builtin s t :=
  hs.condensation_of_builtin rfl ht hr hall

end Scenario

/-! ## A check that stops halfway

Three conditions: one that holds, one that does not, and a negation of nothing, which has no value
but is not come to. Once they stand on the list, and once they are operands. -/

namespace Halfway

def listed : List Request :=
  [.addTrigger "check", .addDraft ⟨0⟩ .events "PlayerSpawned",
    .createNode "BooleanValue" [] (some (.bool true)), .attach ⟨0⟩ .conditions ⟨1⟩,
    .addDraft ⟨0⟩ .conditions "BooleanValue", .addDraft ⟨0⟩ .conditions "Not"]

def joined : List Request :=
  [.addTrigger "check", .createDraft "Not", .createDraft "BooleanValue",
    .createNode "And" [("left", ⟨1⟩), ("right", ⟨0⟩)] none,
    .createNode "BooleanValue" [] (some (.bool true)),
    .createNode "And" [("left", ⟨3⟩), ("right", ⟨2⟩)] none, .attach ⟨0⟩ .conditions ⟨4⟩,
    .addDraft ⟨0⟩ .events "PlayerSpawned"]

/-- The script that the requests make. -/
def made (requests : List Request) : Scenario :=
  requests.foldl (fun scenario request => request.after ⟨Builtin.variants⟩ scenario)
    (.empty "check")

def host : Host World SeededRandom := ⟨World.empty, .ofSeed 0⟩

end Halfway

namespace Scenario

/-- Under a limit of three levels the check fails at the second condition either way. -/
theorem condensation_halfway :
    Condensation .builtin (Halfway.made Halfway.listed) (Halfway.made Halfway.joined) ∧
      (dispatch .builtin 3 (some (Halfway.made Halfway.listed)) (.playerSpawned ⟨7⟩)
        Halfway.host).1.outcomes = [⟨⟨0⟩, .failed, 2, 0, []⟩] ∧
      (dispatch .builtin 3 (some (Halfway.made Halfway.joined)) (.playerSpawned ⟨7⟩)
        Halfway.host).1.outcomes = [⟨⟨0⟩, .failed, 1, 0, []⟩] := by
  have hlisted : Reachable .builtin (Halfway.made Halfway.listed) :=
    reachable_requests "check" Halfway.listed (by decide +kernel)
  have hjoined : Reachable .builtin (Halfway.made Halfway.joined) :=
    reachable_requests "check" Halfway.joined (by decide +kernel)
  have hregions : (Halfway.made Halfway.joined).regions
      = (Halfway.made Halfway.listed).regions := by
    decide +kernel
  have htrigger : (Halfway.made Halfway.listed).triggers
      = [{ id := ⟨0⟩, name := "check", events := [⟨0⟩], conditions := [⟨1⟩, ⟨2⟩, ⟨3⟩] }] := by
    decide +kernel
  have htrigger' : (Halfway.made Halfway.joined).triggers
      = [{ id := ⟨0⟩, name := "check", events := [⟨5⟩], conditions := [⟨4⟩] }] := by
    decide +kernel
  refine ⟨hlisted.condensation hjoined (fun id => ?_) ?_, ?_, ?_⟩
  · rw [region?, region?, hregions]
  · rw [htrigger, htrigger']
    refine .cons (.inr ⟨rfl, .cons (by decide +kernel) .nil, ?_, .nil⟩) .nil
    exact ⟨⟨"BooleanValue", some (.bool true), []⟩,
      [⟨"BooleanValue", some (.bool false), []⟩, ⟨"Not", none, []⟩], ⟨4⟩, by decide +kernel, rfl,
      by decide +kernel⟩
  · rw [Registry.builtin_eq]
    decide +kernel
  · rw [Registry.builtin_eq]
    decide +kernel

end Scenario

end Rulebook
