import Rulebook.Dispatch
import Rulebook.Proofs.Dispatch
import Rulebook.Proofs.Evaluation.Likeness
import Rulebook.Proofs.Evaluation.Typing
import Rulebook.Scenario.Display

/-!
# Scripts that look alike behave alike

What an observer can see of a node is what it evaluates to, what that does to the
host, and how the node reads; what he can see of a script is what it does when
something happens. All of this depends on the trees alone. Scripts that were
made in different ways, whose nodes have other numbers, hold their slots in
another order or have strangers among them, are told apart by none of it.

Numbers do occur in what is observed: an error names the node at which it arose,
an outcome the trigger that it is of. There the two observations differ by as much
as the numbers of nodes and triggers that stand in the same place.
-/

namespace Rulebook

open Attempt
open Forest (Linked SamePlace Twins TwinNodes)
open Scene (Akin)

/-! ## Display -/

namespace Scenario

variable {s t : Scenario} {registry : Registry} {a b : NodeId}

theorem displayLiteral_eq (hr : ∀ id, t.region? id = s.region? id) (literal : Literal) :
    t.displayLiteral literal = s.displayLiteral literal := by
  cases literal with
  | region id => rw [displayLiteral, displayLiteral, hr]
  | _ => rfl

/-- A part of a template reads the same for nodes that look the same. -/
theorem displayPart_eq (hr : ∀ id, t.region? id = s.region? id)
    {showNode showTwin : NodeId → String} {variant : Variant} {node twin : Node}
    (htwin : TwinNodes s.forest t.forest node twin)
    (hshow : ∀ {c d}, Twins s.forest t.forest c d → showTwin d = showNode c)
    (part : TemplatePart) :
    t.displayPart showTwin variant twin part = s.displayPart showNode variant node part := by
  cases part with
  | verbatim text => rfl
  | braced chars =>
      rw [displayPart, displayPart]
      split
      · rfl
      · -- a slot is set on both sides or on neither
        cases hc : node.argument? (String.ofList chars) with
        | none =>
            rw [(htwin.unset _).mp hc]
            simp only [displayLiteral_eq hr]
        | some c =>
            cases hd : twin.argument? (String.ofList chars) with
            | none => exact absurd ((htwin.unset _).mpr hd) (by simp [hc])
            | some d => exact hshow (htwin.slots hc hd)

/-- **Twins read the same**, by induction on the levels that may still be shown. -/
theorem displayWithin_eq (hs : Linked s.forest) (ht : Linked t.forest)
    (hr : ∀ id, t.region? id = s.region? id) (fuel : Nat) :
    ∀ {a b : NodeId}, Twins s.forest t.forest a b →
      displayWithin registry t fuel b = displayWithin registry s fuel a := by
  induction fuel with
  | zero =>
      intro a b h
      obtain ⟨node, twin, hn, hn', htwin⟩ := h.nodes hs ht
      rw [displayWithin, displayWithin, hn, hn']
      simp only [htwin.literal, displayLiteral_eq hr]
  | succ fuel ih =>
      intro a b h
      obtain ⟨node, twin, hn, hn', htwin⟩ := h.nodes hs ht
      have hpart : ∀ variant : Variant,
          t.displayPart (t.displayWithin registry fuel) variant twin
            = s.displayPart (s.displayWithin registry fuel) variant node := fun variant =>
        funext (displayPart_eq hr htwin ih)
      rw [displayWithin, displayWithin, hn, hn']
      simp only [htwin.literal, htwin.variant, displayLiteral_eq hr, hpart]

end Scenario

/-! ## Outcomes that go together -/

/-- The statuses are the same, but for the nodes that errors name. -/
inductive Status.Alike (R : NodeId → NodeId → Prop) : Status → Status → Prop where
  | done : Alike R .done .done
  | failed : Alike R .failed .failed
  | errored {error twin : EvalError} :
      error.Alike R twin → Alike R (.errored error) (.errored twin)

/-- The outcomes are the same, but for the numbers of nodes and triggers. -/
structure Outcome.Alike (R : NodeId → NodeId → Prop) (outcome twin : Outcome) : Prop where
  status : outcome.status.Alike R twin.status
  conditionsChecked : outcome.conditionsChecked = twin.conditionsChecked
  actionsExecuted : outcome.actionsExecuted = twin.actionsExecuted
  failures : List.Forall₂ (fun failure other => R failure.node other.node ∧
    failure.error.Alike R other.error) outcome.failures twin.failures

/-- The triggers are both enabled or both disabled, and what stands on their lists shows the same
trees, in the same order. -/
structure Trigger.Alike (f g : Forest) (trigger twin : Trigger) : Prop where
  enabled : trigger.enabled = twin.enabled
  roots : ∀ clause, List.Forall₂ (fun a b => f.snapshot a = g.snapshot b)
    (trigger.roots clause) (twin.roots clause)

/-- The nodes stand in the same place below roots that stand in the same place on the lists of the
triggers. -/
def Trigger.SamePlace (f g : Forest) (trigger twin : Trigger) (x y : NodeId) : Prop :=
  ∃ clause, ∃ roots ∈ (trigger.roots clause).zip (twin.roots clause),
    Forest.SamePlace f g roots.1 roots.2 x y

/-- The outcomes are those of two triggers that stand in the same place, and say the same of the
nodes that stand in the same place there. -/
def Outcome.Paired (s t : Scenario) (outcome twin : Outcome) : Prop :=
  ∃ triggers ∈ s.triggers.zip t.triggers, outcome.trigger = triggers.1.id ∧
    twin.trigger = triggers.2.id ∧
    outcome.Alike (triggers.1.SamePlace s.forest t.forest triggers.2) twin

/-- The reports are the same, but for the numbers of nodes and triggers. -/
structure Report.Alike (s t : Scenario) (report twin : Report) : Prop where
  kind : report.kind = twin.kind
  dropped : report.dropped = twin.dropped
  outcomes : List.Forall₂ (Outcome.Paired s t) report.outcomes twin.outcomes

namespace Scene.Akin

variable {σ ρ : Type} [Services σ] [RandomSource ρ] {scene twin : Scene} {limit : Nat}
  {R : NodeId → NodeId → Prop} {a b : NodeId}

/-! ## Handling an occurrence -/

/-- The roots show the same tree, and nodes in the same place below them are related. -/
structure Matched (scene twin : Scene) (R : NodeId → NodeId → Prop) (a b : NodeId) : Prop where
  twins : Twins scene.scenario.forest twin.scenario.forest a b
  related : ∀ x y, SamePlace scene.scenario.forest twin.scenario.forest a b x y → R x y

theorem Matched.evaluate (h : Akin scene twin) (hm : Matched scene twin R a b) (limit : Nat) :
    Parallel (EvalError.Alike R) (scene.evaluate limit a : Evaluation σ ρ Value)
      (twin.evaluate limit b) :=
  (h.evaluate_parallel limit hm.twins).mono fun _ _ he => he.mono hm.related

theorem Matched.evaluateBool (h : Akin scene twin) (hm : Matched scene twin R a b) (limit : Nat) :
    Parallel (EvalError.Alike R) (scene.evaluateBool limit a : Evaluation σ ρ Bool)
      (twin.evaluateBool limit b) :=
  (h.evaluateBool_parallel limit hm.twins).mono fun _ _ he => he.mono hm.related

theorem hears_eq (h : Akin scene twin)
    (ht : Twins scene.scenario.forest twin.scenario.forest a b) (host : Host σ ρ) :
    scene.hears limit a host = twin.hears limit b host := by
  obtain ⟨node, node', hn, hn', htwin⟩ := ht.nodes h.linked h.linked'
  unfold hears
  rw [hn, hn']
  simp only [h.registry, h.facts, htwin.variant]
  split
  · rfl
  · split
    · split
      · -- the event names a region, which is found by evaluating a slot of it
        have hrun := h.inspect_parallel (σ := σ) (ρ := ρ) limit hn hn' htwin
          (Script.regionArg regionParam) host
        cases hr : (scene.inspect limit node (Script.regionArg regionParam)).runOn host with
        | mk named after =>
            cases hr' : (twin.inspect limit node' (Script.regionArg regionParam)).runOn host with
            | mk named' after' =>
                rw [hr, hr'] at hrun
                obtain ⟨hagree, hsame⟩ := hrun
                cases hsame
                cases hagree with
                | ok region => rfl
                | error _ => rfl
      · rfl
    · rfl

theorem hearsAny_eq (h : Akin scene twin) {events others : List NodeId}
    (he : List.Forall₂ (Twins scene.scenario.forest twin.scenario.forest) events others) :
    ∀ host : Host σ ρ, scene.hearsAny limit events host = twin.hearsAny limit others host := by
  induction he with
  | nil => exact fun _ => rfl
  | cons ht _ ih =>
      intro host
      rw [hearsAny, hearsAny, h.hears_eq ht]
      split
      · rfl
      · exact ih _

theorem checkConditions_alike (h : Akin scene twin) (limit : Nat) {conditions others : List NodeId}
    (hc : List.Forall₂ (Matched scene twin R) conditions others) :
    ∀ host : Host σ ρ,
      (scene.checkConditions limit conditions host).1.1.Alike R
          (twin.checkConditions limit others host).1.1 ∧
        (scene.checkConditions limit conditions host).1.2
          = (twin.checkConditions limit others host).1.2 ∧
        (scene.checkConditions limit conditions host).2
          = (twin.checkConditions limit others host).2 := by
  induction hc with
  | nil => exact fun _ => ⟨.done, rfl, rfl⟩
  | @cons a b rest others hm _ ih =>
      intro host
      have hfirst := hm.evaluateBool h limit host
      rw [checkConditions, checkConditions]
      cases hr : (scene.evaluateBool limit a).runOn host with
      | mk verdict after =>
          cases hr' : (twin.evaluateBool limit b).runOn host with
          | mk verdict' after' =>
              rw [hr, hr'] at hfirst
              obtain ⟨hagree, hsame⟩ := hfirst
              cases hsame
              -- the verdicts agree, so both checks stop here or both go on
              cases hagree with
              | error he => exact ⟨.errored he, rfl, rfl⟩
              | ok holds =>
                  cases holds with
                  | false => exact ⟨.failed, rfl, rfl⟩
                  | true =>
                      obtain ⟨hs, hn, hh⟩ := ih after
                      exact ⟨hs, congrArg (· + 1) hn, hh⟩

theorem runActions_alike (h : Akin scene twin) (limit : Nat) {actions others : List NodeId}
    (ha : List.Forall₂ (Matched scene twin R) actions others) :
    ∀ host : Host σ ρ,
      (scene.runActions limit actions host).1.1 = (twin.runActions limit others host).1.1 ∧
        List.Forall₂ (fun failure other => R failure.node other.node ∧
            failure.error.Alike R other.error)
          (scene.runActions limit actions host).1.2 (twin.runActions limit others host).1.2 ∧
        (scene.runActions limit actions host).2 = (twin.runActions limit others host).2 := by
  induction ha with
  | nil => exact fun _ => ⟨rfl, .nil, rfl⟩
  | @cons a b rest others hm _ ih =>
      intro host
      have hfirst := hm.evaluate h limit host
      rw [runActions, runActions]
      cases hr : (scene.evaluate limit a).runOn host with
      | mk result after =>
          cases hr' : (twin.evaluate limit b).runOn host with
          | mk result' after' =>
              rw [hr, hr'] at hfirst
              obtain ⟨hagree, hsame⟩ := hfirst
              cases hsame
              obtain ⟨hn, hf, hh⟩ := ih after
              cases hagree with
              | ok value => exact ⟨congrArg (· + 1) hn, hf, hh⟩
              | error he => exact ⟨hn, .cons ⟨hm.related _ _ .root, he⟩ hf, hh⟩

/-- What stands on a list of a trigger is matched with what shows the same trees. -/
theorem matched_of_snapshot (hs : Scenario.Owned scene.scenario)
    (ht : Scenario.Owned twin.scenario) {trigger : Trigger} (hm : trigger ∈ scene.scenario.triggers)
    {clause : Clause} {others : List NodeId}
    (hall : List.Forall₂ (fun a b =>
      scene.scenario.forest.snapshot a = twin.scenario.forest.snapshot b)
      (trigger.roots clause) others)
    (hR : ∀ roots ∈ (trigger.roots clause).zip others, ∀ x y,
      SamePlace scene.scenario.forest twin.scenario.forest roots.1 roots.2 x y → R x y) :
    List.Forall₂ (Matched scene twin R) (trigger.roots clause) others := by
  obtain ⟨hlen, hsame⟩ := List.forall₂_iff_zip.mp hall
  refine List.forall₂_iff_zip.mpr ⟨hlen, fun {a b} hab => ⟨?_, hR _ hab⟩⟩
  -- what stands on a list is there, so it shows a tree
  have hroot : a ∈ trigger.allRoots := Trigger.mem_allRoots.mpr ⟨clause, (List.of_mem_zip hab).1⟩
  obtain ⟨node, hn, _⟩ := hs.heldBy_of_mem hm hroot
  obtain ⟨tree, hsnap⟩ := hs.linked.exists_shows hn
  have hsnap' := (hsame hab).symm.trans hsnap
  exact ⟨tree, hs.linked.snapshot_iff.mp hsnap, ht.linked.snapshot_iff.mp hsnap'⟩

/-- What the lists of two triggers hold is matched, place by place. -/
theorem matched_roots (hs : Scenario.Owned scene.scenario) (ht : Scenario.Owned twin.scenario)
    {trigger other : Trigger} (hm : trigger ∈ scene.scenario.triggers)
    (ha : trigger.Alike scene.scenario.forest twin.scenario.forest other) (clause : Clause) :
    List.Forall₂ (Matched scene twin
        (trigger.SamePlace scene.scenario.forest twin.scenario.forest other))
      (trigger.roots clause) (other.roots clause) :=
  matched_of_snapshot hs ht hm (ha.roots clause) fun _ hab _ _ hp => ⟨clause, _, hab, hp⟩

theorem runTrigger_alike (h : Akin scene twin) (limit : Nat) {trigger other : Trigger}
    (hc : List.Forall₂ (Matched scene twin R) trigger.conditions other.conditions)
    (ha : List.Forall₂ (Matched scene twin R) trigger.actions other.actions) (host : Host σ ρ) :
    (scene.runTrigger limit trigger host).1.Alike R (twin.runTrigger limit other host).1 ∧
      (scene.runTrigger limit trigger host).2 = (twin.runTrigger limit other host).2 := by
  have hchecks := h.checkConditions_alike limit hc host
  unfold runTrigger
  cases hr : scene.checkConditions limit trigger.conditions host with
  | mk checked after =>
      obtain ⟨status, count⟩ := checked
      cases hr' : twin.checkConditions limit other.conditions host with
      | mk checked' after' =>
          obtain ⟨status', count'⟩ := checked'
          rw [hr, hr'] at hchecks
          obtain ⟨hstatus, hcount, hsame⟩ := hchecks
          simp only at hstatus hcount hsame
          subst hcount hsame
          cases hstatus with
          | done =>
              obtain ⟨hn, hf, hh⟩ := h.runActions_alike limit ha after
              exact ⟨⟨.done, rfl, hn, hf⟩, hh⟩
          | failed => exact ⟨⟨.failed, rfl, rfl, .nil⟩, rfl⟩
          | errored he => exact ⟨⟨.errored he, rfl, rfl, .nil⟩, rfl⟩

/-- **Triggers that look alike come to the same**, one after the other. -/
theorem runTriggers_alike (h : Akin scene twin) (limit : Nat) (hs : Scenario.Owned scene.scenario)
    (ht : Scenario.Owned twin.scenario) {triggers others : List Trigger}
    (hall : List.Forall₂ (fun trigger other =>
      (trigger, other) ∈ scene.scenario.triggers.zip twin.scenario.triggers ∧
        trigger.Alike scene.scenario.forest twin.scenario.forest other) triggers others) :
    ∀ host : Host σ ρ,
      List.Forall₂ (Outcome.Paired scene.scenario twin.scenario)
          (scene.runTriggers limit triggers host).1 (twin.runTriggers limit others host).1 ∧
        (scene.runTriggers limit triggers host).2 = (twin.runTriggers limit others host).2 := by
  induction hall with
  | nil => exact fun _ => ⟨.nil, rfl⟩
  | @cons trigger other rest others hfirst _ ih =>
      obtain ⟨hzip, halike⟩ := hfirst
      intro host
      -- twins hear alike, so both triggers run or neither does
      have hroots := matched_roots hs ht (List.of_mem_zip hzip).1 halike
      have hheard : scene.hearsAny limit trigger.events host
          = twin.hearsAny limit other.events host :=
        h.hearsAny_eq ((hroots .events).imp fun _ _ hm => hm.twins) host
      rw [runTriggers, runTriggers, halike.enabled, hheard]
      split
      · split
        · exact ih _
        · rename_i after _
          have hfirst :=
            h.runTrigger_alike limit (hroots .conditions) (hroots .actions) after
          have hname := (scene.runTrigger_runs limit trigger after).accounts.named
          have hname' := (twin.runTrigger_runs limit other after).accounts.named
          cases hr : scene.runTrigger limit trigger after with
          | mk outcome later =>
              cases hr' : twin.runTrigger limit other after with
              | mk outcome' later' =>
                  rw [hr] at hfirst hname
                  rw [hr'] at hfirst hname'
                  obtain ⟨hout, hsame⟩ := hfirst
                  simp only at hsame
                  subst hsame
                  obtain ⟨houts, hh⟩ := ih later
                  exact ⟨.cons ⟨_, hzip, hname, hname', hout⟩ houts, hh⟩
      · exact ih host

end Scene.Akin

namespace Scenario

variable {registry : Registry} {s t : Scenario}

/-- An observer sees no more of the two scripts than the trees of their nodes. -/
structure Indistinguishable (registry : Registry) (s t : Scenario) : Prop where
  /-- No two nodes of the one stand in the place of one node of the other. -/
  place : ∀ {a b x y x' y'}, Forest.SamePlace s.forest t.forest a b x y →
    Forest.SamePlace s.forest t.forest a b x' y' → (x = x' ↔ y = y')
  /-- Nodes with equal trees evaluate alike. -/
  evaluate : ∀ {σ ρ : Type} [Services σ] [RandomSource ρ] {a b tree},
    s.forest.snapshot a = some tree → t.forest.snapshot b = some tree → ∀ facts limit,
    Attempt.Parallel (EvalError.Alike (Forest.SamePlace s.forest t.forest a b))
      (Scene.evaluate ⟨registry, s, facts⟩ limit a : Evaluation σ ρ Value)
      (Scene.evaluate ⟨registry, t, facts⟩ limit b)
  /-- They read the same. -/
  display : ∀ {a b tree}, s.forest.snapshot a = some tree → t.forest.snapshot b = some tree →
    s.display registry a = t.display registry b
  /-- If the triggers look alike, an occurrence is handled alike. -/
  dispatch : ∀ {σ ρ : Type} [Services σ] [RandomSource ρ],
    List.Forall₂ (Trigger.Alike s.forest t.forest) s.triggers t.triggers →
    ∀ limit occurrence (host : Host σ ρ),
      (Rulebook.dispatch registry limit (some s) occurrence host).1.Alike s t
          (Rulebook.dispatch registry limit (some t) occurrence host).1 ∧
        (Rulebook.dispatch registry limit (some s) occurrence host).2
          = (Rulebook.dispatch registry limit (some t) occurrence host).2

/-- **Reachable scripts with the same regions are told apart by their trees only.** -/
theorem Reachable.indistinguishable (hs : Reachable registry s) (ht : Reachable registry t)
    (hr : ∀ id, t.region? id = s.region? id) : Indistinguishable registry s t := by
  have hakin : ∀ facts, Akin ⟨registry, s, facts⟩ ⟨registry, t, facts⟩ := fun facts =>
    ⟨rfl, rfl, hr, hs.owned.linked, ht.owned.linked, hs.conforms.forest, ht.conforms.forest⟩
  have htwins : ∀ {a b tree}, s.forest.snapshot a = some tree → t.forest.snapshot b = some tree →
      Twins s.forest t.forest a b := fun ha hb =>
    ⟨_, hs.owned.linked.snapshot_iff.mp ha, ht.owned.linked.snapshot_iff.mp hb⟩
  refine ⟨fun h h' => ⟨fun he => ?_, fun he => ?_⟩, fun ha hb facts limit => ?_, fun ha hb => ?_,
    fun hall limit occurrence host => ?_⟩
  · subst he
    exact h.right_unique hs.owned.linked h'
  · subst he
    exact h.symm.right_unique ht.owned.linked h'.symm
  · exact (hakin facts).evaluate_parallel limit (htwins ha hb)
  · rw [display, display]
    exact (displayWithin_eq hs.owned.linked ht.owned.linked hr shownDepth (htwins ha hb)).symm
  · obtain ⟨hlen, halike⟩ := List.forall₂_iff_zip.mp hall
    obtain ⟨houts, hh⟩ := (hakin (.ofOccurrence occurrence)).runTriggers_alike limit
      hs.owned ht.owned
      (List.forall₂_iff_zip.mpr ⟨hlen, fun hzip => ⟨hzip, halike hzip⟩⟩) host
    rw [dispatch_some, dispatch_some]
    exact ⟨⟨rfl, rfl, houts⟩, hh⟩

end Scenario

/-! ## One comparison made in two ways

That two is less than three, once made of its operands, once begun as a draft whose slots are then
filled from the last to the first, after a trigger was given up and with a stranger beside it. -/

namespace TwoWays

def direct : List Request :=
  [.addTrigger "check", .createNode "IntValue" [] (some (.int 2)),
    .createNode "IntValue" [] (some (.int 3)),
    .createNode "IntCompare" [("left", ⟨0⟩), ("right", ⟨1⟩)] none, .attach ⟨0⟩ .conditions ⟨2⟩]

def winding : List Request :=
  [.addTrigger "mistake", .deleteTrigger ⟨0⟩, .addTrigger "check",
    .addDraft ⟨1⟩ .conditions "IntCompare", .createNode "IntValue" [] (some (.int 3)),
    .setArgument ⟨0⟩ "right" ⟨1⟩, .createNode "IntValue" [] (some (.int 2)),
    .setArgument ⟨0⟩ "left" ⟨2⟩, .createDraft "RandomInteger"]

/-- The script that the requests make. -/
def made (requests : List Request) : Scenario :=
  requests.foldl (fun scenario request => request.after ⟨Builtin.variants⟩ scenario)
    (.empty "comparison")

end TwoWays

namespace Scenario

/-- The comparison is the third node of the one script and the first of the other. -/
theorem indistinguishable_twoWays :
    (TwoWays.made TwoWays.direct).forest.snapshot ⟨2⟩
        = (TwoWays.made TwoWays.winding).forest.snapshot ⟨0⟩ ∧
      List.Forall₂
        (Trigger.Alike (TwoWays.made TwoWays.direct).forest (TwoWays.made TwoWays.winding).forest)
        (TwoWays.made TwoWays.direct).triggers (TwoWays.made TwoWays.winding).triggers ∧
      Indistinguishable .builtin (TwoWays.made TwoWays.direct) (TwoWays.made TwoWays.winding) := by
  have hdirect : Reachable .builtin (TwoWays.made TwoWays.direct) :=
    reachable_requests "comparison" TwoWays.direct (by decide +kernel)
  have hwinding : Reachable .builtin (TwoWays.made TwoWays.winding) :=
    reachable_requests "comparison" TwoWays.winding (by decide +kernel)
  have hregions : (TwoWays.made TwoWays.winding).regions
      = (TwoWays.made TwoWays.direct).regions := by
    decide +kernel
  have hsnapshot : (TwoWays.made TwoWays.direct).forest.snapshot ⟨2⟩
      = (TwoWays.made TwoWays.winding).forest.snapshot ⟨0⟩ := by
    decide +kernel
  have htrigger : (TwoWays.made TwoWays.direct).triggers
      = [{ id := ⟨0⟩, name := "check", conditions := [⟨2⟩] }] := by
    decide +kernel
  have htrigger' : (TwoWays.made TwoWays.winding).triggers
      = [{ id := ⟨1⟩, name := "check", conditions := [⟨0⟩] }] := by
    decide +kernel
  refine ⟨hsnapshot, ?_, hdirect.indistinguishable hwinding fun id => ?_⟩
  · rw [htrigger, htrigger']
    refine .cons ⟨rfl, fun clause => ?_⟩ .nil
    cases clause with
    | events => exact .nil
    | conditions => exact .cons hsnapshot .nil
    | actions => exact .nil
  · rw [region?, region?, hregions]

end Scenario

end Rulebook
