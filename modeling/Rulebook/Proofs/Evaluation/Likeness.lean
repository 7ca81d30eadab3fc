import Rulebook.Evaluation
import Rulebook.Proofs.Evaluation.Locality
import Rulebook.Proofs.Scenario.Conformance
import Rulebook.Proofs.TreePaths

/-!
# Nodes that look alike evaluate alike

Two nodes, of one script or of two, that show the same tree cannot be told apart
by evaluating them: in the same state both yield the same value, or both fail for
the same reason at nodes that stand in the same place, and they leave the same
state behind. Numbers of nodes, the order in which slots were filled and
everything outside of the two trees make no difference.

The two evaluations are followed side by side. A rule sees its node only through
the requests that it makes, and every request is served alike: literals are the
same, slots of one name hold nodes that again look alike, regions are the same by
number, and host and source are in the same state all along.
-/

namespace Rulebook

namespace Forest

variable {f g : Forest} {a b x y : NodeId}

/-- Slots of the same names lead from the two roots to the two nodes. -/
inductive SamePlace (f g : Forest) (a b : NodeId) : NodeId → NodeId → Prop where
  | root : SamePlace f g a b a b
  | slot {x y c d : NodeId} {node twin : Node} {param : String} :
      SamePlace f g a b x y → f.get? x = some node → g.get? y = some twin →
      node.argument? param = some c → twin.argument? param = some d → SamePlace f g a b c d

namespace SamePlace

theorem symm (h : SamePlace f g a b x y) : SamePlace g f b a y x := by
  induction h with
  | root => exact .root
  | slot _ hn hn' hc hd ih => exact .slot ih hn' hn hd hc

theorem below_root (h : SamePlace f g a b x y) : f.Below a x := by
  induction h with
  | root => exact .refl
  | slot _ hn _ hc _ ih =>
      exact ih.tail (holds_of_argument? hn hc)

/-- No more than one node stands in the place of another: from a node the way back up to the root
is the only one, and so are the slots along it. -/
theorem right_unique (hf : Linked f) (h : SamePlace f g a b x y) {y' : NodeId}
    (h' : SamePlace f g a b x y') : y = y' := by
  induction h generalizing y' with
  | root =>
      cases h' with
      | root => rfl
      | slot hp hn _ hc _ =>
          exact absurd hp.below_root (hf.not_below_of_holds (holds_of_argument? hn hc))
  | @slot p q x y node twin param hp hn hn' hc hd ih =>
      cases h' with
      | root => exact absurd hp.below_root (hf.not_below_of_holds (holds_of_argument? hn hc))
      | @slot p' q' _ _ other other' param' hp' ho ho' hc' hd' =>
          -- the same holder, and in it the same slot
          have hsame : p = p' :=
            hf.holds_unique (holds_of_argument? hn hc) (holds_of_argument? ho hc')
          subst hsame
          cases ih hp'
          rw [hn] at ho
          cases ho
          rw [hn'] at ho'
          cases ho'
          have hslot := List.inj_on_of_nodup_map (hf.nodup hn) (Node.mem_of_argument? hc)
            (Node.mem_of_argument? hc') rfl
          cases hslot
          rw [hd] at hd'
          exact Option.some.inj hd'

end SamePlace

/-- The two nodes show the same tree. -/
def Twins (f g : Forest) (a b : NodeId) : Prop := ∃ tree, Shows f a tree ∧ Shows g b tree

/-- The nodes look the same: slots of one name are both unset, or hold twins. -/
structure TwinNodes (f g : Forest) (node twin : Node) : Prop where
  variant : twin.variant = node.variant
  literal : twin.literal = node.literal
  unset : ∀ param, node.argument? param = none ↔ twin.argument? param = none
  slots : ∀ {param c d}, node.argument? param = some c → twin.argument? param = some d →
    Twins f g c d

/-- **What twins are made of** are nodes that look the same. -/
theorem Twins.nodes (hf : Linked f) (hg : Linked g) (h : Twins f g x y) :
    ∃ node twin, f.get? x = some node ∧ g.get? y = some twin ∧ TwinNodes f g node twin := by
  obtain ⟨tree, hs, ht⟩ := h
  obtain ⟨node, hn⟩ := hs.exists_node
  obtain ⟨twin, hn'⟩ := ht.exists_node
  obtain ⟨hv, hl⟩ := Prod.mk.inj ((hs.top hn).symm.trans (ht.top hn'))
  refine ⟨node, twin, hn, hn', hv.symm, hl.symm, fun param => ?_, fun {param c d} hc hd => ?_⟩
  · rw [← hs.lookup_eq_none hf hn, ← ht.lookup_eq_none hg hn']
  · cases hparam : tree.arguments.lookup param with
    -- nothing can fill a slot that the tree lacks
    | none =>
        rw [(hs.lookup_eq_none hf hn).mp hparam] at hc
        exact absurd hc (by simp)
    | some inner =>
        obtain ⟨c', hc', hcs⟩ := (hs.lookup hf hn).mp hparam
        obtain ⟨d', hd', hds⟩ := (ht.lookup hg hn').mp hparam
        rw [hc] at hc'
        rw [hd] at hd'
        cases hc'
        cases hd'
        exact ⟨inner, hcs, hds⟩

end Forest

/-- The errors say the same of nodes that are related. -/
inductive EvalError.Alike (R : NodeId → NodeId → Prop) : EvalError → EvalError → Prop where
  | missingArgument {x y : NodeId} (param : String) :
      R x y → Alike R (.missingArgument x param) (.missingArgument y param)
  | danglingReference {x y : NodeId} (reference : String) :
      R x y → Alike R (.danglingReference x reference) (.danglingReference y reference)
  | missingFact (fact : String) : Alike R (.missingFact fact) (.missingFact fact)
  | typeMismatch {x y : NodeId} (expected found : ValueType) :
      R x y → Alike R (.typeMismatch x expected found) (.typeMismatch y expected found)
  | unknownNode {x y : NodeId} : R x y → Alike R (.unknownNode x) (.unknownNode y)
  | unknownVariant (variant : VariantId) :
      Alike R (.unknownVariant variant) (.unknownVariant variant)
  | depthExceeded (limit : Nat) : Alike R (.depthExceeded limit) (.depthExceeded limit)
  | actionFailed {x y : NodeId} (cause : ServiceError) :
      R x y → Alike R (.actionFailed x cause) (.actionFailed y cause)

theorem EvalError.Alike.mono {R R' : NodeId → NodeId → Prop} (hR : ∀ x y, R x y → R' x y)
    {error twin : EvalError} (h : Alike R error twin) : Alike R' error twin := by
  cases h with
  | missingArgument param h => exact .missingArgument param (hR _ _ h)
  | danglingReference reference h => exact .danglingReference reference (hR _ _ h)
  | missingFact fact => exact .missingFact fact
  | typeMismatch expected found h => exact .typeMismatch expected found (hR _ _ h)
  | unknownNode h => exact .unknownNode (hR _ _ h)
  | unknownVariant variant => exact .unknownVariant variant
  | depthExceeded limit => exact .depthExceeded limit
  | actionFailed cause h => exact .actionFailed cause (hR _ _ h)

theorem Failure.alike_atNode {R : NodeId → NodeId → Prop} {x y : NodeId} (h : R x y)
    (why : Failure) : EvalError.Alike R (why.atNode x) (why.atNode y) := by
  cases why with
  | missingArgument param => exact .missingArgument param h
  | danglingReference reference => exact .danglingReference reference h
  | missingFact fact => exact .missingFact fact
  | typeMismatch expected found => exact .typeMismatch expected found h

namespace Scene

open Attempt
open Forest (Linked SamePlace Twins TwinNodes)

/-- The two scenes differ in their scripts only, and these have the same regions by number. -/
structure Akin (scene twin : Scene) : Prop where
  registry : twin.registry = scene.registry
  facts : twin.facts = scene.facts
  regions : ∀ id, twin.scenario.region? id = scene.scenario.region? id
  linked : Linked scene.scenario.forest
  linked' : Linked twin.scenario.forest
  conforms : Forest.Conforms scene.registry scene.scenario.forest
  conforms' : Forest.Conforms scene.registry twin.scenario.forest

variable {σ ρ : Type} [Services σ] {scene twin : Scene} {R : NodeId → NodeId → Prop}
  {child child' : NodeId → Evaluation σ ρ Value} {node node' : Node} {a b x y : NodeId}

namespace Akin

/-! ## Serving a rule -/

/-- A script is served for two nodes that look the same and whose arguments end alike. -/
structure Serving (R : NodeId → NodeId → Prop) (child child' : NodeId → Evaluation σ ρ Value)
    (node node' : Node) : Prop where
  id : R node.id node'.id
  variant : node'.variant = node.variant
  literal : node'.literal = node.literal
  unset : ∀ param, node.argument? param = none ↔ node'.argument? param = none
  slots : ∀ {param c d}, node.argument? param = some c → node'.argument? param = some d →
    Parallel (EvalError.Alike R) (child c) (child' d)

omit [Services σ] in
/-- What is in the slots of twins is evaluated alike, so a script is served alike for them. -/
theorem serving (h : Akin scene twin)
    (hp : SamePlace scene.scenario.forest twin.scenario.forest a b x y)
    (hn : scene.scenario.forest.get? x = some node)
    (hn' : twin.scenario.forest.get? y = some node')
    (htwin : TwinNodes scene.scenario.forest twin.scenario.forest node node')
    (hchild : ∀ {c d}, SamePlace scene.scenario.forest twin.scenario.forest a b c d →
      Twins scene.scenario.forest twin.scenario.forest c d →
      Parallel (EvalError.Alike (SamePlace scene.scenario.forest twin.scenario.forest a b))
        (child c) (child' d)) :
    Serving (SamePlace scene.scenario.forest twin.scenario.forest a b) child child' node node' where
  id := by
    rw [h.linked.key hn, h.linked'.key hn']
    exact hp
  variant := htwin.variant
  literal := htwin.literal
  unset := htwin.unset
  slots hc hd := hchild (.slot hp hn hn' hc hd) (htwin.slots hc hd)

theorem resolve_parallel (h : Akin scene twin) (hid : R x y) (literal : Literal) :
    Parallel (EvalError.Alike R) (scene.resolve x literal : Evaluation σ ρ Value)
      (twin.resolve y literal) := by
  refine .get fun host => .check ?_
  rw [literalValue?_congr h.regions]
  cases scene.literalValue? host.services literal with
  | ok value => exact .ok value
  | error why => exact .error (why.alike_atNode hid)

theorem argument_parallel (h : Akin scene twin) (hs : Serving R child child' node node')
    (param : String) :
    Parallel (EvalError.Alike R) (scene.argument child node param)
      (twin.argument child' node' param) := by
  unfold argument
  rw [h.registry, hs.variant]
  cases hc : node.argument? param with
  | none =>
      rw [(hs.unset param).mp hc]
      dsimp only
      split
      · exact h.resolve_parallel hs.id _
      · exact .throw (.missingArgument param hs.id)
  | some c =>
      cases hd : node'.argument? param with
      | none => exact absurd ((hs.unset param).mpr hd) (by simp [hc])
      | some d => exact hs.slots hc hd

omit [Services σ] in
theorem region_parallel (h : Akin scene twin) (hid : R x y) (region : RegionId) :
    Parallel (EvalError.Alike R) (scene.region x region : Evaluation σ ρ Region)
      (twin.region y region) := by
  unfold Scene.region
  rw [h.regions]
  split
  · exact .pure _
  · exact .throw (.danglingReference _ hid)

theorem perform_parallel (hid : R x y) (effect : Effect) :
    Parallel (EvalError.Alike R) (perform x effect : Evaluation σ ρ Unit) (perform y effect) := by
  intro host
  refine ⟨?_, rfl⟩
  show Check.Agree _ ((Services.perform effect host.services).1.mapError (EvalError.actionFailed x))
    ((Services.perform effect host.services).1.mapError (EvalError.actionFailed y))
  cases (Services.perform effect host.services).1 with
  | ok _ => exact .ok ()
  | error cause => exact .error (.actionFailed cause hid)

variable [RandomSource ρ]

/-- **A script is served alike** for two nodes that look the same. -/
theorem serve_parallel {α : Type} (h : Akin scene twin) (hs : Serving R child child' node node')
    (script : Script α) :
    Parallel (EvalError.Alike R) (scene.serve child node script)
      (twin.serve child' node' script) := by
  induction script with
  | done result => exact .pure result
  | fail why => exact .throw (why.alike_atNode hs.id)
  | argument param next ih => exact .bind (h.argument_parallel hs param) ih
  | literal next ih =>
      rw [serve, serve, hs.literal]
      exact ih _
  | resolve literal next ih => exact .bind (h.resolve_parallel hs.id literal) ih
  | facts next ih =>
      rw [serve, serve, h.facts]
      exact ih _
  | region id next ih => exact .bind (h.region_parallel hs.id id) ih
  | ask query next ih => exact .bind (fun host => ⟨.ok _, rfl⟩) ih
  | perform effect next ih => exact .bind (perform_parallel hs.id effect) fun _ => ih
  | roll low high next ih => exact .bind (fun host => ⟨.ok _, rfl⟩) ih

/-! ## Evaluating a node -/

/-- Both nodes declare the type of their variant. -/
theorem result_eq (h : Akin scene twin) (hn : scene.scenario.forest.get? x = some node)
    (hn' : twin.scenario.forest.get? y = some node') (hv : node'.variant = node.variant) :
    node'.result = node.result := by
  obtain ⟨variant, hvar, _, hr, _⟩ := h.conforms.typed hn
  obtain ⟨variant', hvar', _, hr', _⟩ := h.conforms'.typed hn'
  rw [hv, hvar] at hvar'
  cases hvar'
  rw [hr, hr']

/-- **Twins evaluate alike**, by induction on the levels that may still be entered. -/
theorem evaluateWithin_parallel (h : Akin scene twin) (limit remaining : Nat) :
    ∀ {x y : NodeId}, SamePlace scene.scenario.forest twin.scenario.forest a b x y →
      Twins scene.scenario.forest twin.scenario.forest x y →
      Parallel (EvalError.Alike (SamePlace scene.scenario.forest twin.scenario.forest a b))
        (scene.evaluateWithin limit remaining x : Evaluation σ ρ Value)
        (twin.evaluateWithin limit remaining y) := by
  induction remaining with
  | zero =>
      intro x y _ ht
      obtain ⟨node, node', hn, hn', htwin⟩ := ht.nodes h.linked h.linked'
      obtain ⟨variant, hv, _⟩ := h.conforms.typed hn
      rw [evaluateWithin, evaluateWithin, hn, hn']
      simp only [h.registry, htwin.variant, hv]
      exact .throw (.depthExceeded limit)
  | succ remaining ih =>
      intro x y hp ht
      obtain ⟨node, node', hn, hn', htwin⟩ := ht.nodes h.linked h.linked'
      obtain ⟨variant, hv, _⟩ := h.conforms.typed hn
      -- the slots hold twins in the same places, to which the hypothesis applies
      have hs := h.serving hp hn hn' htwin ih
      rw [evaluateWithin, evaluateWithin, hn, hn']
      simp only [h.registry, htwin.variant, hv]
      refine .bind (h.serve_parallel hs variant.rule) fun value => ?_
      rw [h.result_eq hn hn' htwin.variant]
      split
      · exact .pure value
      · exact .bind (.throw (.typeMismatch _ _ hp)) fun _ => .pure value

theorem evaluate_parallel (h : Akin scene twin) (limit : Nat)
    (ht : Twins scene.scenario.forest twin.scenario.forest a b) :
    Parallel (EvalError.Alike (SamePlace scene.scenario.forest twin.scenario.forest a b))
      (scene.evaluate limit a : Evaluation σ ρ Value) (twin.evaluate limit b) :=
  h.evaluateWithin_parallel limit limit .root ht

theorem inspect_parallel {α : Type} (h : Akin scene twin) (limit : Nat)
    (hn : scene.scenario.forest.get? a = some node)
    (hn' : twin.scenario.forest.get? b = some node')
    (htwin : TwinNodes scene.scenario.forest twin.scenario.forest node node')
    (script : Script α) :
    Parallel (EvalError.Alike (SamePlace scene.scenario.forest twin.scenario.forest a b))
      (scene.inspect limit node script : Evaluation σ ρ α) (twin.inspect limit node' script) :=
  h.serve_parallel (h.serving .root hn hn' htwin (h.evaluateWithin_parallel limit limit)) script

theorem evaluateBool_parallel (h : Akin scene twin) (limit : Nat)
    (ht : Twins scene.scenario.forest twin.scenario.forest a b) :
    Parallel (EvalError.Alike (SamePlace scene.scenario.forest twin.scenario.forest a b))
      (scene.evaluateBool limit a : Evaluation σ ρ Bool) (twin.evaluateBool limit b) := by
  obtain ⟨node, node', hn, hn', htwin⟩ := ht.nodes h.linked h.linked'
  unfold evaluateBool evaluateAs
  rw [hn, hn']
  simp only [h.result_eq hn hn' htwin.variant]
  refine .bind ?_ fun value => ?_
  · split
    · exact h.evaluate_parallel limit ht
    · exact .bind (.throw (.typeMismatch _ _ .root)) fun _ => h.evaluate_parallel limit ht
  · cases value with
    | bool value => exact .pure value
    | _ => exact .throw (.typeMismatch _ _ .root)

end Akin

end Scene

end Rulebook
