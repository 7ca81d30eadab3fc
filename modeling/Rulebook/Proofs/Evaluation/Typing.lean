import Rulebook.Evaluation
import Rulebook.Proofs.Builtin
import Rulebook.Proofs.Scenario.Conformance
import Rulebook.Random.Seeded
import Rulebook.World

/-!
# Evaluation respects types

A node of a reachable script evaluates to a value of the type that it declares,
or there is an *excuse*: a required slot at or below it is unset, something that
the script refers to has stopped existing, the occurrence lacks a fact, the limit
of levels is reached, or the host refused the effect of the very action that was
evaluated.

The argument is the usual one. A filled slot holds a node of the declared type,
so by induction on the levels that remain an argument ends as its parameter
promises; what a proper rule makes of such answers was said of the rule alone.
No parameter takes what an action yields, which is why an effect is never refused
further down.
-/

namespace Rulebook

/-- The error would mean that the script is not what its registry says. -/
inductive EvalError.IsFault : EvalError → Prop where
  | type (node : NodeId) (expected found : ValueType) : IsFault (.typeMismatch node expected found)
  | node (node : NodeId) : IsFault (.unknownNode node)
  | variant (variant : VariantId) : IsFault (.unknownVariant variant)

namespace Scene

variable {scene : Scene} {limit : Nat} {root id : NodeId} {node : Node} {variant : Variant}
  {param : String}

/-- The node is the root or lies below it, and a required slot of it is unset. -/
def Lacks (scene : Scene) (root id : NodeId) (param : String) : Prop :=
  scene.scenario.forest.Below root id ∧ ∃ node variant slot,
    scene.scenario.forest.get? id = some node ∧
      scene.registry.get? node.variant = some variant ∧ variant.param? param = some slot ∧
      slot.isRequired = true ∧ node.argument? param = none

/-- Why a node may have no value although everything is of the right type. -/
inductive Excuse (scene : Scene) (limit : Nat) (root : NodeId) : EvalError → Prop where
  | missing {id : NodeId} {param : String} :
      scene.Lacks root id param → Excuse scene limit root (.missingArgument id param)
  | dangling {id : NodeId} (reference : String) :
      scene.scenario.forest.Below root id →
      Excuse scene limit root (.danglingReference id reference)
  | fact (fact : String) : Excuse scene limit root (.missingFact fact)
  | depth : Excuse scene limit root (.depthExceeded limit)
  | refused {node : Node} (cause : ServiceError) :
      scene.scenario.forest.get? root = some node → node.kind = .action →
      Excuse scene limit root (.actionFailed root cause)

/-- What has no value has an excuse. -/
structure Excused {α : Type} (scene : Scene) (limit : Nat) (root : NodeId)
    (result : Except EvalError α) : Prop where
  excuse : ∀ error, result = .error error → scene.Excuse limit root error
  /-- Types, nodes and variants are never at fault. -/
  faultless : ∀ error, error.IsFault → result ≠ .error error
  /-- If no required slot is unset, no argument is missing. -/
  complete : (∀ id param, ¬ scene.Lacks root id param) →
    ∀ id param, result ≠ .error (.missingArgument id param)

namespace Excuse

theorem not_isFault {error : EvalError} (h : scene.Excuse limit root error) : ¬ error.IsFault := by
  intro hf
  cases hf <;> cases h

/-- An excuse for what is in a slot excuses the node with the slot, unless the host refused an
effect. -/
theorem lift {error : EvalError} {inner : NodeId} {held : Node}
    (h : scene.Excuse limit inner error) (hh : scene.scenario.forest.Holds root inner)
    (hi : scene.scenario.forest.get? inner = some held) (hk : held.kind ≠ .action) :
    scene.Excuse limit root error := by
  cases h with
  | missing hl => exact .missing ⟨.head hh hl.1, hl.2⟩
  | dangling reference hb => exact .dangling reference (.head hh hb)
  | fact name => exact .fact name
  | depth => exact .depth
  | refused cause hn hact =>
      rw [hi] at hn
      cases hn
      exact absurd hact hk

theorem excused {α : Type} {result : Except EvalError α} {P : α → Prop}
    (h : Check.Ends P (scene.Excuse limit root) result) : scene.Excused limit root result where
  excuse := by
    intro error he
    rw [he] at h
    exact h
  faultless := by
    intro error hf he
    rw [he] at h
    exact not_isFault h hf
  complete := by
    intro hall id param he
    rw [he] at h
    cases h with
    | missing hl => exact hall id param hl

end Excuse

variable {σ ρ : Type} [Services σ]

/-! ## Serving a rule -/

theorem literalValue?_ends (scene : Scene) (services : σ) (literal : Literal) :
    Check.Ends (fun value => value.type = literal.type)
      (fun why => ∃ reference, why = .danglingReference reference)
      (scene.literalValue? services literal) := by
  cases literal with
  | int | text | bool | comparator | damageType => rfl
  | block | item | region =>
      rw [literalValue?]
      split
      · rfl
      · exact ⟨_, rfl⟩

/-- A literal stands for a value of its type, or for something that has stopped existing. -/
theorem resolve_ends (literal : Literal) :
    (scene.resolve id literal : Evaluation σ ρ Value).Ends
      (fun value => value.type = literal.type) (scene.Excuse limit id) := by
  refine .get fun host => .check ?_
  have h := scene.literalValue?_ends host.services literal
  cases hr : scene.literalValue? host.services literal with
  | ok value =>
      rw [hr] at h
      exact h
  | error why =>
      rw [hr] at h
      obtain ⟨reference, rfl⟩ := h
      exact .dangling reference .refl

/-- The script is served for a node of a well-typed variant, whose arguments end as their
parameters promise. -/
structure Serving (scene : Scene) (limit : Nat) (child : NodeId → Evaluation σ ρ Value)
    (id : NodeId) (node : Node) (variant : Variant) : Prop where
  key : node.id = id
  here : scene.scenario.forest.get? id = some node
  registered : scene.registry.get? node.variant = some variant
  kind : node.kind = variant.kind
  literal : variant.literal = node.literal.map (·.type)
  fallback : ∀ param ∈ variant.params, ∀ literal ∈ param.fallback, literal.type = param.type
  child : ∀ {param slot inner}, variant.param? param = some slot →
    node.argument? param = some inner →
    (child inner).Ends (fun value => value.type = slot.type) (scene.Excuse limit id)

namespace Serving

variable {child : NodeId → Evaluation σ ρ Value}

theorem argument_ends (h : Serving scene limit child id node variant) {slot : Param}
    (hp : variant.param? param = some slot) :
    (scene.argument child node param).Ends (fun value => value.type = slot.type)
      (scene.Excuse limit id) := by
  unfold argument
  split
  · rename_i inner hin
    exact h.child hp hin
  · rename_i hunset
    rw [h.registered, Option.bind_some, hp, Option.bind_some]
    cases hf : slot.fallback with
    | some literal =>
        -- a fallback has the type of its slot, for the variant is well typed
        have ht : literal.type = slot.type :=
          h.fallback slot (Variant.mem_of_param? hp).1 literal hf
        rw [← ht, h.key]
        exact resolve_ends literal
    | none =>
        rw [h.key]
        -- a slot that is unset and has no fallback is a required one
        refine .throw (.missing ⟨.refl, node, variant, slot, h.here, h.registered, hp, ?_, hunset⟩)
        rw [Param.isRequired, hf]
        rfl

omit [Services σ] in
theorem region_ends (h : Serving scene limit child id node variant) (region : RegionId) :
    (scene.region node.id region : Evaluation σ ρ Region).Ends (fun _ => True)
      (scene.Excuse limit id) := by
  unfold Scene.region
  split
  · exact .pure trivial
  · rw [h.key]
    exact .throw (.dangling _ .refl)

theorem perform_ends (h : Serving scene limit child id node variant) (ha : variant.kind = .action)
    (effect : Effect) :
    (perform node.id effect : Evaluation σ ρ Unit).Ends (fun _ => True)
      (scene.Excuse limit id) := by
  intro host
  show Check.Ends _ _
    ((Services.perform effect host.services).1.mapError (EvalError.actionFailed node.id))
  cases (Services.perform effect host.services).1 with
  | ok _ => trivial
  | error cause =>
      rw [h.key]
      exact .refused cause h.here (h.kind.trans ha)

variable [RandomSource ρ]

/-- **A proper script ends as it promises, or with an excuse.** -/
theorem serve_ends {α : Type} {Q : α → Prop} (h : Serving scene limit child id node variant) :
    ∀ {script : Script α}, script.Proper variant Q →
      (scene.serve child node script).Ends Q (scene.Excuse limit id) := by
  intro script
  induction script with
  | done result => exact fun hp => .pure hp
  | fail why =>
      intro hp
      refine .throw ?_
      rw [h.key]
      cases hp with
      | reference reference => exact .dangling reference .refl
      | fact name => exact .fact name
  | argument param next ih =>
      intro hp
      obtain ⟨slot, hslot, hnext⟩ := hp
      exact .bind (h.argument_ends hslot) fun value ht => ih value (hnext value ht)
  | literal next ih => exact fun hp => ih node.literal (hp node.literal h.literal.symm)
  | resolve literal next ih =>
      intro hp
      rw [serve, h.key]
      exact .bind (resolve_ends literal) fun value ht => ih value (hp value ht)
  | facts next ih => exact fun hp => ih scene.facts (hp scene.facts)
  | region region next ih =>
      exact fun hp => .bind (h.region_ends region) fun found _ => ih found (hp found)
  | ask query next ih =>
      exact fun hp => .bind (P := fun _ => True) (fun _ => trivial) fun reply _ =>
        ih reply (hp reply)
  -- a proper rule performs only as an action
  | perform effect next ih =>
      exact fun hp => .bind (h.perform_ends hp.1 effect) fun _ _ => ih hp.2
  | roll low high next ih =>
      exact fun hp => .bind (P := fun _ => True) (fun _ => trivial) fun drawn _ =>
        ih drawn (hp drawn)

end Serving

/-! ## Evaluating a node -/

variable [RandomSource ρ]

/-- The nodes are what the registry says, and every registered variant is well typed. -/
structure WellTyped (scene : Scene) : Prop where
  registry : scene.registry.WellTyped
  conforms : Forest.Conforms scene.registry scene.scenario.forest
  linked : Forest.Linked scene.scenario.forest

namespace WellTyped

/-- What is in a slot has the type of the slot, so it is no action. -/
theorem kind_of_argument (h : scene.WellTyped) {slot : Param} {held : NodeId} {inner : Node}
    (hv : scene.registry.get? node.variant = some variant) (hp : variant.param? param = some slot)
    (hi : scene.scenario.forest.get? held = some inner) (ht : inner.result = slot.type) :
    inner.kind ≠ .action := by
  intro hk
  obtain ⟨own, ho, hkind, hresult, _⟩ := h.conforms.typed hi
  have hunit := (h.registry own (Registry.mem_of_get? ho)).action (hkind.symm.trans hk)
  have hne := (h.registry variant (Registry.mem_of_get? hv)).param slot
    (Variant.mem_of_param? hp).1
  exact hne (ht.symm.trans (hresult.trans hunit))

omit [Services σ] [RandomSource ρ] in
/-- The rule of a node can be served if evaluating what is in its slots respects types. -/
theorem serving (h : scene.WellTyped) {child : NodeId → Evaluation σ ρ Value}
    (hn : scene.scenario.forest.get? id = some node)
    (hv : scene.registry.get? node.variant = some variant)
    (hchild : ∀ {held inner}, scene.scenario.forest.get? held = some inner →
      (child held).Ends (fun value => value.type = inner.result) (scene.Excuse limit held)) :
    Serving scene limit child id node variant := by
  obtain ⟨own, ho, hkind, _, hliteral⟩ := h.conforms.typed hn
  cases hv.symm.trans ho
  have hw := h.registry variant (Registry.mem_of_get? hv)
  refine ⟨h.linked.key hn, hn, hv, hkind, hliteral, hw.fallback, ?_⟩
  intro param slot held hslot hheld
  obtain ⟨slot', inner, hslot', hi, ht⟩ := h.conforms.slots hn hv (Node.mem_of_argument? hheld)
  rw [hslot] at hslot'
  cases hslot'
  rw [← ht]
  -- an error of the child is one of the node, with the child below it
  exact (hchild hi).mono (fun _ hv => hv) fun error he =>
    he.lift (Forest.holds_of_argument? hn hheld) hi (h.kind_of_argument hv hslot hi ht)

/-- By induction on the levels that may still be entered. -/
theorem evaluateWithin_ends (h : scene.WellTyped) (limit remaining : Nat) :
    ∀ {id : NodeId} {node : Node}, scene.scenario.forest.get? id = some node →
      (scene.evaluateWithin limit remaining id : Evaluation σ ρ Value).Ends
        (fun value => value.type = node.result) (scene.Excuse limit id) := by
  induction remaining with
  | zero =>
      intro id node hn
      obtain ⟨variant, hv, _⟩ := h.conforms.typed hn
      rw [evaluateWithin, hn]
      simp only [hv]
      exact .throw .depth
  | succ remaining ih =>
      intro id node hn
      obtain ⟨variant, hv, _, hresult, _⟩ := h.conforms.typed hn
      have hw := h.registry variant (Registry.mem_of_get? hv)
      have hserving : Serving (σ := σ) (ρ := ρ) scene limit (scene.evaluateWithin limit remaining)
          id node variant := h.serving hn hv ih
      rw [evaluateWithin, hn]
      simp only [hv]
      refine .bind (hserving.serve_ends hw.rule) fun value ht => ?_
      have hfits : value.type = node.result := ht.trans hresult.symm
      rw [if_pos hfits]
      exact .pure hfits

theorem evaluateBool_ends (h : scene.WellTyped) (limit : Nat)
    (hn : scene.scenario.forest.get? id = some node)
    (ht : node.result = .bool) :
    (scene.evaluateBool limit id : Evaluation σ ρ Bool).Ends (fun _ => True)
      (scene.Excuse limit id) := by
  unfold evaluateBool evaluateAs
  rw [hn]
  simp only [ht]
  refine .bind (h.evaluateWithin_ends limit limit hn) fun value hv => ?_
  rw [ht] at hv
  cases value with
  | bool value => exact .pure trivial
  | _ => exact absurd hv (by simp [Value.type])

end WellTyped

end Scene

namespace Scenario

variable {σ ρ : Type} [Services σ] [RandomSource ρ] {registry : Registry} {scenario : Scenario}

/-- How the nodes of a script evaluate: each to a value of its type, or with an excuse. -/
structure Typed (scene : Scene) (limit : Nat) (host : Host σ ρ) : Prop where
  value : ∀ {id node}, scene.scenario.forest.get? id = some node →
    ∀ value, ((scene.evaluate limit id).runOn host).1 = .ok value → value.type = node.result
  node : ∀ {id node}, scene.scenario.forest.get? id = some node →
    scene.Excused limit id ((scene.evaluate limit id).runOn host).1
  condition : ∀ {trigger id}, trigger ∈ scene.scenario.triggers → id ∈ trigger.conditions →
    scene.Excused limit id ((scene.evaluateBool limit id).runOn host).1

theorem Reachable.wellTyped (h : Reachable registry scenario) (hr : registry.WellTyped)
    (facts : Facts) : Scene.WellTyped ⟨registry, scenario, facts⟩ :=
  ⟨hr, h.conforms.forest, h.owned.linked⟩

/-- What holds of well-typed scenes of built-in variants holds of reachable scripts. -/
theorem Reachable.of_builtin (h : Reachable .builtin scenario) (facts : Facts) {P : Scene → Prop}
    (hP : ∀ {registry}, registry = .builtin → Scene.WellTyped ⟨registry, scenario, facts⟩ →
      P ⟨registry, scenario, facts⟩) : P ⟨.builtin, scenario, facts⟩ :=
  hP rfl (h.wellTyped Registry.builtin_wellTyped facts)

theorem Reachable.typed (h : Reachable registry scenario) (hr : registry.WellTyped)
    (facts : Facts) (limit : Nat) (host : Host σ ρ) :
    Typed ⟨registry, scenario, facts⟩ limit host := by
  have hw := h.wellTyped hr facts
  refine ⟨fun hn value hv => ?_, fun hn => ?_, fun ht hc => ?_⟩
  · have hends := hw.evaluateWithin_ends limit limit hn host
    rw [Scene.evaluate] at hv
    rw [hv] at hends
    exact hends
  · exact Scene.Excuse.excused (hw.evaluateWithin_ends limit limit hn host)
  · obtain ⟨node, hn, ha⟩ := h.conforms.accepted ht .conditions hc
    have hbool : node.result = .bool := by
      simp only [Clause.accepts, Bool.and_eq_true, beq_iff_eq] at ha
      exact ha.1.1
    exact Scene.Excuse.excused (hw.evaluateBool_ends limit hn hbool host)

/-- **A reachable script of built-in variants evaluates to values of the declared types.** -/
theorem Reachable.evaluation (h : Reachable .builtin scenario) (facts : Facts) (limit : Nat)
    (host : Host σ ρ) : Typed ⟨.builtin, scenario, facts⟩ limit host :=
  h.typed Registry.builtin_wellTyped facts limit host

/-- Variants may be registered one by one, those that are refused left out. -/
theorem Reachable.offerAll (offered : List Variant) :
    ∀ {registry : Registry}, Reachable registry scenario →
      Reachable (registry.offerAll offered) scenario := by
  induction offered with
  | nil => exact fun h => h
  | cons new rest ih =>
      intro registry h
      refine ih ?_
      unfold Registry.offer
      split
      · rename_i grown hr
        exact h.register hr
      · exact h

theorem reachable_builtin (name : String) : Reachable .builtin (.empty name) := by
  rw [Registry.builtin, Registry.addBuiltins]
  exact (Reachable.empty name).offerAll _

/-- What requests make of an empty script and the built-in variants. -/
theorem reachable_requests (name : String) (requests : List Request)
    (h : Admits ⟨Builtin.variants⟩ (.empty name) requests) :
    Reachable .builtin
      (requests.foldl (fun scenario request => request.after ⟨Builtin.variants⟩ scenario)
        (.empty name)) := by
  have hempty := reachable_builtin name
  rw [Registry.builtin_eq] at hempty ⊢
  exact hempty.requests requests h

end Scenario

/-! ## An unfinished script

A comparison that stands among the conditions of a trigger, with only one of its operands. -/

namespace Unfinished

def requests : List Request :=
  [.addTrigger "check", .addDraft ⟨0⟩ .conditions "IntCompare",
    .createNode "IntValue" [] (some (.int 2)), .setArgument ⟨0⟩ "left" ⟨1⟩]

/-- The script. -/
def script : Scenario :=
  requests.foldl (fun scenario request => request.after ⟨Builtin.variants⟩ scenario)
    (.empty "unfinished")

theorem script_reachable : Scenario.Reachable .builtin script :=
  Scenario.reachable_requests "unfinished" requests (by decide +kernel)

def scene : Scene := ⟨.builtin, script, .empty .playerSpawned⟩

def host : Host World SeededRandom := ⟨World.empty, .ofSeed 0⟩

end Unfinished

namespace Scenario

/-- The operand that is there is an integer; the comparison lacks the other one. -/
theorem evaluation_unfinished :
    ((Unfinished.scene.evaluate 8 ⟨1⟩).runOn Unfinished.host).1 = .ok (.int 2) ∧
      ((Unfinished.scene.evaluateBool 8 ⟨0⟩).runOn Unfinished.host).1
        = .error (.missingArgument ⟨0⟩ "right") ∧
      Typed Unfinished.scene 8 Unfinished.host := by
  have htyped := Unfinished.script_reachable.evaluation (.empty .playerSpawned) 8 Unfinished.host
  refine ⟨?_, ?_, htyped⟩
  · rw [Unfinished.scene, Registry.builtin_eq]
    decide +kernel
  · rw [Unfinished.scene, Registry.builtin_eq]
    decide +kernel

end Scenario

end Rulebook
