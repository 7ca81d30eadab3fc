import Rulebook.Proofs.Evaluation.Order
import Rulebook.Proofs.Scenario.Insertion
import Rulebook.Proofs.Text.Order

/-!
# Comparisons of texts

A node that compares two texts evaluates them and then the operator, and says whether
the operator holds between them. How texts stand to each other does not depend on where
they come from: it is the order of their bytes, which is that of their characters.
-/

namespace Rulebook

namespace Builtin

/-- The parameters of a comparison of texts. -/
def textOperands : List Param :=
  [{ name := "left", type := .text }, { name := "right", type := .text },
    { name := "comparator", type := .comparator, fallback := some (.comparator .equal) }]

/-- The variant of comparisons of texts. -/
def textComparison : Variant :=
  conditional "StringCompare" stringCompare textOperands
    "\x7bleft\x7d \x7bcomparator\x7d \x7bright\x7d"

end Builtin

/-- The names of texts, operators and comparisons of texts. -/
def textNames : List VariantId := ["StringValue", "ComparatorValue", "StringCompare"]

namespace Registry

variable {registry : Registry}

theorem Knows.text (h : registry.Knows textNames) :
    registry.get? "StringValue" = some (Builtin.valueVariant "StringValue" .text) := by
  rw [h _ (by simp [textNames]), builtin_eq]
  rfl

theorem Knows.operator (h : registry.Knows textNames) :
    registry.get? "ComparatorValue"
      = some (Builtin.valueVariant "ComparatorValue" .comparator) := by
  rw [h _ (by simp [textNames]), builtin_eq]
  rfl

theorem Knows.comparison (h : registry.Knows textNames) :
    registry.get? "StringCompare" = some Builtin.textComparison := by
  rw [h _ (by simp [textNames]), builtin_eq]
  rfl

end Registry

namespace NodeTree

/-- A text as a tree. -/
def text (value : String) : NodeTree := ⟨"StringValue", some (.text value), []⟩

/-- An operator as a tree. -/
def operator (sign : Comparator) : NodeTree := ⟨"ComparatorValue", some (.comparator sign), []⟩

/-- Two texts that are compared, by an operator or by the one that is understood. -/
def comparison (a b : String) (sign : Option Comparator) : NodeTree :=
  ⟨"StringCompare", none,
    (sign.map fun c => ("comparator", operator c)).toList ++ [("left", text a), ("right", text b)]⟩

variable {a b : String} {sign : Option Comparator}

theorem lookup_left : (comparison a b sign).arguments.lookup "left" = some (text a) := by
  cases sign <;> rfl

theorem lookup_right : (comparison a b sign).arguments.lookup "right" = some (text b) := by
  cases sign <;> rfl

theorem lookup_comparator :
    (comparison a b sign).arguments.lookup "comparator" = sign.map operator := by
  cases sign <;> rfl

/-- Any two texts can be compared. -/
theorem comparison_fits {registry : Registry} (h : registry.Knows textNames) (a b : String)
    (sign : Option Comparator) : (comparison a b sign).Fits registry := by
  have hvalue : ∀ {name : VariantId} {literal : Literal},
      registry.get? name = some (Builtin.valueVariant name literal.type) →
      Fits registry ⟨name, some literal, []⟩ := fun hv => .node hv rfl nofun nofun
  have hslots : ∀ slot ∈ (comparison a b sign).arguments,
      SlotFits registry Builtin.textComparison slot ∧ slot.2.Fits registry := by
    intro slot hm
    simp only [comparison, List.mem_append, Option.mem_toList, Option.map_eq_some_iff,
      List.mem_cons, List.not_mem_nil, or_false] at hm
    rcases hm with ⟨c, _, rfl⟩ | rfl | rfl
    · exact ⟨⟨_, _, rfl, h.operator, rfl⟩, hvalue h.operator⟩
    · exact ⟨⟨_, _, rfl, h.text, rfl⟩, hvalue h.text⟩
    · exact ⟨⟨_, _, rfl, h.text, rfl⟩, hvalue h.text⟩
  exact .node h.comparison rfl (fun slot hm => (hslots slot hm).1) fun slot hm => (hslots slot hm).2

end NodeTree

theorem Value.text?_eq_some {value : Value} {a : String} :
    value.text? = some a ↔ value = .text a := by
  cases value <;> simp [text?]

theorem Value.comparator?_eq_some {value : Value} {sign : Comparator} :
    value.comparator? = some sign ↔ value = .comparator sign := by
  cases value <;> simp [comparator?]

namespace Scene

section Comparing

variable {σ ρ : Type} [Services σ] [RandomSource ρ] {scene : Scene} {limit levels : Nat}
  {id : NodeId} {node : Node} {child : NodeId → Evaluation σ ρ Value} {host after : Host σ ρ}
  {value : Value} {a b : String}

/-- A rule that asks for an argument of a type goes on if it gets one. -/
theorem serve_argOf_ok {α : Type} {type : ValueType} {pick : Value → Option α} {param : String}
    {next : α → Rule} :
    (scene.serve child node (Script.argOf type pick param >>= next)).runOn host = (.ok value, after)
      ↔ ∃ got a mid, (scene.argument child node param).runOn host = (.ok got, mid) ∧
        pick got = some a ∧ (scene.serve child node (next a)).runOn mid = (.ok value, after) := by
  show (scene.argument child node param >>= _).runOn host = _ ↔ _
  rw [Attempt.bind_ok]
  constructor
  · intro ⟨got, mid, hgot, hrest⟩
    cases hp : pick got with
    | some a =>
        simp only [Script.andThen, hp] at hrest
        exact ⟨got, a, mid, hgot, hp, hrest⟩
    | none =>
        simp only [Script.andThen, hp] at hrest
        exact absurd (Prod.mk.inj hrest).1 nofun
  · intro ⟨got, a, mid, hgot, hp, hrest⟩
    refine ⟨got, mid, hgot, ?_⟩
    simp only [Script.andThen, hp]
    exact hrest

/-- What a comparison of texts gets for its arguments, one after the other. -/
def Operands (scene : Scene) (child : NodeId → Evaluation σ ρ Value) (node : Node) (a b : String)
    (sign : Comparator) (host after : Host σ ρ) : Prop :=
  ∃ first second, (scene.argument child node "left").runOn host = (.ok (.text a), first) ∧
    (scene.argument child node "right").runOn first = (.ok (.text b), second) ∧
    (scene.argument child node "comparator").runOn second = (.ok (.comparator sign), after)

theorem serve_stringCompare_ok :
    (scene.serve child node Builtin.stringCompare).runOn host = (.ok value, after) ↔
      ∃ a b sign, scene.Operands child node a b sign host after ∧
        value = .bool (sign.holdsText a b) := by
  unfold Builtin.stringCompare Script.textArg Script.comparatorArg
  simp only [serve_argOf_ok, Value.text?_eq_some, Value.comparator?_eq_some]
  constructor
  · rintro ⟨_, a, first, ha, rfl, _, b, second, hb, rfl, _, sign, third, hsign, rfl, hrest⟩
    obtain ⟨hvalue, rfl⟩ := Prod.mk.inj hrest
    exact ⟨a, b, sign, ⟨first, second, ha, hb, hsign⟩, (Except.ok.inj hvalue).symm⟩
  · rintro ⟨a, b, sign, ⟨first, second, ha, hb, hsign⟩, rfl⟩
    exact ⟨_, a, first, ha, rfl, _, b, second, hb, rfl, _, sign, after, hsign, rfl, rfl⟩

namespace Versed

theorem evaluate_comparison (h : scene.Versed textNames)
    (hn : scene.scenario.forest.get? id = some node)
    (hname : node.variant = "StringCompare") (limit levels : Nat) (host : Host σ ρ) :
    (scene.evaluateWithin limit (levels + 1) id).runOn host
      = (scene.serve (scene.evaluateWithin limit levels) node Builtin.stringCompare).runOn
          host := by
  have hv : scene.registry.get? node.variant = some Builtin.textComparison := by
    rw [hname]
    exact h.registry.comparison
  obtain ⟨own, ho, _, hresult, _⟩ := h.conforms.typed hn
  cases hv.symm.trans ho
  refine evaluateWithin_of_serve hn hv rfl fun value he => ?_
  obtain ⟨a, b, sign, _, rfl⟩ := serve_stringCompare_ok.mp (Prod.ext he rfl)
  exact hresult.symm

/-- Texts that stand in the slots are what is compared, and if no operator does, it is equality. -/
theorem operands_of_shows (h : scene.Versed textNames) {sign : Option Comparator}
    (hs : scene.scenario.forest.Shows id (.comparison a b sign))
    (hn : scene.scenario.forest.get? id = some node) (limit levels : Nat) (host : Host σ ρ) :
    scene.Operands (scene.evaluateWithin limit (levels + 1)) node a b (sign.getD .equal) host
      host := by
  have hleft := h.argument_of_shows hs hn NodeTree.lookup_left h.registry.text rfl limit levels host
  have hright :=
    h.argument_of_shows hs hn NodeTree.lookup_right h.registry.text rfl limit levels host
  refine ⟨host, host, hleft, hright, ?_⟩
  cases sign with
  | some c =>
      exact h.argument_of_shows hs hn NodeTree.lookup_comparator h.registry.operator rfl limit
        levels host
  | none =>
      have hnone : node.argument? "comparator" = none :=
        (hs.lookup_eq_none h.linked hn).mp NodeTree.lookup_comparator
      obtain ⟨hvariant, _⟩ := Prod.mk.inj (hs.top hn)
      have hv : scene.registry.get? node.variant = some Builtin.textComparison := by
        rw [← hvariant]
        exact h.registry.comparison
      rw [argument, hnone, hv]
      exact resolve_constant rfl host

end Versed

end Comparing

/-- How texts are compared in a script, on any host. -/
structure ComparesTexts (scene : Scene) : Prop where
  /-- A comparison that comes to anything gets two texts and an operator, and says whether the
  operator holds between them. -/
  decides : ∀ {σ ρ : Type} [Services σ] [RandomSource ρ] {id node},
    scene.scenario.forest.get? id = some node → node.variant = "StringCompare" →
    ∀ limit levels (host after : Host σ ρ) value,
      (scene.evaluateWithin limit (levels + 1) id).runOn host = (.ok value, after) ↔
        ∃ a b sign,
          scene.Operands (scene.evaluateWithin limit levels) node a b sign host after ∧
          value = .bool (sign.holdsText a b)
  /-- The two texts may stand in the slots, with any operator, or none for equality. -/
  literal : ∀ {σ ρ : Type} [Services σ] [RandomSource ρ] {id a b sign},
    scene.scenario.forest.snapshot id = some (.comparison a b sign) →
    ∀ limit levels (host : Host σ ρ), (scene.evaluateWithin limit (levels + 2) id).runOn host
      = (.ok (.bool ((sign.getD .equal).holdsText a b)), host)
  /-- Any texts may be put there. -/
  fits : ∀ a b sign, (NodeTree.comparison a b sign).Fits scene.registry
  /-- The operators go by the order of the texts. -/
  order : Comparator.OrdersTexts

theorem ComparesTexts.of_versed {scene : Scene} (h : scene.Versed textNames) :
    ComparesTexts scene := by
  refine ⟨?decides, ?literal, NodeTree.comparison_fits h.registry, Comparator.ordersTexts⟩
  case decides =>
    intro σ ρ _ _ id node hn hname limit levels host after value
    rw [h.evaluate_comparison hn hname]
    exact serve_stringCompare_ok
  case literal =>
    intro σ ρ _ _ id a b sign hs limit levels host
    have hshows := h.linked.snapshot_iff.mp hs
    obtain ⟨node, hn⟩ := hshows.exists_node
    obtain ⟨hvariant, _⟩ := Prod.mk.inj (hshows.top hn)
    rw [h.evaluate_comparison hn hvariant.symm]
    exact serve_stringCompare_ok.mpr
      ⟨a, b, _, h.operands_of_shows hshows hn limit levels host, rfl⟩

end Scene

namespace Scenario

variable {registry : Registry} {scenario : Scenario}

/-- **Comparisons of texts go by the order of their bytes**, in a reachable script whose registry
has the built-in ones, with whatever variants beside them. -/
theorem Reachable.comparesTexts (h : Reachable registry scenario) (hr : registry.Knows textNames)
    (facts : Facts) : Scene.ComparesTexts ⟨registry, scenario, facts⟩ :=
  .of_versed ⟨hr, h.conforms.forest, h.owned.linked⟩

end Scenario

/-! ## Beyond the first plane

A character with a high number, and one with a higher number that needs two units in UTF-16, both
of which are lower. -/

namespace HighPlane

def requests : List Request := [.insertTree (.comparison "\uFFFD" "😀" (some .less))]

/-- The script. -/
def script : Scenario :=
  requests.foldl (fun scenario request => request.after ⟨Builtin.variants⟩ scenario)
    (.empty "high plane")

theorem script_reachable : Scenario.Reachable .builtin script :=
  Scenario.reachable_requests "high plane" requests (by decide +kernel)

def scene : Scene := ⟨.builtin, script, .empty .playerSpawned⟩

def host : Host World SeededRandom := ⟨World.empty, .ofSeed 0⟩

end HighPlane

namespace Scenario

/-- The one with the higher number is the greater. -/
theorem comparesTexts_highPlane :
    Scene.ComparesTexts HighPlane.scene ∧
      (HighPlane.scene.evaluate 2 ⟨0⟩).runOn HighPlane.host = (.ok (.bool true), HighPlane.host) ∧
      Text.Precedes (Text.utf8 "\uFFFD") (Text.utf8 "😀") := by
  have h := HighPlane.script_reachable.comparesTexts (Registry.knows_builtin _)
    (.empty .playerSpawned)
  have hs : HighPlane.script.forest.snapshot ⟨0⟩
      = some (.comparison "\uFFFD" "😀" (some .less)) := by decide +kernel
  have hless : Comparator.less.holdsText "\uFFFD" "😀" = true := by decide +kernel
  refine ⟨h, ?_, (h.order.bytes _ _).mp hless⟩
  rw [← hless]
  exact h.literal hs 2 0 HighPlane.host

end Scenario

end Rulebook
