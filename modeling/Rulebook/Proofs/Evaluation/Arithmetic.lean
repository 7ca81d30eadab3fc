import Rulebook.Proofs.Evaluation.Depth
import Rulebook.Proofs.Integer
import Rulebook.Proofs.Scenario.Dice

/-!
# Arithmetic

Integers, sums and differences can be put together to a calculation of any shape.
It comes to what one gets with integers that have no bounds, if every result on
the way is clamped to the range of 64 bits before the calculation goes on. So it
is exact if everything in it would stay in the range, and otherwise its shape may
matter: one more and one less than the greatest integer is not the greatest
integer, although one less and one more is.
-/

namespace Rulebook

/-! ## Calculations on paper -/

/-- The names of integers, sums and differences. -/
def arithmeticNames : List VariantId := ["IntValue", "AddInt", "SubtractInt"]

/-- What is done with two integers. -/
inductive IntOperation where
  | sum
  | difference

namespace IntOperation

/-- The exact result. -/
def exactly : IntOperation → Int → Int → Int
  | sum, a, b => a + b
  | difference, a, b => a - b

/-- The result in a script. -/
def stopped : IntOperation → Int64 → Int64 → Int64
  | sum => saturatingAdd
  | difference => saturatingSub

theorem toInt_stopped (operation : IntOperation) (a b : Int64) :
    (operation.stopped a b).toInt = clamp (operation.exactly a.toInt b.toInt) := by
  cases operation with
  | sum => exact toInt_saturatingAdd a b
  | difference => exact toInt_saturatingSub a b

/-- The parameters for the two integers. -/
def operands : List Param := [{ name := "left", type := .int }, { name := "right", type := .int }]

/-- The variant of the nodes that do it. -/
def variant : IntOperation → Variant
  | sum =>
    Builtin.expression "AddInt" .int Builtin.addInt operands "(\x7bleft\x7d + \x7bright\x7d)"
  | difference =>
    Builtin.expression "SubtractInt" .int Builtin.subtractInt operands
      "(\x7bleft\x7d - \x7bright\x7d)"

/-- A variant of arithmetic is that of integers or does something with two of them. -/
theorem of_mem {name : VariantId} (h : name ∈ arithmeticNames) :
    name = "IntValue" ∨ ∃ operation : IntOperation, name = operation.variant.id := by
  simp only [arithmeticNames, List.mem_cons, List.not_mem_nil, or_false] at h
  rcases h with h | h | h
  · exact .inl h
  · exact .inr ⟨.sum, h⟩
  · exact .inr ⟨.difference, h⟩

theorem id_mem (operation : IntOperation) : operation.variant.id ∈ arithmeticNames := by
  cases operation with
  | sum | difference => decide

theorem result_variant (operation : IntOperation) : operation.variant.result = .int := by
  cases operation with
  | sum | difference => rfl

theorem params_variant (operation : IntOperation) : operation.variant.params = operands := by
  cases operation with
  | sum | difference => rfl

theorem literal_variant (operation : IntOperation) : operation.variant.literal = none := by
  cases operation with
  | sum | difference => rfl

theorem param?_of_mem (operation : IntOperation) {param : Param} (h : param ∈ operands) :
    operation.variant.param? param.name = some param ∧ param.isRequired = true := by
  rw [Variant.param?, operation.params_variant]
  revert h
  revert param
  decide

theorem param?_eq_none (operation : IntOperation) {name : String} (hleft : name ≠ "left")
    (hright : name ≠ "right") : operation.variant.param? name = none := by
  rw [Variant.param?, operation.params_variant]
  simp [operands, hleft.symm, hright.symm]

end IntOperation

namespace Registry

variable {registry : Registry}

theorem Knows.number (h : registry.Knows arithmeticNames) :
    registry.get? "IntValue" = some (Builtin.valueVariant "IntValue" .int) := by
  rw [h "IntValue" List.mem_cons_self, builtin_eq]
  rfl

theorem Knows.operation (h : registry.Knows arithmeticNames) (operation : IntOperation) :
    registry.get? operation.variant.id = some operation.variant := by
  rw [h _ operation.id_mem, builtin_eq]
  cases operation with
  | sum | difference => rfl

end Registry

/-- A calculation with integers, of any shape. -/
inductive Calculation where
  | number (value : Int64)
  | combine (operation : IntOperation) (left right : Calculation)

namespace Calculation

/-- The calculation as a tree of nodes. -/
def tree : Calculation → NodeTree
  | number value => .int value
  | combine operation left right =>
    ⟨operation.variant.id, none, [("left", left.tree), ("right", right.tree)]⟩

/-- What it comes to without bounds. -/
def exact : Calculation → Int
  | number value => value.toInt
  | combine operation left right => operation.exactly left.exact right.exact

/-- What it comes to without bounds if every sum and difference is clamped at once. -/
def clamped : Calculation → Int
  | number value => value.toInt
  | combine operation left right => clamp (operation.exactly left.clamped right.clamped)

/-- What it comes to in a script. -/
def value : Calculation → Int64
  | number value => value
  | combine operation left right => operation.stopped left.value right.value

/-- The calculations in it, with itself. -/
def parts : Calculation → List Calculation
  | number value => [number value]
  | combine operation left right => combine operation left right :: (left.parts ++ right.parts)

theorem self_mem_parts (calculation : Calculation) : calculation ∈ calculation.parts := by
  cases calculation with
  | number value => exact List.mem_singleton_self _
  | combine operation left right => exact List.mem_cons_self

theorem toInt_value (calculation : Calculation) :
    calculation.value.toInt = calculation.clamped := by
  induction calculation with
  | number value => rfl
  | combine operation left right ihl ihr =>
      rw [value, operation.toInt_stopped, ihl, ihr, clamped]

/-- **What stays in the range is exact.** -/
theorem clamped_eq_exact {calculation : Calculation}
    (h : ∀ part ∈ calculation.parts, FitsInt64 part.exact) :
    calculation.clamped = calculation.exact := by
  induction calculation with
  | number value => rfl
  | combine operation left right ihl ihr =>
      have hself : FitsInt64 (operation.exactly left.exact right.exact) := h _ (self_mem_parts _)
      have hleft : left.clamped = left.exact := ihl fun part hp =>
        h part (List.mem_cons_of_mem _ (List.mem_append_left _ hp))
      have hright : right.clamped = right.exact := ihr fun part hp =>
        h part (List.mem_cons_of_mem _ (List.mem_append_right _ hp))
      rw [clamped, hleft, hright, clamp_of_fitsInt64 hself, exact]

end Calculation

/-! ## Calculations of a script -/

namespace Scene

section Calculating

variable {σ ρ : Type} [Services σ] [RandomSource ρ] {scene : Scene} {limit levels : Nat}
  {id : NodeId}

/-- A sum or difference has both its operands evaluated, the left one first. -/
theorem serve_operation (operation : IntOperation) {child : NodeId → Evaluation σ ρ Value}
    {node : Node} {first second : NodeId} {a b : Int64} {host : Host σ ρ}
    (hfirst : node.argument? "left" = some first) (hsecond : node.argument? "right" = some second)
    (ha : (child first).runOn host = (.ok (.int a), host))
    (hb : (child second).runOn host = (.ok (.int b), host)) :
    (scene.serve child node operation.variant.rule).runOn host
      = (.ok (.int (operation.stopped a b)), host) := by
  have hleft : (scene.argument child node "left").runOn host = (.ok (.int a), host) := by
    rw [argument, hfirst]
    exact ha
  have hright : (scene.argument child node "right").runOn host = (.ok (.int b), host) := by
    rw [argument, hsecond]
    exact hb
  cases operation with
  | sum | difference =>
      show (scene.argument child node "left" >>= _).runOn host = _
      rw [Attempt.runOn_bind, hleft]
      show (scene.argument child node "right" >>= _).runOn host = _
      rw [Attempt.runOn_bind, hright]
      rfl

/-- The node and all below it are integers, sums and differences. -/
def IsArithmetic (scene : Scene) (id : NodeId) : Prop :=
  ∀ x node, scene.scenario.forest.Below id x → scene.scenario.forest.get? x = some node →
    node.variant ∈ arithmeticNames

namespace Versed

/-- **A calculation comes to its value** within as many levels as it is deep, and nothing else
happens. -/
theorem evaluate_calculation (h : scene.Versed arithmeticNames) (calculation : Calculation)
    (limit : Nat) (hs : scene.scenario.forest.Shows id calculation.tree)
    (hd : calculation.tree.depth ≤ levels) (host : Host σ ρ) :
    (scene.evaluateWithin limit levels id).runOn host = (.ok (.int calculation.value), host) := by
  induction calculation generalizing id levels with
  | number value =>
      obtain ⟨fewer, rfl⟩ :=
        Nat.exists_eq_add_one.mpr (Nat.lt_of_lt_of_le (NodeTree.depth_pos _) hd)
      exact evaluate_valueVariant hs h.conforms h.registry.number rfl limit fewer host
  | combine operation left right ihl ihr =>
      obtain ⟨fewer, rfl⟩ :=
        Nat.exists_eq_add_one.mpr (Nat.lt_of_lt_of_le (NodeTree.depth_pos _) hd)
      obtain ⟨node, hn⟩ := hs.exists_node
      obtain ⟨hvariant, _⟩ := Prod.mk.inj (hs.top hn)
      have hv : scene.registry.get? node.variant = some operation.variant := by
        rw [← hvariant]
        exact h.registry.operation operation
      obtain ⟨own, ho, _, hresult, _⟩ := h.conforms.typed hn
      cases hv.symm.trans ho
      -- each operand stands in its slot and is evaluated one level deeper
      have hoperand : ∀ (name : String) (operand : Calculation),
          [("left", left.tree), ("right", right.tree)].lookup name = some operand.tree →
            ∃ held, node.argument? name = some held ∧
              scene.scenario.forest.Shows held operand.tree ∧ operand.tree.depth ≤ fewer := by
        intro name operand hi
        obtain ⟨held, hheld, hinner⟩ := (hs.lookup h.linked hn).mp hi
        exact ⟨held, hheld, hinner,
          Nat.le_of_lt_succ (Nat.lt_of_lt_of_le (NodeTree.depth_lt_of_lookup hi) hd)⟩
      obtain ⟨first, hfirst, hleft, hless⟩ := hoperand "left" left rfl
      obtain ⟨second, hsecond, hright, hless'⟩ := hoperand "right" right rfl
      refine evaluateWithin_of_serve hn hv (serve_operation operation hfirst hsecond
        (ihl hleft hless) (ihr hright hless')) fun value he => ?_
      cases he
      exact (hresult.trans operation.result_variant).symm

/-- An integer is the tree of a number. -/
theorem tree_of_intValue (h : scene.Versed arithmeticNames) {tree : NodeTree}
    {node : Node} (hs : scene.scenario.forest.Shows id tree)
    (hn : scene.scenario.forest.get? id = some node) (hname : node.variant = "IntValue") :
    ∃ value, tree = .int value := by
  have hv : scene.registry.get? node.variant = some (Builtin.valueVariant "IntValue" .int) := by
    rw [hname]
    exact h.registry.number
  obtain ⟨variant, literal, arguments⟩ := tree
  obtain ⟨rfl, rfl⟩ := Prod.mk.inj (hs.top hn)
  obtain ⟨own, ho, _, _, hliteral⟩ := h.conforms.typed hn
  cases hv.symm.trans ho
  obtain ⟨literal, hl, ht⟩ := Option.map_eq_some_iff.mp hliteral.symm
  -- the variant declares no slots, so the tree can have none
  have hslots : arguments = [] :=
    NodeTree.eq_of_lookup (hs.ordered h.linked).slots .nil fun name =>
      h.lookup_undeclared hs hn hv rfl
  cases literal with
  | int value => exact ⟨value, by rw [hname, hl, hslots, NodeTree.int]⟩
  | _ => exact absurd ht (by simp [Literal.type])

/-- A sum or difference is made of what it has in its two slots. -/
theorem tree_of_operation (h : scene.Versed arithmeticNames)
    {operation : IntOperation} {tree left right : NodeTree} {node : Node}
    (hs : scene.scenario.forest.Shows id tree) (hn : scene.scenario.forest.get? id = some node)
    (hname : node.variant = operation.variant.id)
    (hleft : tree.arguments.lookup "left" = some left)
    (hright : tree.arguments.lookup "right" = some right) :
    tree = ⟨operation.variant.id, none, [("left", left), ("right", right)]⟩ := by
  have hv : scene.registry.get? node.variant = some operation.variant := by
    rw [hname]
    exact h.registry.operation operation
  obtain ⟨variant, literal, arguments⟩ := tree
  obtain ⟨rfl, rfl⟩ := Prod.mk.inj (hs.top hn)
  obtain ⟨own, ho, _, _, hliteral⟩ := h.conforms.typed hn
  cases hv.symm.trans ho
  have hnone : node.literal = none :=
    Option.map_eq_none_iff.mp (hliteral.symm.trans operation.literal_variant)
  have hnames : (["left", "right"] : List String).Pairwise (· < ·) := by decide
  -- slots come in order of name, so knowing what each name holds is knowing them all
  have hslots : arguments = [("left", left), ("right", right)] := by
    refine NodeTree.eq_of_lookup (hs.ordered h.linked).slots hnames fun name => ?_
    by_cases hfirst : name = "left"
    · rw [hfirst]
      exact hleft
    · by_cases hsecond : name = "right"
      · rw [hsecond]
        exact hright
      · have hundeclared := operation.param?_eq_none hfirst hsecond
        rw [h.lookup_undeclared hs hn hv hundeclared, lookup_slot, if_neg hfirst, lookup_slot,
          if_neg hsecond]
        rfl
  rw [hname, hnone, hslots]

/-- **A tree of integers, sums and differences** in which nothing is missing is a calculation. -/
theorem exists_calculation (h : scene.Versed arithmeticNames) {tree : NodeTree}
    (hs : scene.scenario.forest.Shows id tree) (ha : scene.IsArithmetic id)
    (hc : ∀ x param, ¬ scene.Lacks id x param) :
    ∃ calculation : Calculation, tree = calculation.tree := by
  induction tree using NodeTree.slot_induction generalizing id with
  | node variant literal arguments ih =>
      obtain ⟨node, hn⟩ := hs.exists_node
      rcases IntOperation.of_mem (ha id node .refl hn) with hnumber | ⟨operation, hname⟩
      · obtain ⟨value, hvalue⟩ := h.tree_of_intValue hs hn hnumber
        exact ⟨.number value, hvalue⟩
      · have hv : scene.registry.get? node.variant = some operation.variant := by
          rw [hname]
          exact h.registry.operation operation
        -- no operand is missing, and each is a calculation
        have hoperand : ∀ param ∈ IntOperation.operands, ∃ operand : Calculation,
            arguments.lookup param.name = some operand.tree := by
          intro param hp
          obtain ⟨hparam, hrequired⟩ := operation.param?_of_mem hp
          cases hheld : node.argument? param.name with
          | none =>
              have hlacks : scene.Lacks id id param.name :=
                ⟨.refl, node, _, param, hn, hv, hparam, hrequired, hheld⟩
              exact absurd hlacks (hc id param.name)
          | some held =>
              have hholds := Forest.holds_of_argument? hn hheld
              obtain ⟨inner, hi, hinner⟩ := hs.exists_inner h.linked hn hheld
              have hmem : (param.name, inner) ∈ arguments :=
                (NodeTree.mem_iff_lookup (hs.ordered h.linked).slots).mpr hi
              obtain ⟨operand, rfl⟩ := ih _ hmem hinner
                (fun x node hx => ha x node (.head hholds hx))
                fun x param hx => hc x param ⟨.head hholds hx.1, hx.2⟩
              exact ⟨operand, hi⟩
        obtain ⟨left, hleft⟩ := hoperand _ List.mem_cons_self
        obtain ⟨right, hright⟩ := hoperand _ (List.mem_cons_of_mem _ List.mem_cons_self)
        exact ⟨.combine operation left right, h.tree_of_operation hs hn hname hleft hright⟩

end Versed

end Calculating

/-- What arithmetic comes to in a script, on any host. -/
structure Calculates (scene : Scene) : Prop where
  /-- Nothing but a value comes of a calculation. Every result on the way to it is clamped, and it
  is exact if that of every part would be in the range. -/
  value : ∀ {σ ρ : Type} [Services σ] [RandomSource ρ] {id} {calculation : Calculation},
    scene.scenario.forest.snapshot id = some calculation.tree →
    ∀ limit, calculation.tree.depth ≤ limit → ∀ host : Host σ ρ,
      ∃ value, (scene.evaluate limit id).runOn host = (.ok (.int value), host) ∧
        value.toInt = calculation.clamped ∧
        ((∀ part ∈ calculation.parts, FitsInt64 part.exact) → value.toInt = calculation.exact)
  /-- Whatever is built of such nodes and of no others is a calculation once it is complete. -/
  complete : ∀ {id node}, scene.scenario.forest.get? id = some node → scene.IsArithmetic id →
    (∀ x param, ¬ scene.Lacks id x param) →
    ∃ calculation : Calculation, scene.scenario.forest.snapshot id = some calculation.tree

theorem Calculates.of_versed {scene : Scene} (h : scene.Versed arithmeticNames) :
    Calculates scene := by
  refine ⟨?value, ?complete⟩
  case value =>
    intro σ ρ _ _ id calculation hs limit hd host
    have hrun := h.evaluate_calculation calculation limit (h.linked.snapshot_iff.mp hs) hd host
    refine ⟨_, hrun, calculation.toInt_value, fun hparts => ?_⟩
    rw [calculation.toInt_value, Calculation.clamped_eq_exact hparts]
  case complete =>
    intro id node hn ha hc
    obtain ⟨tree, ht⟩ := h.linked.exists_shows hn
    obtain ⟨calculation, rfl⟩ := h.exists_calculation (h.linked.snapshot_iff.mp ht) ha hc
    exact ⟨calculation, ht⟩

end Scene

namespace Scenario

variable {registry : Registry} {scenario : Scenario}

/-- **Arithmetic stops at the ends of the range and is otherwise exact**, in a reachable script
whose registry has the built-in arithmetic, with whatever variants beside it. -/
theorem Reachable.calculates (h : Reachable registry scenario) (hr : registry.Knows arithmeticNames)
    (facts : Facts) : Scene.Calculates ⟨registry, scenario, facts⟩ :=
  .of_versed ⟨hr, h.conforms.forest, h.owned.linked⟩

end Scenario

/-! ## At the ends of the range

The greatest integer, of which one more is one less than expected when one is taken off again; and
minus one less the least integer, which is the greatest. -/

namespace Brink

def requests : List Request :=
  [.createNode "IntValue" [] (some (.int Int64.maxValue)),
    .createNode "IntValue" [] (some (.int 1)),
    .createNode "AddInt" [("left", ⟨0⟩), ("right", ⟨1⟩)] none,
    .createNode "IntValue" [] (some (.int 1)),
    .createNode "SubtractInt" [("left", ⟨2⟩), ("right", ⟨3⟩)] none,
    .createNode "IntValue" [] (some (.int (-1))),
    .createNode "IntValue" [] (some (.int Int64.minValue)),
    .createNode "SubtractInt" [("left", ⟨5⟩), ("right", ⟨6⟩)] none]

/-- The script. -/
def script : Scenario :=
  requests.foldl (fun scenario request => request.after ⟨Builtin.variants⟩ scenario)
    (.empty "brink")

theorem script_reachable : Scenario.Reachable .builtin script :=
  Scenario.reachable_requests "brink" requests (by decide +kernel)

def scene : Scene := ⟨.builtin, script, .empty .playerSpawned⟩

def host : Host World SeededRandom := ⟨World.empty, .ofSeed 0⟩

/-- One more and one less. -/
def backAndForth : Calculation :=
  .combine .difference (.combine .sum (.number Int64.maxValue) (.number 1)) (.number 1)

/-- The least integer, taken off. -/
def negation : Calculation := .combine .difference (.number (-1)) (.number Int64.minValue)

end Brink

namespace Scenario

/-- The sum was stopped on the way, and the difference is exact. -/
theorem calculates_brink :
    Scene.Calculates Brink.scene ∧
      (∃ value, (Brink.scene.evaluate 3 ⟨4⟩).runOn Brink.host = (.ok (.int value), Brink.host) ∧
        value.toInt = Int64.maxValue.toInt - 1) ∧
      ∃ value, (Brink.scene.evaluate 2 ⟨7⟩).runOn Brink.host = (.ok (.int value), Brink.host) ∧
        value.toInt = Int64.maxValue.toInt := by
  have h := Brink.script_reachable.calculates (Registry.knows_builtin _)
    (.empty .playerSpawned)
  have hback : Brink.script.forest.snapshot ⟨4⟩ = some Brink.backAndForth.tree := by decide +kernel
  have hnegation : Brink.script.forest.snapshot ⟨7⟩ = some Brink.negation.tree := by decide +kernel
  obtain ⟨stopped, hstopped, hclamped, _⟩ := h.value hback 3 (by decide) Brink.host
  obtain ⟨greatest, hgreatest, _, hexact⟩ := h.value hnegation 2 (by decide) Brink.host
  exact ⟨h, ⟨stopped, hstopped, hclamped⟩, greatest, hgreatest, hexact (by decide)⟩

end Scenario

end Rulebook
