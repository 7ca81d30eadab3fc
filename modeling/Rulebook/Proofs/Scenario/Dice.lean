import Rulebook.Proofs.Evaluation.Order
import Rulebook.Proofs.Random.Sampling

/-!
# Random integers of a script

A node that asks for a random integer evaluates its two bounds and draws from the
interval between them, whichever of the two is the lower one. So the integer lies in
the interval, nothing but the random source is changed by the draw, and the bounds
may as well stand in each other's place. If the words of the source are as good as
random, so is the integer: as many words stand for one integer as for another.
-/

namespace Rulebook

/-! ## The interval between two bounds -/

theorem lesser_swap (a b : Int64) : min a b = min b a := by
  show (if a ≤ b then a else b) = if b ≤ a then b else a
  rcases Int64.le_total a b with h | h
  · grind
  · grind

theorem greater_swap (a b : Int64) : max a b = max b a := by
  show (if a ≤ b then b else a) = if b ≤ a then a else b
  rcases Int64.le_total a b with h | h
  · grind
  · grind

theorem lesser_le_greater (a b : Int64) : min a b ≤ max a b := by
  show (if a ≤ b then a else b) ≤ if a ≤ b then b else a
  split
  · assumption
  · rename_i h
    exact (Int64.le_total a b).resolve_left h

namespace Builtin

/-- The parameters of a random integer. -/
def bounds : List Param := [{ name := "low", type := .int }, { name := "high", type := .int }]

/-- The variant of random integers. -/
def dice : Variant :=
  expression "RandomInt" .int randomInt bounds "random number between \x7blow\x7d and \x7bhigh\x7d"

theorem get?_dice : Registry.builtin.get? "RandomInt" = some dice := by
  rw [Registry.builtin_eq]
  rfl

theorem dice_not_connective : ¬ IsConnective dice.id := not_or.mpr ⟨by decide, by decide⟩

end Builtin

namespace NodeTree

/-- An integer as a tree. -/
def int (value : Int64) : NodeTree := ⟨"IntValue", some (.int value), []⟩

/-- A random integer between two integers. -/
def die (a b : Int64) : NodeTree :=
  ⟨"RandomInt", none, slots [("low", int a), ("high", int b)]⟩

theorem lookup_die {a b value : Int64} {name : String}
    (h : (name, int value) ∈ [("low", int a), ("high", int b)]) :
    (die a b).arguments.lookup name = some (int value) :=
  (mem_iff_lookup (slots_ordered _)).mp ((mem_slots (by simp)).mpr h)

end NodeTree

namespace Scene

open SeededRandom (Draws Accepts)

section Rolling

variable {σ ρ : Type} [Services σ] [RandomSource ρ] {scene : Scene} {limit levels : Nat}
  {id : NodeId} {a b : Int64} {host after : Host σ ρ}

/-- The node asks for a random integer, and its bounds come to the two integers, one level
deeper. -/
def Bounded (scene : Scene) (limit levels : Nat) (id : NodeId) (a b : Int64)
    (host after : Host σ ρ) : Prop :=
  ∃ node, scene.scenario.forest.get? id = some node ∧ node.variant = "RandomInt" ∧
    gather (scene.evaluateWithin limit levels) node Builtin.bounds host
      = (.ok [.int a, .int b], after)

namespace WellTyped

/-- **A random integer is drawn between the two bounds**, in the state that they have left. -/
theorem evaluate_bounded (h : scene.WellTyped) (hb : scene.registry = .builtin)
    (hbounds : scene.Bounded limit levels id a b host after) :
    (scene.evaluateWithin limit (levels + 1) id).runOn host
      = (.ok (.int (RandomSource.draw (min a b) (max a b) after.random).1),
          ⟨after.services, (RandomSource.draw (min a b) (max a b) after.random).2⟩) := by
  obtain ⟨node, hn, hname, hgather⟩ := hbounds
  have hv : scene.registry.get? node.variant = some Builtin.dice := by
    rw [hb, hname]
    exact Builtin.get?_dice
  rw [h.evaluateWithin_gather hb hn hv (by decide) Builtin.dice_not_connective limit levels host
    (scene.evaluateWithin limit levels)]
  show goOn (gather (scene.evaluateWithin limit levels) node Builtin.bounds host) _ = _
  rw [hgather]
  rfl

/-- The bounds may be two integers that stand in the slots. -/
theorem bounded_die (h : scene.WellTyped) (hb : scene.registry = .builtin)
    (hs : scene.scenario.forest.snapshot id = some (.die a b)) (host : Host σ ρ) :
    scene.Bounded limit (levels + 1) id a b host host := by
  have hshows := h.linked.snapshot_iff.mp hs
  obtain ⟨node, hn⟩ := hshows.exists_node
  obtain ⟨hvariant, _⟩ := Prod.mk.inj (hshows.top hn)
  have hnumber : scene.registry.get? "IntValue"
      = some (Builtin.valueVariant "IntValue" .int) := by
    rw [hb, Registry.builtin_eq]
    rfl
  -- both slots hold numbers, and evaluating these leaves the host as it is
  have hsupply : ∀ name value,
      (name, NodeTree.int value) ∈ [("low", .int a), ("high", .int b)] →
      supply (scene.evaluateWithin limit (levels + 1)) node { name, type := .int } host
        = (.ok (.int value), host) := by
    intro name value hslot
    obtain ⟨held, hinner, hsupply⟩ := supply_of_lookup h.linked hshows hn
      { name, type := .int } (NodeTree.lookup_die hslot)
      (scene.evaluateWithin (σ := σ) (ρ := ρ) limit (levels + 1))
    rw [hsupply]
    exact evaluate_valueVariant hinner h.conforms hnumber rfl limit levels host
  refine ⟨node, hn, hvariant.symm, ?_⟩
  rw [Builtin.bounds, gather, hsupply "low" a List.mem_cons_self, goOn, gather,
    hsupply "high" b (List.mem_cons_of_mem _ List.mem_cons_self)]
  rfl

end WellTyped

end Rolling

/-- How random integers come about in a script of built-in variants, with a generator as the random
source. -/
structure Fair (scene : Scene) : Prop where
  /-- Any two integers in the slots are bounds. -/
  literal : ∀ {σ ρ : Type} [Services σ] [RandomSource ρ] {id a b},
    scene.scenario.forest.snapshot id = some (.die a b) →
    ∀ limit levels (host : Host σ ρ), scene.Bounded limit (levels + 1) id a b host host
  /-- If the generator comes to an integer at all, the node does, and it lies between the bounds. -/
  between : ∀ {σ : Type} [Services σ] {id a b limit levels} {host after : Host σ SeededRandom},
    scene.Bounded limit levels id a b host after → Accepts (min a b) (max a b) after.random →
    ∃ drawn next, (scene.evaluateWithin limit (levels + 1) id).runOn host
        = (.ok (.int drawn), ⟨after.services, next⟩) ∧
      Draws (min a b) (max a b) after.random drawn next ∧ min a b ≤ drawn ∧ drawn ≤ max a b
  /-- The bounds may be exchanged. -/
  exchange : ∀ {σ : Type} [Services σ] {id id' a b limit levels}
    {host host' after : Host σ SeededRandom},
    scene.Bounded limit levels id a b host after → scene.Bounded limit levels id' b a host' after →
    (scene.evaluateWithin limit (levels + 1) id).runOn host
      = (scene.evaluateWithin limit (levels + 1) id').runOn host'
  /-- The generator takes its words for integers as an algorithm on words would. -/
  sampled : ∀ {low high : Int64}, low ≤ high → ∀ word,
    ofWord? low high word = sampled? low high word
  /-- As many words stand for one integer of an interval as for another. -/
  uniform : ∀ {low high drawn : Int64}, low ≤ drawn → drawn ≤ high →
    {word | ofWord? low high word = some drawn}.ncard =
      if wrappedWidth low high = 0 then 1 else 2 ^ leadingZeros (wrappedWidth low high)

theorem WellTyped.fair_of_builtin {scene : Scene} (h : scene.WellTyped)
    (hb : scene.registry = .builtin) : Fair scene := by
  refine ⟨?literal, ?between, ?exchange, ?sampled, ?uniform⟩
  case literal =>
    intro σ ρ _ _ id a b hs limit levels host
    exact h.bounded_die hb hs host
  case between =>
    intro σ _ id a b limit levels host after hbounds haccepts
    obtain ⟨drawn, next, hdraws⟩ := SeededRandom.exists_draws haccepts
    have hdraw : RandomSource.draw (min a b) (max a b) after.random = (drawn, next) :=
      SeededRandom.draw_of_draws hdraws
    refine ⟨drawn, next, ?_, hdraws, hdraws.mem (lesser_le_greater a b)⟩
    rw [h.evaluate_bounded hb hbounds, hdraw]
  case exchange =>
    intro σ _ id id' a b limit levels host host' after hbounds hbounds'
    rw [h.evaluate_bounded hb hbounds, h.evaluate_bounded hb hbounds', lesser_swap a b,
      greater_swap a b]
  case sampled =>
    intro low high hle word
    exact ofWord?_eq_sampled? hle word
  case uniform =>
    intro low high drawn hlow hhigh
    have hle : low ≤ high := Int64.le_trans hlow hhigh
    exact ncard_ofWord? hle ⟨hlow, hhigh⟩

end Scene

namespace Scenario

variable {scenario : Scenario}

/-- **Random integers are in range, and each is as likely as any other**, in a reachable script of
built-in variants. -/
theorem Reachable.fair (h : Reachable .builtin scenario) (facts : Facts) :
    Scene.Fair ⟨.builtin, scenario, facts⟩ :=
  h.of_builtin facts fun hb hw => hw.fair_of_builtin hb

end Scenario

/-! ## Two dice

The one goes from one to six, the other from six to one. -/

namespace TwoDice

def requests : List Request :=
  [.createNode "IntValue" [] (some (.int 1)), .createNode "IntValue" [] (some (.int 6)),
    .createNode "RandomInt" [("low", ⟨0⟩), ("high", ⟨1⟩)] none,
    .createNode "IntValue" [] (some (.int 6)), .createNode "IntValue" [] (some (.int 1)),
    .createNode "RandomInt" [("low", ⟨3⟩), ("high", ⟨4⟩)] none]

/-- The script. -/
def script : Scenario :=
  requests.foldl (fun scenario request => request.after ⟨Builtin.variants⟩ scenario)
    (.empty "two dice")

theorem script_reachable : Scenario.Reachable .builtin script :=
  Scenario.reachable_requests "two dice" requests (by decide +kernel)

def scene : Scene := ⟨.builtin, script, .empty .playerSpawned⟩

def host : Host World SeededRandom := ⟨World.empty, .ofSeed 42⟩

end TwoDice

namespace Scenario

/-- Both dice come to the same, which is no less than one and no more than six. -/
theorem fair_twoDice :
    Scene.Fair TwoDice.scene ∧ ∃ drawn next,
      (TwoDice.scene.evaluate 2 ⟨2⟩).runOn TwoDice.host = (.ok (.int drawn), ⟨World.empty, next⟩) ∧
      (TwoDice.scene.evaluate 2 ⟨5⟩).runOn TwoDice.host = (.ok (.int drawn), ⟨World.empty, next⟩) ∧
      1 ≤ drawn ∧ drawn ≤ 6 := by
  have hfair := TwoDice.script_reachable.fair (.empty .playerSpawned)
  have hrising : TwoDice.scene.Bounded 2 1 ⟨2⟩ 1 6 TwoDice.host TwoDice.host :=
    hfair.literal (by decide +kernel) 2 0 TwoDice.host
  have hfalling : TwoDice.scene.Bounded 2 1 ⟨5⟩ 6 1 TwoDice.host TwoDice.host :=
    hfair.literal (by decide +kernel) 2 0 TwoDice.host
  obtain ⟨drawn, next, hrun, _, hlow, hhigh⟩ :=
    hfair.between hrising ⟨0, by decide +kernel⟩
  exact ⟨hfair, drawn, next, hrun, (hfair.exchange hrising hfalling).symm.trans hrun, hlow, hhigh⟩

end Scenario

end Rulebook
