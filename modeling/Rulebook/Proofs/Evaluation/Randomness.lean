import Rulebook.Proofs.Evaluation.Simulation
import Rulebook.Proofs.Forest.Traversal
import Rulebook.Proofs.Scenario.Matching

/-!
# The only die

Of the built-in rules that of `RandomInt` is the only one that draws integers. So
where there is no node of that variant at or below a node, the random source makes
no difference to the evaluation of the node, and is left as it was. If that is the
case of everything that triggers hold, the same goes for handling occurrences, and
a script of that sort can be replayed under any seed.

Two runs are compared that begin with the same state of the host. Their random
sources need not even be of one kind.
-/

namespace Rulebook

namespace Script

variable {α β : Type}

/-- The script draws no integer. -/
def NeverRolls : Script α → Prop
  | done _ | fail _ => True
  | argument _ next => ∀ value, (next value).NeverRolls
  | literal next => ∀ own, (next own).NeverRolls
  | resolve _ next => ∀ value, (next value).NeverRolls
  | facts next => ∀ known, (next known).NeverRolls
  | region _ next => ∀ found, (next found).NeverRolls
  | ask _ next => ∀ reply, (next reply).NeverRolls
  | perform _ next => next.NeverRolls
  | roll _ _ _ => False

namespace NeverRolls

theorem bind {script : Script α} {next : α → Script β} (hs : script.NeverRolls)
    (hn : ∀ a, (next a).NeverRolls) : (script >>= next).NeverRolls := by
  show (script.andThen next).NeverRolls
  induction script with
  | done result => exact hn result
  | fail why => trivial
  | argument param rest ih => exact fun value => ih value (hs value)
  | literal rest ih => exact fun own => ih own (hs own)
  | resolve lit rest ih => exact fun value => ih value (hs value)
  | facts rest ih => exact fun known => ih known (hs known)
  | region id rest ih => exact fun found => ih found (hs found)
  | ask query rest ih => exact fun reply => ih reply (hs reply)
  | perform effect rest ih => exact ih hs
  | roll low high rest ih => exact False.elim hs

theorem ite {p : Prop} [Decidable p] {yes no : Script α} (hy : yes.NeverRolls)
    (hn : no.NeverRolls) : (if p then yes else no).NeverRolls := by
  split
  · exact hy
  · exact hn

/-- To ask for an argument is not to draw, whatever type of value is wanted. -/
theorem argOf {type : ValueType} {pick : Value → Option α} {param : String} :
    (Script.argOf type pick param).NeverRolls := by
  intro value
  dsimp only [andThen]
  cases pick value with
  | some a => trivial
  | none => trivial

theorem fact {name : String} {pick : Facts → Option α} : (Script.fact name pick).NeverRolls := by
  intro known
  dsimp only
  cases pick known with
  | some a => trivial
  | none => trivial

end NeverRolls

end Script

namespace Builtin

open Script

theorem expressions_neverRoll : ∀ variant ∈ expressions, variant.id ≠ "RandomInt" →
    variant.rule.NeverRolls := by
  simp only [expressions, List.forall_mem_cons]
  refine ⟨fun _ => ?player, fun _ => ?destroyed, fun _ => ?region, fun _ => ?damage,
    fun h => absurd rfl h, fun _ => ?add, fun _ => ?subtract, fun _ => ?blocks, fun _ => ?items,
    fun _ => ?concat, fun _ => ?toText, fun _ => ?name, by simp⟩
  case player | destroyed | region | damage => exact NeverRolls.bind .fact fun _ => trivial
  case add | subtract | concat => exact .bind .argOf fun _ => .bind .argOf fun _ => trivial
  case blocks | items => exact .bind .argOf fun _ => .bind .argOf fun _ => fun _ => trivial
  case toText => exact .bind .argOf fun _ => trivial
  case name =>
    refine .bind .argOf fun player => fun reply => ?_
    cases reply with
    | some name => trivial
    | none => trivial

theorem conditionals_neverRoll : ∀ variant ∈ conditionals, variant.rule.NeverRolls := by
  simp only [conditionals, List.forall_mem_cons]
  refine ⟨?ints, ?texts, ?damage, ?inside, ?and, ?or, ?not, by simp⟩
  case ints | texts =>
    exact .bind .argOf fun _ => .bind .argOf fun _ => .bind .argOf fun _ => trivial
  case damage => exact .bind .argOf fun _ => .bind .argOf fun _ => trivial
  case inside => exact .bind .argOf fun _ => .bind .argOf fun _ => fun _ _ => trivial
  case and => exact .bind .argOf fun _ => .ite (.bind .argOf fun _ => trivial) trivial
  case or => exact .bind .argOf fun _ => .ite trivial (.bind .argOf fun _ => trivial)
  case not => exact .bind .argOf fun _ => trivial

theorem actions_neverRoll : ∀ variant ∈ actions, variant.rule.NeverRolls := by
  simp only [actions, List.forall_mem_cons]
  refine ⟨?give, ?remove, ?item, ?say, ?tell, ?log, ?teleport, by simp⟩
  case give | remove | item =>
    exact .bind .argOf fun _ => .bind .argOf fun _ => .bind .argOf fun _ => trivial
  case say | log => exact .bind .argOf fun _ => trivial
  case tell => exact .bind .argOf fun _ => .bind .argOf fun _ => trivial
  case teleport => exact .bind .argOf fun _ => .bind .argOf fun _ => fun _ => trivial

/-- **One built-in rule draws**, and no other. -/
theorem variants_neverRoll : ∀ variant ∈ variants, variant.id ≠ "RandomInt" →
    variant.rule.NeverRolls := by
  have hvalues : ∀ variant ∈ values, variant.rule.NeverRolls := by
    have hvalue : ownLiteral.NeverRolls := by
      intro own
      cases own with
      | some literal => exact fun _ => trivial
      | none => trivial
    simp only [values, List.forall_mem_cons]
    exact ⟨hvalue, hvalue, hvalue, hvalue, hvalue, hvalue, hvalue, hvalue, by simp⟩
  have hevents : ∀ variant ∈ events, variant.rule.NeverRolls := by
    simp only [events, List.forall_mem_cons]
    exact ⟨trivial, trivial, trivial, trivial, trivial, by simp⟩
  intro variant hv hid
  simp only [variants, List.mem_append] at hv
  rcases hv with (((hv | hv) | hv) | hv) | hv
  · exact hvalues variant hv
  · exact expressions_neverRoll variant hv hid
  · exact conditionals_neverRoll variant hv
  · exact actions_neverRoll variant hv
  · exact hevents variant hv

end Builtin

/-- No node at or below this one is of the variant that draws. -/
def Scenario.Diceless (scenario : Scenario) (id : NodeId) : Prop :=
  ∀ x ∈ scenario.forest.subtree id, ∀ node ∈ scenario.forest.get? x, node.variant ≠ "RandomInt"

instance (scenario : Scenario) (id : NodeId) : Decidable (scenario.Diceless id) :=
  inferInstanceAs (Decidable (∀ x ∈ scenario.forest.subtree id,
    ∀ node ∈ scenario.forest.get? x, node.variant ≠ "RandomInt"))

/-- Begun with the same services, both runs end alike, and each leaves its random source alone. -/
def Indifferent {σ ρ τ α : Type} (run : Host σ ρ → α × Host σ ρ) (twin : Host σ τ → α × Host σ τ) :
    Prop :=
  ∀ services random random', ∃ a after, run ⟨services, random⟩ = (a, ⟨after, random⟩) ∧
    twin ⟨services, random'⟩ = (a, ⟨after, random'⟩)

namespace Indifferent

variable {σ ρ τ α β : Type}

theorem pure (a : α) : Indifferent (Pure.pure a : Evaluation σ ρ α).runOn
    (Pure.pure a : Evaluation σ τ α).runOn :=
  fun services _ _ => ⟨.ok a, services, rfl, rfl⟩

theorem throw (error : EvalError) : Indifferent (MonadExcept.throw error : Evaluation σ ρ α).runOn
    (MonadExcept.throw error : Evaluation σ τ α).runOn :=
  fun services _ _ => ⟨.error error, services, rfl, rfl⟩

theorem bind {step : Evaluation σ ρ α} {twin : Evaluation σ τ α} {next : α → Evaluation σ ρ β}
    {next' : α → Evaluation σ τ β} (hs : Indifferent step.runOn twin.runOn)
    (hn : ∀ a, Indifferent (next a).runOn (next' a).runOn) :
    Indifferent (step >>= next).runOn (twin >>= next').runOn := by
  intro services random random'
  obtain ⟨result, between, hrun, htwin⟩ := hs services random random'
  rw [Attempt.runOn_bind, Attempt.runOn_bind, hrun, htwin]
  cases result with
  | ok a => exact hn a between random random'
  | error error => exact ⟨.error error, between, rfl, rfl⟩

end Indifferent

/-- The services are in the same state, and each random source is as it was. -/
def SameServices {σ ρ τ : Type} (random : ρ) (random' : τ) (host : Host σ ρ) (other : Host σ τ) :
    Prop :=
  ∃ services, host = ⟨services, random⟩ ∧ other = ⟨services, random'⟩

theorem indifferent_iff {σ ρ τ α : Type} {run : Host σ ρ → α × Host σ ρ}
    {twin : Host σ τ → α × Host σ τ} :
    Indifferent run twin ↔ ∀ random random', Tracks (SameServices random random') run twin := by
  constructor
  · rintro h random random' host other ⟨services, rfl, rfl⟩
    obtain ⟨a, after, hrun, htwin⟩ := h services random random'
    exact ⟨a, _, _, hrun, htwin, after, rfl, rfl⟩
  · intro h services random random'
    obtain ⟨a, _, _, hrun, htwin, after, rfl, rfl⟩ :=
      h random random' ⟨services, random⟩ ⟨services, random'⟩ ⟨services, rfl, rfl⟩
    exact ⟨a, after, hrun, htwin⟩

namespace Scene

variable {σ ρ τ : Type} [Services σ] [RandomSource ρ] [RandomSource τ] {scene : Scene}
  {limit : Nat} {id : NodeId} {node : Node}

/-! ## Serving a rule -/

omit [RandomSource ρ] [RandomSource τ] in
/-- What a literal stands for is asked of the host. -/
theorem resolve_indifferent (literal : Literal) :
    Indifferent (σ := σ) (ρ := ρ) (τ := τ) (scene.resolve id literal).runOn
      (scene.resolve id literal).runOn := by
  intro services random random'
  rw [resolve, Attempt.runOn_get_bind, Attempt.runOn_check, resolve, Attempt.runOn_get_bind,
    Attempt.runOn_check]
  exact ⟨_, services, rfl, rfl⟩

omit [RandomSource ρ] [RandomSource τ] in
theorem argument_indifferent {child : NodeId → Evaluation σ ρ Value}
    {child' : NodeId → Evaluation σ τ Value} {param : String}
    (hchild : ∀ {held}, node.argument? param = some held →
      Indifferent (child held).runOn (child' held).runOn) :
    Indifferent (scene.argument child node param).runOn
      (scene.argument child' node param).runOn := by
  unfold argument
  cases hheld : node.argument? param with
  | some held => exact hchild hheld
  | none =>
      dsimp only
      split
      · exact resolve_indifferent _
      · exact .throw _

/-- **A script that never rolls** takes no notice of the random source, unless an argument does. -/
theorem serve_indifferent {α : Type} {child : NodeId → Evaluation σ ρ Value}
    {child' : NodeId → Evaluation σ τ Value}
    (hchild : ∀ {param held}, node.argument? param = some held →
      Indifferent (child held).runOn (child' held).runOn) :
    ∀ {script : Script α}, script.NeverRolls →
      Indifferent (scene.serve child node script).runOn (scene.serve child' node script).runOn := by
  intro script
  induction script with
  | done result => exact fun _ => .pure result
  | fail why => exact fun _ => .throw _
  | argument param next ih =>
      exact fun hs => .bind (argument_indifferent hchild) fun value => ih value (hs value)
  | literal next ih => exact fun hs => ih node.literal (hs node.literal)
  | resolve literal next ih =>
      exact fun hs => .bind (resolve_indifferent literal) fun value => ih value (hs value)
  | facts next ih => exact fun hs => ih scene.facts (hs scene.facts)
  | region region next ih =>
      intro hs
      refine .bind ?_ fun found => ih found (hs found)
      unfold Scene.region
      split
      · exact .pure _
      · exact .throw _
  | ask query next ih =>
      exact fun hs => .bind (fun _ _ _ => ⟨_, _, rfl, rfl⟩) fun reply => ih reply (hs reply)
  | perform effect next ih =>
      exact fun hs => .bind (fun _ _ _ => ⟨_, _, rfl, rfl⟩) fun _ => ih hs
  | roll low high next ih => exact fun hs => False.elim hs

/-! ## Evaluating a node -/

/-- What is in a slot of such a node is such a node. -/
theorem diceless_of_argument (hl : scene.scenario.forest.Linked)
    (hd : scene.scenario.Diceless id) (hn : scene.scenario.forest.get? id = some node)
    {param : String} {held : NodeId} (ha : node.argument? param = some held) :
    scene.scenario.Diceless held := by
  intro x hx
  obtain ⟨_, hbelow⟩ := hl.mem_subtree.mp hx
  exact hd x (hl.mem_subtree.mpr ⟨⟨node, hn⟩, .head (Forest.holds_of_argument? hn ha) hbelow⟩)

/-- By induction on the levels that may still be entered. -/
theorem evaluateWithin_indifferent (hl : scene.scenario.forest.Linked)
    (hb : scene.registry = .builtin) (limit levels : Nat) :
    ∀ {id : NodeId}, scene.scenario.Diceless id →
      Indifferent (σ := σ) (ρ := ρ) (τ := τ) (scene.evaluateWithin limit levels id).runOn
        (scene.evaluateWithin limit levels id).runOn := by
  induction levels with
  | zero =>
      intro id _
      unfold evaluateWithin
      cases scene.scenario.forest.get? id with
      | none => exact .throw _
      | some node =>
          dsimp only
          cases scene.registry.get? node.variant with
          | none => exact .throw _
          | some variant => exact .throw _
  | succ levels ih =>
      intro id hd
      unfold evaluateWithin
      cases hn : scene.scenario.forest.get? id with
      | none => exact .throw _
      | some node =>
          dsimp only
          cases hv : scene.registry.get? node.variant with
          | none => exact .throw _
          | some variant =>
              -- only one variant rolls, and the node is within its own subtree
              have hother : variant.id ≠ "RandomInt" := by
                rw [Registry.id_of_get? hv]
                exact hd id (hl.mem_subtree.mpr ⟨⟨node, hn⟩, .refl⟩) node hn
              have hrule : variant.rule.NeverRolls :=
                Builtin.variants_neverRoll variant (Registry.mem_of_eq_builtin hb hv) hother
              refine .bind (serve_indifferent (fun ha => ih (diceless_of_argument hl hd hn ha))
                hrule) fun value => ?_
              split
              · exact .pure value
              · exact .bind (.throw _) fun _ => .pure value

section Dispatch

variable (hl : scene.scenario.forest.Linked) (hb : scene.registry = .builtin)

include hl hb

/-- **The random source makes no difference** to evaluating a node without `RandomInt`. -/
theorem evaluate_indifferent (limit : Nat) (hd : scene.scenario.Diceless id) :
    Indifferent (σ := σ) (ρ := ρ) (τ := τ) (scene.evaluate limit id).runOn
      (scene.evaluate limit id).runOn :=
  evaluateWithin_indifferent hl hb limit limit hd

theorem evaluateAs_indifferent (limit : Nat) (type : ValueType)
    (hd : scene.scenario.Diceless id) :
    Indifferent (σ := σ) (ρ := ρ) (τ := τ) (scene.evaluateAs limit type id).runOn
      (scene.evaluateAs limit type id).runOn := by
  unfold evaluateAs
  cases scene.scenario.forest.get? id with
  | none => exact .throw _
  | some node =>
      dsimp only
      split
      · exact evaluate_indifferent hl hb limit hd
      · exact .bind (.throw _) fun _ => evaluate_indifferent hl hb limit hd

theorem evaluateBool_indifferent (limit : Nat) (hd : scene.scenario.Diceless id) :
    Indifferent (σ := σ) (ρ := ρ) (τ := τ) (scene.evaluateBool limit id).runOn
      (scene.evaluateBool limit id).runOn := by
  refine .bind (evaluateAs_indifferent hl hb limit .bool hd) fun value => ?_
  cases value with
  | bool value => exact .pure value
  | _ => exact .throw _

/-! ## Handling an occurrence -/

/-- **The random source makes no difference to triggers** if nothing that they hold draws. -/
theorem runTriggers_indifferent (limit : Nat) {triggers : List Trigger}
    (hd : ∀ trigger ∈ triggers, ∀ clause, ∀ root ∈ trigger.roots clause,
      scene.scenario.Diceless root) :
    Indifferent (σ := σ) (ρ := ρ) (τ := τ) (scene.runTriggers limit triggers)
      (scene.runTriggers limit triggers) := by
  refine indifferent_iff.mpr fun random random' => runTriggers_tracks fun trigger ht =>
    ⟨fun event he node hn => ?_, fun condition hc => ?_, fun action ha => ?_⟩
  · refine indifferent_iff.mp (serve_indifferent (fun hheld => ?_) Script.NeverRolls.argOf) random
      random'
    exact evaluate_indifferent hl hb limit
      (diceless_of_argument hl (hd trigger ht .events event he) hn hheld)
  · exact indifferent_iff.mp
      (evaluateBool_indifferent hl hb limit (hd trigger ht .conditions condition hc)) random random'
  · exact indifferent_iff.mp
      (evaluate_indifferent hl hb limit (hd trigger ht .actions action ha)) random random'

end Dispatch

end Scene

namespace Scenario

variable {scenario : Scenario}

/-- Where there is nothing to draw, the random source makes no difference and is left alone. -/
structure Reproducible (scenario : Scenario) : Prop where
  evaluate : ∀ {σ ρ τ : Type} [Services σ] [RandomSource ρ] [RandomSource τ] {id},
    scenario.Diceless id → ∀ facts limit (services : σ) (random : ρ) (random' : τ),
      ∃ result after,
        (Scene.evaluate ⟨.builtin, scenario, facts⟩ limit id).runOn ⟨services, random⟩
          = (result, ⟨after, random⟩) ∧
        (Scene.evaluate ⟨.builtin, scenario, facts⟩ limit id).runOn ⟨services, random'⟩
          = (result, ⟨after, random'⟩)
  /-- Two engines that differ in nothing but their random sources handle an occurrence alike if no
  trigger holds anything that draws. -/
  dispatch : ∀ {σ ρ τ : Type} [Services σ] [RandomSource ρ] [RandomSource τ],
    (∀ trigger ∈ scenario.triggers, ∀ clause, ∀ root ∈ trigger.roots clause,
      scenario.Diceless root) →
    ∀ (engine : Engine ρ) (twin : Engine τ), engine.registry = .builtin →
      twin.registry = .builtin → engine.config.maxDepth = twin.config.maxDepth →
      ∀ (services : σ) occurrence, ∃ report after,
        engine.dispatch (some scenario) services occurrence = (report, engine, after) ∧
          twin.dispatch (some scenario) services occurrence = (report, twin, after)

/-- **`RandomInt` is the only source of randomness** in a reachable script of built-in variants. -/
theorem Reachable.reproducible (h : Reachable .builtin scenario) : Reproducible scenario := by
  have hl : scenario.forest.Linked := h.owned.linked
  refine ⟨?evaluate, ?dispatch⟩
  case evaluate =>
    intro σ ρ τ _ _ _ id hd facts limit
    exact h.of_builtin facts (P := fun scene => Indifferent (σ := σ) (ρ := ρ) (τ := τ)
      (scene.evaluate limit id).runOn (scene.evaluate limit id).runOn)
      fun hb _ => Scene.evaluate_indifferent hl hb limit hd
  case dispatch =>
    intro σ ρ τ _ _ _ hd engine twin hr hr' hdepth services occurrence
    have htriggers : Indifferent (σ := σ) (ρ := ρ) (τ := τ)
        (Scene.runTriggers ⟨engine.registry, scenario, .ofOccurrence occurrence⟩
          engine.config.maxDepth scenario.triggers)
        (Scene.runTriggers ⟨engine.registry, scenario, .ofOccurrence occurrence⟩
          engine.config.maxDepth scenario.triggers) :=
      Scene.runTriggers_indifferent hl hr engine.config.maxDepth hd
    obtain ⟨outcomes, after, hrun, htwin⟩ := htriggers services engine.random twin.random
    refine ⟨{ kind := occurrence.kind, outcomes }, after, ?_, ?_⟩
    · rw [Engine.dispatch, dispatch_some, hrun]
    · -- the twin knows the same variants and has the same limit
      have hsame : twin.registry = engine.registry := hr'.trans hr.symm
      rw [← hsame, hdepth] at htwin
      rw [Engine.dispatch, dispatch_some, htwin]

end Scenario

/-! ## A hidden die

Who spawns is greeted. There is a die in the script as well, but no trigger holds it. -/

namespace HiddenDie

def requests : List Request :=
  [.addTrigger "greeting", .addDraft ⟨0⟩ .events "PlayerSpawned",
    .addDraft ⟨0⟩ .actions "SendChatMessage", .createNode "StringValue" [] (some (.text "hello")),
    .setArgument ⟨1⟩ "message" ⟨2⟩, .createNode "IntValue" [] (some (.int 1)),
    .createNode "IntValue" [] (some (.int 6)),
    .createNode "RandomInt" [("low", ⟨3⟩), ("high", ⟨4⟩)] none]

/-- The script. -/
def script : Scenario :=
  requests.foldl (fun scenario request => request.after ⟨Builtin.variants⟩ scenario)
    (.empty "hidden die")

theorem script_reachable : Scenario.Reachable .builtin script :=
  Scenario.reachable_requests "hidden die" requests (by decide +kernel)

theorem triggers_diceless : ∀ trigger ∈ script.triggers, ∀ clause, ∀ root ∈ trigger.roots clause,
    script.Diceless root := by
  intro trigger ht clause
  revert trigger
  cases clause <;> decide +kernel

def engine (seed : UInt64) : Engine SeededRandom := .create .builtin {} (.ofSeed seed)

theorem engine_registry (seed : UInt64) : (engine seed).registry = .builtin :=
  Engine.create_registry _ _ _

end HiddenDie

namespace Scenario

/-- Occurrences are handled alike under any two seeds, for all that there is a die. -/
theorem reproducible_hiddenDie :
    Reproducible HiddenDie.script ∧ ¬ HiddenDie.script.Diceless ⟨5⟩ ∧
      (∀ seed seed' (world : World) occurrence, ∃ report after,
        (HiddenDie.engine seed).dispatch (some HiddenDie.script) world occurrence
          = (report, HiddenDie.engine seed, after) ∧
        (HiddenDie.engine seed').dispatch (some HiddenDie.script) world occurrence
          = (report, HiddenDie.engine seed', after)) ∧
      ((HiddenDie.engine 1).dispatch (some HiddenDie.script) World.empty (.playerSpawned ⟨7⟩)).1
        = { kind := .playerSpawned, outcomes := [⟨⟨0⟩, .done, 0, 1, []⟩] } := by
  have hrepro := HiddenDie.script_reachable.reproducible
  refine ⟨hrepro, by decide +kernel, fun seed seed' world occurrence => ?_, ?_⟩
  · exact hrepro.dispatch HiddenDie.triggers_diceless (HiddenDie.engine seed)
      (HiddenDie.engine seed') (HiddenDie.engine_registry seed)
      (HiddenDie.engine_registry seed') rfl world occurrence
  · rw [HiddenDie.engine, Registry.builtin_eq]
    decide +kernel

end Scenario

end Rulebook
