import Rulebook.Proofs.Scenario.Matching

/-!
# Only actions have effects

A rule asks for an effect only if its variant is an action, and no parameter takes
what an action yields. So below a node that is no action there is none, at any
depth, and evaluating the node can do no more than *look*: put questions to the
host and draw random integers. An error makes no difference, because all that can
have happened before it is that something was looked at.

The same goes for an occurrence that leads to no actions, because in every trigger
that was concerned some condition did not hold.

In a world in memory looking leaves a trace in one place, the record of questions
about inventories.
-/

namespace Rulebook

section Looks

variable {σ ρ : Type} [Services σ] [RandomSource ρ]

/-- One question is put to the host, or one integer is drawn. -/
inductive Glance : Host σ ρ → Host σ ρ → Prop where
  | asked (query : Query) (host : Host σ ρ) :
      Glance host { host with services := (Services.answer query host.services).2 }
  | drawn (low high : Int64) (host : Host σ ρ) :
      Glance host { host with random := (RandomSource.draw low high host.random).2 }

/-- The one state comes of the other by questions and draws alone. -/
def Looks : Host σ ρ → Host σ ρ → Prop := Relation.ReflTransGen Glance

end Looks

/-- There is no action of this number. -/
def Scenario.Passive (scenario : Scenario) (id : NodeId) : Prop :=
  ∀ node, scenario.forest.get? id = some node → node.kind ≠ .action

namespace Scene

open Attempt (Keeps)

variable {σ ρ : Type} [Services σ] [RandomSource ρ] {scene : Scene} {limit : Nat} {id : NodeId}
  {node : Node} {variant : Variant} {start : Host σ ρ}

/-! ## Serving a rule -/

theorem resolve_looks (literal : Literal) :
    Keeps (Looks start) (scene.resolve id literal : Evaluation σ ρ Value) :=
  .bind .get fun _ => .check _

theorem region_looks (region : RegionId) :
    Keeps (Looks start) (scene.region id region : Evaluation σ ρ Region) := by
  unfold Scene.region
  split
  · exact .pure _
  · exact .throw _

theorem ask_looks (query : Query) :
    Keeps (Looks start) (ask query : Evaluation σ ρ query.Answer) :=
  fun host h => h.tail (.asked query host)

theorem roll_looks (low high : Int64) :
    Keeps (Looks start) (roll low high : Evaluation σ ρ Int64) :=
  fun host h => h.tail (.drawn low high host)

/-- An argument is a child, whose evaluation only looks, or a default, which is looked up. -/
theorem argument_looks {child : NodeId → Evaluation σ ρ Value} {param : String}
    (hchild : ∀ {held}, node.argument? param = some held → Keeps (Looks start) (child held)) :
    Keeps (Looks start) (scene.argument child node param) := by
  unfold argument
  split
  · rename_i held hheld
    exact hchild hheld
  · split
    · exact resolve_looks _
    · exact .throw _

/-- **A proper rule only looks**, unless it is the rule of an action. -/
theorem Serving.serve_looks {α : Type} {Q : α → Prop} {child : NodeId → Evaluation σ ρ Value}
    (h : Serving scene limit child id node variant) (hk : node.kind ≠ .action)
    (hchild : ∀ {param held}, node.argument? param = some held →
      Keeps (Looks start) (child held)) :
    ∀ {script : Script α}, script.Proper variant Q →
      Keeps (Looks start) (scene.serve child node script) := by
  intro script
  induction script with
  | done result => exact fun _ => .pure result
  | fail why => exact fun _ => .throw _
  | argument param next ih =>
      intro hp
      obtain ⟨slot, hslot, hnext⟩ := hp
      exact .bind_ends (argument_looks hchild) (h.argument_ends hslot) fun value ht =>
        ih value (hnext value ht)
  | literal next ih => exact fun hp => ih node.literal (hp node.literal h.literal.symm)
  | resolve literal next ih =>
      intro hp
      have hends : (scene.resolve id literal : Evaluation σ ρ Value).Ends _
          (scene.Excuse limit id) := resolve_ends literal
      rw [serve, h.key]
      exact .bind_ends (resolve_looks literal) hends fun value ht => ih value (hp value ht)
  | facts next ih => exact fun hp => ih scene.facts (hp scene.facts)
  | region region next ih =>
      exact fun hp => .bind (region_looks region) fun found => ih found (hp found)
  | ask query next ih => exact fun hp => .bind (ask_looks query) fun reply => ih reply (hp reply)
  -- no variant of another kind may ask for an effect
  | perform effect next ih => exact fun hp => absurd (h.kind.trans hp.1) hk
  | roll low high next ih =>
      exact fun hp => .bind (roll_looks low high) fun drawn => ih drawn (hp drawn)

/-! ## Evaluating a node -/

namespace WellTyped

/-- What is in a slot is no action. -/
theorem passive_of_argument (h : scene.WellTyped) (hn : scene.scenario.forest.get? id = some node)
    {param : String} {held : NodeId} (ha : node.argument? param = some held) :
    scene.scenario.Passive held := by
  intro inner hi
  obtain ⟨variant, hv, _⟩ := h.conforms.typed hn
  obtain ⟨slot, inner', hslot, hi', ht⟩ := h.conforms.slots hn hv (Node.mem_of_argument? ha)
  cases hi.symm.trans hi'
  exact h.kind_of_argument hv hslot hi ht

/-- By induction on the levels that may still be entered. -/
theorem evaluateWithin_looks (h : scene.WellTyped) (limit remaining : Nat) :
    ∀ {id : NodeId}, scene.scenario.Passive id →
      Keeps (Looks start) (scene.evaluateWithin limit remaining id : Evaluation σ ρ Value) := by
  induction remaining with
  | zero =>
      intro id _
      rw [evaluateWithin]
      split
      · exact .throw _
      · split
        · exact .throw _
        · exact .throw _
  | succ remaining ih =>
      intro id hid
      rw [evaluateWithin]
      split
      · exact .throw _
      · rename_i node hn
        split
        · exact .throw _
        · rename_i variant hv
          have hserving : Serving (σ := σ) (ρ := ρ) scene limit
              (scene.evaluateWithin limit remaining) id node variant :=
            h.serving hn hv (h.evaluateWithin_ends limit remaining)
          have hrule := (h.registry variant (Registry.mem_of_get? hv)).rule
          refine .bind (hserving.serve_looks (hid node hn) (fun ha => ?_) hrule)
            fun value => .ite (.pure _) (.bind (.throw _) fun _ => .pure _)
          -- what fills a slot is no action, so the levels below only look too
          exact ih (h.passive_of_argument hn ha)

theorem evaluate_looks (h : scene.WellTyped) (hid : scene.scenario.Passive id) (limit : Nat) :
    Keeps (Looks start) (scene.evaluate limit id : Evaluation σ ρ Value) :=
  h.evaluateWithin_looks limit limit hid

theorem evaluateAs_looks (h : scene.WellTyped) (hid : scene.scenario.Passive id) (limit : Nat)
    (type : ValueType) :
    Keeps (Looks start) (scene.evaluateAs limit type id : Evaluation σ ρ Value) := by
  unfold evaluateAs
  split
  · exact .throw _
  · exact .ite (h.evaluate_looks hid limit) (.bind (.throw _) fun _ => h.evaluate_looks hid limit)

theorem evaluateBool_looks (h : scene.WellTyped) (hid : scene.scenario.Passive id) (limit : Nat) :
    Keeps (Looks start) (scene.evaluateBool limit id : Evaluation σ ρ Bool) := by
  refine .bind (h.evaluateAs_looks hid limit .bool) fun value => ?_
  cases value with
  | bool value => exact .pure value
  | _ => exact .throw _

end WellTyped

/-! ## Handling an occurrence -/

/-- A step that only looks takes a state to one that comes of it by looking. -/
theorem looks_of_runOn {α : Type} {step : Evaluation σ ρ α}
    (h : ∀ start : Host σ ρ, Keeps (Looks start) step) {s t : Host σ ρ}
    {result : Except EvalError α} (hrun : step.runOn s = (result, t)) : Looks s t := by
  have hlooks := h s s .refl
  rw [hrun] at hlooks
  exact hlooks

namespace WellTyped

variable {s t : Host σ ρ}

/-- Finding out whether an event listens may take an evaluation of its slot for the region. -/
theorem hears_looks (h : scene.WellTyped) {event : NodeId} {answer : Bool}
    (hears : scene.Hears limit event s answer t) : Looks s t := by
  cases hears with
  | deaf _ => exact .refl
  | anywhere _ _ => exact .refl
  | @region node _ _ _ _ _ _ hl _ _ hrun =>
      obtain ⟨_, hinspect, _⟩ := scene.inspect_regionArg limit node regionParam s
      cases hrun.symm.trans hinspect
      refine argument_looks (fun ha => ?_) s .refl
      exact h.evaluate_looks (h.passive_of_argument hl.1 ha) limit

theorem hearsAny_looks (h : scene.WellTyped) {events : List NodeId} {answer : Bool}
    (hears : scene.HearsAny limit events s answer t) : Looks s t := by
  cases hears with
  | unheard _ _ _ hturn => exact hturn.reach fun _ _ _ _ hasked => h.hears_looks hasked
  | heard _ _ _ hturn => exact hturn.reach fun _ _ _ _ hasked => h.hears_looks hasked

/-- Conditions that are no actions are checked by looking, up to the first that does not hold. -/
theorem checks_looks (h : scene.WellTyped) {conditions : List NodeId} {status : Status}
    {checked : Nat} (hall : ∀ id ∈ conditions, scene.scenario.Passive id)
    (hchecks : scene.Checks limit conditions s status checked t) : Looks s t := by
  have hjudged : ∀ {id verdict} {before after : Host σ ρ}, id ∈ conditions →
      scene.Judges limit id before verdict after → Looks before after := fun hid hjudges =>
    looks_of_runOn (fun _ => h.evaluateBool_looks (hall _ hid) limit) hjudges
  cases hchecks with
  | passed judged hm _ hturn =>
      refine hturn.reach fun entry he _ _ => hjudged ?_
      rw [← hm]
      exact List.mem_map_of_mem he
  | @stopped judged condition verdict _ rest _ hm _ _ hturn =>
      refine hturn.reach fun entry he _ _ => hjudged ?_
      rw [← hm]
      rcases List.mem_append.mp he with hearlier | hlast
      · exact List.mem_append_left _ (List.mem_map_of_mem hearlier)
      · cases List.mem_singleton.mp hlast
        exact List.mem_append_right _ List.mem_cons_self

/-- A visit that comes to no actions only looks. -/
theorem visits_looks (h : scene.WellTyped) {trigger : Trigger} {outcome : Option Outcome}
    (hall : ∀ id ∈ trigger.conditions, scene.scenario.Passive id)
    (hnot : ∀ ended ∈ outcome, ended.status ≠ .done)
    (hvisits : scene.Visits limit trigger s outcome t) : Looks s t := by
  cases hvisits with
  | disabled _ => exact .refl
  | unheard _ hears => exact h.hearsAny_looks hears
  | heard _ hears hruns =>
      refine (h.hearsAny_looks hears).trans ?_
      cases hruns with
      | done attempts _ _ _ => exact absurd rfl (hnot _ rfl)
      | stopped hchecks _ => exact h.checks_looks hall hchecks

/-- **If no trigger gets as far as its actions, all that is done is to look.** -/
theorem runTriggers_looks (h : scene.WellTyped) (limit : Nat) (s : Host σ ρ)
    {triggers : List Trigger}
    (hall : ∀ trigger ∈ triggers, ∀ id ∈ trigger.conditions, scene.scenario.Passive id)
    (hnot : ∀ outcome ∈ (scene.runTriggers limit triggers s).1, outcome.status ≠ .done) :
    Looks s (scene.runTriggers limit triggers s).2 := by
  obtain ⟨visits, hm, hturn, hout⟩ := scene.runTriggers_visits limit triggers s
  rw [hout] at hnot
  refine hturn.reach fun visit hv _ _ => h.visits_looks (hall visit.1 ?_) fun outcome ho => ?_
  · rw [← hm]
    exact List.mem_map_of_mem hv
  · exact hnot outcome (List.mem_filterMap.mpr ⟨visit, hv, ho⟩)

end WellTyped

end Scene

/-! ## Looking at a world in memory -/

/-- The world is as before, except that questions about inventories were recorded, and the random
source has moved on. -/
structure Observed {ρ : Type} [RandomSource ρ] (before after : Host World ρ) : Prop where
  /-- Block and item types, players, chat and log are the same. -/
  world : after.services = { before.services with queries := after.services.queries }
  recorded : ∃ asked : List InventoryQuery, after.services.queries
    = asked.foldl (keepNewest before.services.recordLimit) before.services.queries
  /-- If anything was recorded, the record is within its limit. -/
  bounded : after.services.queries = before.services.queries ∨
    after.services.queries.size ≤ before.services.recordLimit
  drawn : ∃ draws : List (Int64 × Int64), after.random
    = draws.foldl (fun source range => (RandomSource.draw range.1 range.2 source).2) before.random

theorem size_keepNewest {α : Type} (limit : Nat) (record : Array α) (entry : α) :
    (keepNewest limit record entry).size = min (record.size + 1) limit := by
  rw [← Array.length_toList, toList_keepNewest, List.length_drop, List.length_append,
    Array.length_toList, List.length_singleton]
  omega

namespace World

/-- An answer leaves at most a record of the question. -/
theorem answer_after (query : Query) (world : World) :
    (Services.answer query world).2 = world ∨
      ∃ actor resource, (Services.answer query world).2 = world.recordQuery actor resource := by
  cases query with
  | playerName actor => exact Or.inl rfl
  | countBlocks actor block => exact Or.inr ⟨actor, block, rfl⟩
  | countItems actor item => exact Or.inr ⟨actor, item, rfl⟩
  | isInRegion actor region => exact Or.inl rfl

end World

namespace Observed

variable {ρ : Type} [RandomSource ρ] {before after later : Host World ρ}

theorem refl (host : Host World ρ) : Observed host host :=
  ⟨rfl, ⟨[], rfl⟩, Or.inl rfl, ⟨[], rfl⟩⟩

/-- One more entry is recorded, at the cost of the oldest if the record is full. -/
theorem recordQuery (h : Observed before after) (actor : ActorId) (resource : ResourceKey) :
    Observed before { after with services := after.services.recordQuery actor resource } := by
  obtain ⟨asked, hasked⟩ := h.recorded
  have hlimit : after.services.recordLimit = before.services.recordLimit := by rw [h.world]
  refine ⟨?_, ⟨asked ++ [⟨actor, resource⟩], ?_⟩, Or.inr ?_, h.drawn⟩
  · rw [World.recordQuery, h.world]
  · rw [List.foldl_append, ← hasked, ← hlimit]
    rfl
  · rw [World.recordQuery, size_keepNewest, ← hlimit]
    exact Nat.min_le_right _ _

theorem draw (h : Observed before after) (low high : Int64) :
    Observed before
      { after with random := (RandomSource.draw low high after.random).2 } := by
  obtain ⟨draws, hdraws⟩ := h.drawn
  refine ⟨h.world, h.recorded, h.bounded, ⟨draws ++ [(low, high)], ?_⟩⟩
  rw [List.foldl_append, ← hdraws]
  rfl

/-- **Looking at a world changes nothing in it** but the record of what was asked. -/
theorem of_looks (h : Looks before after) : Observed before after := by
  induction h with
  | refl => exact refl before
  | @tail between _ _ hglance ih =>
      cases hglance with
      | asked query =>
          rcases World.answer_after query between.services with hsame | ⟨actor, resource, hrecord⟩
          · rw [hsame]
            exact ih
          · rw [hrecord]
            exact ih.recordQuery actor resource
      | drawn low high => exact ih.draw low high

end Observed

namespace Scenario

open Attempt (Keeps)

variable {registry : Registry} {scenario : Scenario}

/-- Lists of conditions take no actions. -/
theorem Conforms.passive_of_condition (h : Conforms registry scenario) {trigger : Trigger}
    {id : NodeId} (ht : trigger ∈ scenario.triggers) (hid : id ∈ trigger.conditions) :
    scenario.Passive id := by
  intro node hn
  obtain ⟨node', hn', hconditions⟩ := h.accepted ht .conditions hid
  cases hn.symm.trans hn'
  simp only [Clause.accepts, Bool.and_eq_true, bne_iff_ne] at hconditions
  exact hconditions.2

/-- The script acts on a world through its actions only: to evaluate anything else is to look, and
so is to handle an occurrence if no trigger gets as far as its actions. -/
structure Harmless (scenario : Scenario) : Prop where
  evaluate : ∀ {ρ : Type} [RandomSource ρ] {id}, scenario.Passive id →
    ∀ facts limit (host : Host World ρ),
      Observed host ((Scene.evaluate ⟨.builtin, scenario, facts⟩ limit id).runOn host).2
  evaluateAs : ∀ {ρ : Type} [RandomSource ρ] {id}, scenario.Passive id →
    ∀ facts limit type (host : Host World ρ),
      Observed host ((Scene.evaluateAs ⟨.builtin, scenario, facts⟩ limit type id).runOn host).2
  evaluateBool : ∀ {ρ : Type} [RandomSource ρ] {id}, scenario.Passive id →
    ∀ facts limit (host : Host World ρ),
      Observed host ((Scene.evaluateBool ⟨.builtin, scenario, facts⟩ limit id).runOn host).2
  /-- The same of an engine that evaluates a node outside of any occurrence. -/
  preview : ∀ {ρ : Type} [RandomSource ρ] {id}, scenario.Passive id →
    ∀ engine : Engine ρ, engine.registry = .builtin → ∀ (world : World) facts,
      Observed ⟨world, engine.random⟩
        ⟨(engine.evaluate scenario world facts id).2.2,
          (engine.evaluate scenario world facts id).2.1.random⟩
  dispatch : ∀ {ρ : Type} [RandomSource ρ] (engine : Engine ρ), engine.registry = .builtin →
    ∀ (world : World) occurrence,
      (∀ outcome ∈ (engine.dispatch (some scenario) world occurrence).1.outcomes,
        outcome.status = .failed ∨ ∃ error, outcome.status = .errored error) →
      Observed ⟨world, engine.random⟩
        ⟨(engine.dispatch (some scenario) world occurrence).2.2,
          (engine.dispatch (some scenario) world occurrence).2.1.random⟩

/-- **Only actions have effects** in a reachable script of built-in variants. -/
theorem Reachable.harmless (h : Reachable .builtin scenario) : Harmless scenario := by
  have hw : ∀ facts, Scene.WellTyped ⟨.builtin, scenario, facts⟩ :=
    h.wellTyped Registry.builtin_wellTyped
  refine ⟨fun hid facts limit host => ?_, fun hid facts limit type host => ?_,
    fun hid facts limit host => ?_, fun hid engine hr world facts => ?_,
    fun {ρ _} engine hr world occurrence hnot => ?_⟩
  · exact .of_looks ((hw facts).evaluate_looks hid limit host .refl)
  · exact .of_looks ((hw facts).evaluateAs_looks hid limit type host .refl)
  · exact .of_looks ((hw facts).evaluateBool_looks hid limit host .refl)
  · rw [Engine.evaluate, hr]
    exact .of_looks ((hw facts).evaluate_looks hid engine.config.maxDepth _ .refl)
  · rw [Engine.dispatch, hr, dispatch_some] at hnot ⊢
    refine .of_looks ((hw (.ofOccurrence occurrence)).runTriggers_looks engine.config.maxDepth _
      (fun trigger ht id hid => h.conforms.passive_of_condition ht hid) fun outcome ho => ?_)
    rcases hnot outcome ho with hfailed | ⟨error, herrored⟩
    · simp [hfailed]
    · simp [herrored]

end Scenario

/-! ## A toll

Who spawns with exactly one coin is greeted. The player at hand has none, so the coins are counted
and that is all. -/

namespace Toll

def coin : ResourceKey := ⟨"core", "coin", by decide, by decide⟩

def requests : List Request :=
  [.addTrigger "toll", .addDraft ⟨0⟩ .events "PlayerSpawned",
    .addDraft ⟨0⟩ .conditions "IntCompare", .createNode "TriggeringPlayer" [] none,
    .createNode "ItemValue" [] (some (.item coin)),
    .createNode "CountOfItem" [("player", ⟨2⟩), ("item", ⟨3⟩)] none, .setArgument ⟨1⟩ "left" ⟨4⟩,
    .createNode "IntValue" [] (some (.int 1)), .setArgument ⟨1⟩ "right" ⟨5⟩,
    .addDraft ⟨0⟩ .actions "SendChatMessage", .createNode "StringValue" [] (some (.text "hello")),
    .setArgument ⟨6⟩ "message" ⟨7⟩]

/-- The script. -/
def script : Scenario :=
  requests.foldl (fun scenario request => request.after ⟨Builtin.variants⟩ scenario)
    (.empty "toll")

theorem script_reachable : Scenario.Reachable .builtin script :=
  Scenario.reachable_requests "toll" requests (by decide +kernel)

def engine : Engine SeededRandom := .create .builtin {} (.ofSeed 0)

def world : World := (World.empty.addItemType coin).addPlayer ⟨7⟩ "Alex"

end Toll

namespace Scenario

/-- The condition does not hold, and the question it takes is all that is left of it. -/
theorem harmless_toll :
    Harmless Toll.script ∧
      (Toll.engine.dispatch (some Toll.script) Toll.world (.playerSpawned ⟨7⟩)).1
        = { kind := .playerSpawned, outcomes := [⟨⟨0⟩, .failed, 1, 0, []⟩] } ∧
      (Toll.engine.dispatch (some Toll.script) Toll.world (.playerSpawned ⟨7⟩)).2.2
        = { Toll.world with queries := #[⟨⟨7⟩, Toll.coin⟩] } := by
  refine ⟨Toll.script_reachable.harmless, ?_, ?_⟩
  · rw [Toll.engine, Registry.builtin_eq]
    decide +kernel
  · rw [Toll.engine, Registry.builtin_eq]
    decide +kernel

end Scenario

end Rulebook
