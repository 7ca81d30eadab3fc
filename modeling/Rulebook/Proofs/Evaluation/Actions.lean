import Rulebook.Proofs.Evaluation.Effects
import Rulebook.Proofs.Evaluation.Order
import Rulebook.Proofs.World.Services

/-!
# Actions are all or nothing

An action evaluates its arguments and then calls one service. Evaluating arguments
is to look, a service that refuses leaves the world as it is, and after a service
that does not refuse nothing else can go wrong. So an action that fails, wherever
it does, has done nothing to the world but ask about inventories; and one that
succeeds has done what its one service does, no more and no less.

The questions that the arguments have put cannot be noticed by the service: it
would have done the same to the world as it was before.
-/

namespace Rulebook

namespace Builtin

/-- The service that an action calls, given the values of its arguments in the order of its
parameters. -/
inductive Calls (scenario : Scenario) : VariantId → List Value → Effect → Prop where
  | giveBlock (player : ActorId) (amount : Int64) (block : ResourceKey) :
      Calls scenario "GiveBlock" [.entity player, .int amount, .block block]
        (.giveBlocks player block amount)
  | removeBlock (player : ActorId) (amount : Int64) (block : ResourceKey) :
      Calls scenario "RemoveBlock" [.entity player, .int amount, .block block]
        (.removeBlocks player block amount)
  | giveItem (player : ActorId) (amount : Int64) (item : ResourceKey) :
      Calls scenario "GiveItem" [.entity player, .int amount, .item item]
        (.giveItems player item amount)
  | sendChatMessage (message : String) :
      Calls scenario "SendChatMessage" [.text message] (.broadcast message)
  | sendPlayerMessage (player : ActorId) (message : String) :
      Calls scenario "SendPlayerMessage" [.entity player, .text message]
        (.sendMessage player message)
  | logMessage (message : String) : Calls scenario "LogMessage" [.text message] (.log message)
  | teleportToRegion (player : ActorId) {id : RegionId} {region : Region} :
      scenario.region? id = some region →
      Calls scenario "TeleportToRegion" [.entity player, .region id] (.teleport player region)

end Builtin

namespace Script

/-- The script looks nothing up but regions, calls one service at most and is done after it. -/
inductive CallsOnce (scenario : Scenario) (calls : Effect → Prop) : Rule → Prop where
  | perform {effect : Effect} :
      calls effect → CallsOnce scenario calls (.perform effect (.done .unit))
  | region {id : RegionId} {next : Region → Rule} :
      (∀ found, scenario.region? id = some found → CallsOnce scenario calls (next found)) →
      CallsOnce scenario calls (.region id next)
  | fail (why : Failure) : CallsOnce scenario calls (.fail why)

end Script

namespace Builtin

/-- **Every action calls its one service.** -/
theorem ownAction_callsOnce (scenario : Scenario) (id : VariantId) (values : List Value) :
    (ownAction id values).CallsOnce scenario (Calls scenario id values) := by
  unfold ownAction
  split
  · exact .perform (.giveBlock _ _ _)
  · exact .perform (.removeBlock _ _ _)
  · exact .perform (.giveItem _ _ _)
  · exact .perform (.sendChatMessage _)
  · exact .perform (.sendPlayerMessage _ _)
  · exact .perform (.logMessage _)
  · exact .region fun found hfound => .perform (.teleportToRegion _ hfound)
  · exact .fail _

end Builtin

namespace Scene

open Attempt (Keeps)

section Gather

variable {σ ρ α β : Type} [Services σ] [RandomSource ρ] {node : Node} {start host : Host σ ρ}
  {child : NodeId → Evaluation σ ρ Value}

omit [Services σ] [RandomSource ρ] in
/-- What holds of the state that was reached goes on to hold if what is done next preserves it. -/
theorem goOn_keeps {P : Host σ ρ → Prop} {got : Except EvalError α × Host σ ρ}
    {next : α → Host σ ρ → Except EvalError β × Host σ ρ} (h : P got.2)
    (hn : ∀ a after, P after → P (next a after).2) : P (goOn got next).2 := by
  obtain ⟨result, after⟩ := got
  cases result with
  | ok a => exact hn a after h
  | error e => exact h

theorem supply_looks
    (hchild : ∀ {param held}, node.argument? param = some held → Keeps (Looks start) (child held))
    (param : Param) (h : Looks start host) : Looks start (supply child node param host).2 := by
  unfold supply
  split
  · rename_i held hheld
    exact hchild hheld host h
  · split
    · exact h
    · exact h

/-- If evaluating what is in the slots only looks, so does gathering the values. -/
theorem gather_looks
    (hchild : ∀ {param held}, node.argument? param = some held → Keeps (Looks start) (child held))
    (params : List Param) : ∀ {host : Host σ ρ}, Looks start host →
      Looks start (gather child node params host).2 := by
  induction params with
  | nil => exact fun h => h
  | cons param rest ih =>
      intro host h
      refine goOn_keeps (supply_looks hchild param h) fun value after hafter => ?_
      exact goOn_keeps (ih hafter) fun values final hfinal => hfinal

end Gather

variable {ρ : Type} [RandomSource ρ] {scene : Scene} {limit : Nat} {id : NodeId} {node : Node}
  {variant : Variant} {before after : Host World ρ}

/-- **A script that calls one service** either fails and leaves the world as it is, or the service
was called and did not refuse. -/
theorem serve_callsOnce {child : NodeId → Evaluation World ρ Value} {calls : Effect → Prop}
    {script : Rule} (h : script.CallsOnce scene.scenario calls) {result : Except EvalError Value}
    (hrun : (scene.serve child node script).runOn before = (result, after)) :
    (∃ error, result = .error error ∧ after = before) ∨
      ∃ effect, calls effect ∧ result = .ok .unit ∧
        Services.perform effect before.services = (.ok (), after.services) ∧
        after.random = before.random := by
  induction h with
  | @perform effect hcalls =>
      have hperform : (perform node.id effect : Evaluation World ρ Unit).runOn before
          = ((Services.perform effect before.services).1.mapError (.actionFailed node.id),
            ⟨(Services.perform effect before.services).2, before.random⟩) := rfl
      rw [serve, Attempt.runOn_bind, hperform] at hrun
      cases hs : Services.perform effect before.services with
      | mk outcome done =>
          rw [hs] at hrun
          cases outcome with
          | ok _ =>
              cases hrun
              exact .inr ⟨effect, hcalls, rfl, hs, rfl⟩
          | error refusal =>
              cases hrun
              -- a refused service leaves the world as it found it
              cases World.perform_error hs
              exact .inl ⟨_, rfl, rfl⟩
  | @region region next _ ih =>
      rw [serve, Scene.region] at hrun
      cases hfound : scene.scenario.region? region with
      | some found =>
          rw [hfound] at hrun
          exact ih found hfound hrun
      | none =>
          rw [hfound] at hrun
          cases hrun
          exact .inl ⟨_, rfl, rfl⟩
  | fail why =>
      cases hrun
      exact .inl ⟨_, rfl, rfl⟩

/-- The node has called its service with the values of its arguments, once and without being
refused. `looked` is the state after the arguments. -/
structure Called (scene : Scene) (limit : Nat) (node : Node) (before looked after : Host World ρ)
    (values : List Value) (effect : Effect) : Prop where
  arguments : ∃ variant, scene.registry.get? node.variant = some variant ∧
    gather (scene.evaluateWithin limit (limit - 1)) node variant.params before
      = (.ok values, looked)
  observed : Observed before looked
  service : Builtin.Calls scene.scenario node.variant values effect
  performed : Services.perform effect looked.services = (.ok (), after.services)
  /-- All but the record of what was asked is as the service would have left the world before. -/
  world : Services.perform effect before.services
    = (.ok (), { after.services with queries := before.services.queries })
  random : after.random = looked.random

/-- Whatever actions do to a world in memory, they do completely or not at all. -/
structure AllOrNothing (scene : Scene) : Prop where
  /-- An action that fails has changed nothing but the record of what was asked. -/
  nothing : ∀ {ρ : Type} [RandomSource ρ] {id node}, scene.scenario.forest.get? id = some node →
    node.kind = .action → ∀ limit {before after : Host World ρ} {error},
      (scene.evaluate limit id).runOn before = (.error error, after) → Observed before after
  /-- An action that succeeds has called its service. -/
  all : ∀ {ρ : Type} [RandomSource ρ] {id node}, scene.scenario.forest.get? id = some node →
    node.kind = .action → ∀ limit {before after : Host World ρ} {value},
      (scene.evaluate limit id).runOn before = (.ok value, after) →
        value = .unit ∧ ∃ looked values effect,
          scene.Called limit node before looked after values effect

namespace WellTyped

/-- Gathering the arguments of a node only looks. -/
theorem gather_observed (h : scene.WellTyped) (hn : scene.scenario.forest.get? id = some node)
    (limit levels : Nat) (params : List Param) (before : Host World ρ) :
    Observed before (gather (scene.evaluateWithin limit levels) node params before).2 :=
  .of_looks (gather_looks
    (fun ha => h.evaluateWithin_looks limit levels (h.passive_of_argument hn ha)) params .refl)

/-- An action gathers its arguments and does what is its own. -/
theorem evaluate_gather (h : scene.WellTyped) (hb : scene.registry = .builtin)
    (hn : scene.scenario.forest.get? id = some node) (hk : node.kind = .action)
    (hv : scene.registry.get? node.variant = some variant) (levels : Nat) (before : Host World ρ) :
    (scene.evaluate (levels + 1) id).runOn before
      = goOn (gather (scene.evaluateWithin (levels + 1) levels) node variant.params before)
          fun values after => (scene.serve (scene.evaluateWithin (levels + 1) levels) node
            (Builtin.ownAction node.variant values)).runOn after := by
  have haction : variant.kind = .action := by
    obtain ⟨own, ho, hkind, _⟩ := h.conforms.typed hn
    cases hv.symm.trans ho
    exact hkind.symm.trans hk
  have hevent : variant.kind ≠ .event := by
    rw [haction]
    decide
  have hmem : variant ∈ Builtin.variants := Registry.mem_of_eq_builtin hb hv
  -- of an action, the part that comes after the arguments is its call
  have hpart : ∀ values,
      Builtin.ownPart variant values = Builtin.ownAction node.variant values := by
    intro values
    rw [Builtin.ownPart, haction, Registry.id_of_get? hv]
  simp only [← hpart]
  exact h.evaluateWithin_gather hb hn hv hevent (Builtin.not_isConnective hmem haction) _ levels
    before _

/-- **What an action comes to**: nothing, or one call of its service. -/
theorem evaluate_action (h : scene.WellTyped) (hb : scene.registry = .builtin)
    (hn : scene.scenario.forest.get? id = some node) (hk : node.kind = .action) {limit : Nat}
    {result : Except EvalError Value}
    (hrun : (scene.evaluate limit id).runOn before = (result, after)) :
    ((∃ error, result = .error error) ∧ Observed before after) ∨
      (result = .ok .unit ∧ ∃ looked values effect,
        scene.Called limit node before looked after values effect) := by
  obtain ⟨variant, hv, _⟩ := h.conforms.typed hn
  cases limit with
  | zero =>
      rw [evaluate, evaluateWithin, hn] at hrun
      simp only [hv] at hrun
      cases hrun
      exact .inl ⟨⟨_, rfl⟩, .refl before⟩
  | succ levels =>
      have hobserved := h.gather_observed hn (levels + 1) levels variant.params before
      rw [h.evaluate_gather hb hn hk hv] at hrun
      cases hgather :
          gather (scene.evaluateWithin (levels + 1) levels) node variant.params before with
      | mk gathered looked =>
          rw [hgather] at hrun hobserved
          cases gathered with
          | error error =>
              -- some argument has no value, and the service is never called
              cases hrun
              exact .inl ⟨⟨error, rfl⟩, hobserved⟩
          | ok values =>
              rcases serve_callsOnce (Builtin.ownAction_callsOnce _ _ _) hrun with
                ⟨error, herror, rfl⟩ | ⟨effect, hcalls, hok, hperform, hrandom⟩
              · exact .inl ⟨⟨error, herror⟩, hobserved⟩
              · have hbefore : before.services
                    = { looked.services with queries := before.services.queries } := by
                  rw [hobserved.world]
                have hworld := World.perform_queries hperform before.services.queries
                rw [← hbefore] at hworld
                exact .inr ⟨hok, looked, values, effect, ⟨variant, hv, hgather⟩, hobserved, hcalls,
                  hperform, hworld, hrandom⟩

theorem allOrNothing_of_builtin (h : scene.WellTyped) (hb : scene.registry = .builtin) :
    AllOrNothing scene := by
  refine ⟨?nothing, ?all⟩
  case nothing =>
    intro ρ _ id node hn hk limit before after error hrun
    rcases h.evaluate_action hb hn hk hrun with ⟨_, hobserved⟩ | ⟨hok, _⟩
    · exact hobserved
    · cases hok
  case all =>
    intro ρ _ id node hn hk limit before after value hrun
    rcases h.evaluate_action hb hn hk hrun with ⟨⟨error, herror⟩, _⟩ | ⟨hok, hcalled⟩
    · cases herror
    · cases hok
      exact ⟨rfl, hcalled⟩

end WellTyped

end Scene

namespace Scenario

variable {scenario : Scenario}

/-- **Actions are all or nothing** in a reachable script of built-in variants. -/
theorem Reachable.allOrNothing (h : Reachable .builtin scenario) (facts : Facts) :
    Scene.AllOrNothing ⟨.builtin, scenario, facts⟩ :=
  h.of_builtin facts fun hb hw => hw.allOrNothing_of_builtin hb

end Scenario

/-! ## A gift

A player is given as many coins as they have, which is refused to one who has none. -/

namespace Gift

open Toll (coin)

def requests : List Request :=
  [.createDraft "GiveItem", .createNode "TriggeringPlayer" [] none,
    .createNode "ItemValue" [] (some (.item coin)),
    .createNode "CountOfItem" [("player", ⟨1⟩), ("item", ⟨2⟩)] none,
    .createNode "TriggeringPlayer" [] none, .createNode "ItemValue" [] (some (.item coin)),
    .setArgument ⟨0⟩ "player" ⟨4⟩, .setArgument ⟨0⟩ "amount" ⟨3⟩, .setArgument ⟨0⟩ "item" ⟨5⟩]

/-- The script. -/
def script : Scenario :=
  requests.foldl (fun scenario request => request.after ⟨Builtin.variants⟩ scenario)
    (.empty "gift")

theorem script_reachable : Scenario.Reachable .builtin script :=
  Scenario.reachable_requests "gift" requests (by decide +kernel)

def facts : Facts := { Facts.empty .playerSpawned with actor := some ⟨7⟩ }

def scene : Scene := ⟨.builtin, script, facts⟩

def host (coins : Int64) : Host World SeededRandom :=
  ⟨((World.empty.addItemType coin).addPlayer ⟨7⟩ "Alex").setItems ⟨7⟩ coin coins, .ofSeed 0⟩

end Gift

namespace Scenario

/-- Either way the coins are counted. Only in one of the two worlds anything else happens. -/
theorem allOrNothing_gift :
    Scene.AllOrNothing Gift.scene ∧
      ((Gift.scene.evaluate 8 ⟨0⟩).runOn (Gift.host 0)).1
        = .error (.actionFailed ⟨0⟩ (.invalidAmount 0)) ∧
      ((Gift.scene.evaluate 8 ⟨0⟩).runOn (Gift.host 0)).2.services
        = { (Gift.host 0).services with queries := #[⟨⟨7⟩, Toll.coin⟩] } ∧
      ((Gift.scene.evaluate 8 ⟨0⟩).runOn (Gift.host 5)).1 = .ok .unit ∧
      ((Gift.scene.evaluate 8 ⟨0⟩).runOn (Gift.host 5)).2.services
        = { (Gift.host 10).services with queries := #[⟨⟨7⟩, Toll.coin⟩] } := by
  have hall := Gift.script_reachable.allOrNothing Gift.facts
  refine ⟨hall, ?_, ?_, ?_, ?_⟩
  · rw [Gift.scene, Registry.builtin_eq]
    decide +kernel
  · rw [Gift.scene, Registry.builtin_eq]
    decide +kernel
  · rw [Gift.scene, Registry.builtin_eq]
    decide +kernel
  · rw [Gift.scene, Registry.builtin_eq]
    decide +kernel

end Scenario

end Rulebook
