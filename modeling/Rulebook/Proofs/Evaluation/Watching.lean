import Mathlib.Data.List.Induction
import Rulebook.Engine
import Rulebook.Proofs.Evaluation.Simulation

/-!
# Watching a host

The state of a host changes when a service is called, and at no other time. So a
host can be watched: whoever passes the calls on to it and writes down each of them
with what came of it cannot be told apart from the host itself, and knows in the end
by which calls the state came about.

Services are called on their own, in evaluating a node and in handling an
occurrence. Any number of these may follow each other, of any scripts, on one host.
-/

namespace Rulebook

/-- A call of a service, with what came of it. -/
inductive Call where
  | asked (query : Query)
  | performed (effect : Effect) (result : Except ServiceError Unit)

section Calling

variable {σ : Type} [Services σ]

/-- The call was made in the one state and led to the other. -/
inductive Call.Leads : Call → σ → σ → Prop where
  | asked (query : Query) (state : σ) :
      Leads (.asked query) state (Services.answer query state).2
  | performed (effect : Effect) (state : σ) :
      Leads (.performed effect (Services.perform effect state).1) state
        (Services.perform effect state).2

/-- The calls, oldest first, led from the one state to the other. -/
inductive History : σ → List Call → σ → Prop where
  | start (state : σ) : History state [] state
  | call {first before after : σ} {calls : List Call} {call : Call} :
      History first calls before → call.Leads before after →
      History first (calls ++ [call]) after

/-- A history can be cut anywhere. -/
theorem History.exists_between {first last : σ} {made rest : List Call}
    (h : History first (made ++ rest) last) :
    ∃ between, History first made between ∧ History between rest last := by
  induction rest using List.reverseRecOn generalizing last with
  | nil =>
      rw [List.append_nil] at h
      exact ⟨last, h, .start last⟩
  | append_singleton rest call ih =>
      rw [← List.append_assoc] at h
      generalize hcalls : made ++ rest ++ [call] = calls at h
      cases h with
      | start => simp at hcalls
      | call hbefore hleads =>
          obtain ⟨rfl, hcall⟩ := List.append_inj' hcalls rfl
          cases hcall
          obtain ⟨between, hmade, hrest⟩ := ih hbefore
          exact ⟨between, hmade, .call hrest hleads⟩

end Calling

/-- A host and the calls that were made of it, oldest first. -/
structure Watched (σ : Type) where
  services : σ
  calls : List Call

/-- Every call is passed on and written down. -/
instance {σ : Type} [Services σ] : Services (Watched σ) where
  hasBlock state := Services.hasBlock state.services
  hasItem state := Services.hasItem state.services
  answer query state :=
    let (reply, services) := Services.answer query state.services
    (reply, ⟨services, state.calls ++ [.asked query]⟩)
  perform effect state :=
    let (result, services) := Services.perform effect state.services
    (result, ⟨services, state.calls ++ [.performed effect result]⟩)

namespace Watched

variable {σ ρ : Type} [Services σ]

/-- The host that is watched is in that state, to which the calls have led. -/
def Follows (first : σ) (watched : Watched σ) (services : σ) : Prop :=
  watched.services = services ∧ History first watched.calls services

theorem Follows.answer {first services : σ} {watched : Watched σ}
    (h : watched.Follows first services) (query : Query) :
    Follows first (Services.answer query watched).2 (Services.answer query services).2 := by
  obtain ⟨rfl, hcalls⟩ := h
  exact ⟨rfl, hcalls.call (.asked query watched.services)⟩

theorem Follows.perform {first services : σ} {watched : Watched σ}
    (h : watched.Follows first services) (effect : Effect) :
    Follows first (Services.perform effect watched).2 (Services.perform effect services).2 := by
  obtain ⟨rfl, hcalls⟩ := h
  exact ⟨rfl, hcalls.call (.performed effect watched.services)⟩

/-- The same with a random source beside it, which is not watched. -/
def Beside (first : σ) (watched : Host (Watched σ) ρ) (host : Host σ ρ) : Prop :=
  watched.services.Follows first host.services ∧ watched.random = host.random

/-- **A watched host cannot be told apart from the host itself.** -/
theorem simulates [RandomSource ρ] (first : σ) : Simulates (Beside (ρ := ρ) first) := by
  refine ⟨fun h key => ?hasBlock, fun h key => ?hasItem, fun query => ?ask,
    fun node effect => ?perform, fun low high => ?roll⟩
  case hasBlock => exact congrArg (Services.hasBlock · key) h.1.1
  case hasItem => exact congrArg (Services.hasItem · key) h.1.1
  case ask =>
    rintro ⟨watched, random⟩ ⟨services, _⟩ ⟨⟨rfl, hcalls⟩, rfl⟩
    exact ⟨_, _, _, rfl, rfl, Follows.answer ⟨rfl, hcalls⟩ query, rfl⟩
  case perform =>
    rintro ⟨watched, random⟩ ⟨services, _⟩ ⟨⟨rfl, hcalls⟩, rfl⟩
    exact ⟨_, _, _, rfl, rfl, Follows.perform ⟨rfl, hcalls⟩ effect, rfl⟩
  case roll =>
    rintro ⟨watched, random⟩ ⟨services, _⟩ ⟨hfollows, rfl⟩
    exact ⟨_, _, _, rfl, rfl, hfollows, rfl⟩

end Watched

/-! ## What is done to a host -/

/-- Something that may change the state of a host. The engines need not have to do with each
other. -/
inductive Deed (ρ : Type) where
  | ask (query : Query)
  | perform (effect : Effect)
  | evaluate (engine : Engine ρ) (scenario : Scenario) (facts : Facts) (node : NodeId)
  | dispatch (engine : Engine ρ) (scenario : Option Scenario) (occurrence : Occurrence)

namespace Deed

variable {σ ρ : Type} [Services σ] [RandomSource ρ]

/-- The state of the host after a deed. -/
def after : Deed ρ → σ → σ
  | ask query, services => (Services.answer query services).2
  | perform effect, services => (Services.perform effect services).2
  | evaluate engine scenario facts node, services =>
    (engine.evaluate scenario services facts node).2.2
  | dispatch engine scenario occurrence, services =>
    (engine.dispatch scenario services occurrence).2.2

/-- The state of the host after several deeds, one after the other. -/
def afterAll (deeds : List (Deed ρ)) (services : σ) : σ :=
  deeds.foldl (fun services deed => deed.after services) services

theorem after_follows {first services : σ} {watched : Watched σ}
    (h : watched.Follows first services) (deed : Deed ρ) :
    (deed.after watched).Follows first (deed.after services) := by
  have hsimulates := Watched.simulates (ρ := ρ) first
  cases deed with
  | ask query => exact h.answer query
  | perform effect => exact h.perform effect
  | evaluate engine scenario facts node =>
      obtain ⟨result, after, after', hrun, htwin, hafter⟩ :=
        Scene.evaluate_tracks hsimulates ⟨engine.registry, scenario, facts⟩ engine.config.maxDepth
          node ⟨watched, engine.random⟩ ⟨services, engine.random⟩ ⟨h, rfl⟩
      rw [Deed.after, Deed.after, Engine.evaluate, Engine.evaluate, hrun, htwin]
      exact hafter.1
  | dispatch engine scenario occurrence =>
      obtain ⟨report, after, after', hrun, htwin, hafter⟩ :=
        dispatch_tracks hsimulates engine.registry engine.config.maxDepth scenario occurrence
          ⟨watched, engine.random⟩ ⟨services, engine.random⟩ ⟨h, rfl⟩
      rw [Deed.after, Deed.after, Engine.dispatch, Engine.dispatch, hrun, htwin]
      exact hafter.1

/-- **Whatever is done, the calls that were written down led there.** -/
theorem afterAll_follows (deeds : List (Deed ρ)) {first services : σ} {watched : Watched σ}
    (h : watched.Follows first services) :
    (afterAll deeds watched).Follows first (afterAll deeds services) := by
  induction deeds generalizing services watched with
  | nil => exact h
  | cons deed rest ih => exact ih (after_follows h deed)

/-- What is written down from the start is the history of the host. -/
theorem exists_allCalls (deeds : List (Deed ρ)) (services : σ) : ∃ calls,
    afterAll deeds (⟨services, []⟩ : Watched σ) = ⟨afterAll deeds services, calls⟩ ∧
      History services calls (afterAll deeds services) := by
  have hfollows : (⟨services, []⟩ : Watched σ).Follows services services := ⟨rfl, .start services⟩
  obtain ⟨hsame, hcalls⟩ := afterAll_follows deeds hfollows
  exact ⟨_, congrArg (Watched.mk · _) hsame, hcalls⟩

theorem exists_calls (deed : Deed ρ) (services : σ) : ∃ calls,
    deed.after (⟨services, []⟩ : Watched σ) = ⟨deed.after services, calls⟩ ∧
      History services calls (deed.after services) :=
  exists_allCalls [deed] services

end Deed

end Rulebook
