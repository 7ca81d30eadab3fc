import Rulebook.Dispatch
import Rulebook.Proofs.Evaluation.Locality
import Rulebook.Proofs.Scenario.Ownership
import Rulebook.Random.Seeded
import Rulebook.World

/-!
# What handling an occurrence does

The triggers are visited one after the other, each in the state in which the
visit before it has left the host and the random source. A visit comes to one of
three ends: the trigger is disabled, or none of its events listens, or it runs.
A run checks conditions up to the first that does not hold, and either stops there
or attempts every action.

All of this is said as relations between the state before and the state after,
in which nothing is counted: the numbers of a report are the lengths of the lists
of what was evaluated. Since every state is passed on, and since evaluation never
looks at the triggers, the triggers may as well be handled in two batches.
-/

namespace Rulebook

/-! ## One after the other -/

section InTurn

variable {α β τ : Type}

/-- The entries were visited in order, each in the state that the visit before it has left. Beside
each entry stands what its visit yielded. -/
inductive InTurn (visit : α → τ → β → τ → Prop) : τ → List (α × β) → τ → Prop where
  | nil (s : τ) : InTurn visit s [] s
  | cons {a : α} {b : β} {s t u : τ} {rest : List (α × β)} :
      visit a s b t → InTurn visit t rest u → InTurn visit s ((a, b) :: rest) u

namespace InTurn

variable {visit : α → τ → β → τ → Prop} {s t u : τ} {visited others : List (α × β)}

theorem append (h : InTurn visit s visited t) (ho : InTurn visit t others u) :
    InTurn visit s (visited ++ others) u := by
  induction h with
  | nil s => exact ho
  | cons hv _ ih => exact .cons hv (ih ho)

theorem single {a : α} {b : β} (h : visit a s b t) : InTurn visit s [(a, b)] t := .cons h (.nil t)

theorem mem (h : InTurn visit s visited t) {entry : α × β} (he : entry ∈ visited) :
    ∃ before after, visit entry.1 before entry.2 after := by
  induction h with
  | nil s => exact absurd he List.not_mem_nil
  | @cons a b s t u rest hv _ ih =>
      rcases List.mem_cons.mp he with rfl | hm
      · exact ⟨s, t, hv⟩
      · exact ih hm

/-- If every visit leads on by some steps, then so do all of them in turn. -/
theorem reach {R : τ → τ → Prop} (h : InTurn visit s visited t)
    (hv : ∀ entry ∈ visited, ∀ {before after : τ}, visit entry.1 before entry.2 after →
      Relation.ReflTransGen R before after) : Relation.ReflTransGen R s t := by
  induction h with
  | nil s => exact .refl
  | cons hfirst _ ih =>
      exact (hv _ List.mem_cons_self hfirst).trans
        (ih fun entry he => hv entry (List.mem_cons_of_mem _ he))

end InTurn

end InTurn

/-- The action of a visit and its error, if it did not complete. -/
def failure? (attempt : NodeId × Except EvalError Value) : Option ActionFailure :=
  match attempt.2 with
  | .ok _ => none
  | .error error => some ⟨attempt.1, error⟩

namespace Scene

variable {σ ρ : Type} [Services σ] [RandomSource ρ] {scene : Scene} {limit : Nat}

/-! ## What a visit is -/

/-- A root is evaluated with all levels still ahead. -/
def Evaluates (scene : Scene) (limit : Nat) (root : NodeId) (before : Host σ ρ)
    (result : Except EvalError Value) (after : Host σ ρ) : Prop :=
  (scene.evaluate limit root).runOn before = (result, after)

/-- A condition is evaluated with all levels still ahead. -/
def Judges (scene : Scene) (limit : Nat) (condition : NodeId) (before : Host σ ρ)
    (verdict : Except EvalError Bool) (after : Host σ ρ) : Prop :=
  (scene.evaluateBool limit condition).runOn before = (verdict, after)

/-- The event listens for occurrences of the kind at hand. -/
def ListensTo (scene : Scene) (event : NodeId) (node : Node) (variant : Variant) : Prop :=
  scene.scenario.forest.get? event = some node ∧
    scene.registry.get? node.variant = some variant ∧ variant.listensTo = some scene.facts.kind

/-- Whether an event listens for the occurrence at hand. -/
inductive Hears (scene : Scene) (limit : Nat) (event : NodeId) :
    Host σ ρ → Bool → Host σ ρ → Prop where
  /-- It is for another kind of occurrence. -/
  | deaf {s : Host σ ρ} : (∀ node variant, ¬ scene.ListensTo event node variant) →
      Hears scene limit event s false s
  /-- It is for this kind, and regions do not matter. -/
  | anywhere {node : Node} {variant : Variant} {s : Host σ ρ} :
      scene.ListensTo event node variant →
      scene.facts.region = none ∨ variant.param? regionParam = none →
      Hears scene limit event s true s
  /-- It is for this kind and for one region, which may turn out to be the one at hand. -/
  | region {node : Node} {variant : Variant} {param : Param} {region : RegionId}
      {s t : Host σ ρ} {named : Except EvalError RegionId} :
      scene.ListensTo event node variant → scene.facts.region = some region →
      variant.param? regionParam = some param →
      (scene.inspect limit node (Script.regionArg regionParam)).runOn s = (named, t) →
      Hears scene limit event s (named.toOption == some region) t

/-- Whether any of several events listens: they are asked in order, up to the first that does. -/
inductive HearsAny (scene : Scene) (limit : Nat) (events : List NodeId) (s : Host σ ρ) :
    Bool → Host σ ρ → Prop where
  | unheard (asked : List (NodeId × Bool)) {t : Host σ ρ} :
      asked.map Prod.fst = events → (∀ entry ∈ asked, entry.2 = false) →
      InTurn (scene.Hears limit) s asked t → HearsAny scene limit events s false t
  | heard (asked : List (NodeId × Bool)) {event : NodeId} {rest : List NodeId} {t : Host σ ρ} :
      asked.map Prod.fst ++ event :: rest = events → (∀ entry ∈ asked, entry.2 = false) →
      InTurn (scene.Hears limit) s (asked ++ [(event, true)]) t →
      HearsAny scene limit events s true t

/-- How a condition ends the check, if it does. -/
inductive Stops : Except EvalError Bool → Status → Prop where
  | failed : Stops (.ok false) .failed
  | errored (error : EvalError) : Stops (.error error) (.errored error)

/-- The conditions are checked in order, up to the first that does not hold, and counted. -/
inductive Checks (scene : Scene) (limit : Nat) (conditions : List NodeId) (s : Host σ ρ) :
    Status → Nat → Host σ ρ → Prop where
  | passed (checked : List (NodeId × Except EvalError Bool)) {t : Host σ ρ} :
      checked.map Prod.fst = conditions → (∀ entry ∈ checked, entry.2 = .ok true) →
      InTurn (scene.Judges limit) s checked t →
      Checks scene limit conditions s .done checked.length t
  | stopped (checked : List (NodeId × Except EvalError Bool)) {condition : NodeId}
      {verdict : Except EvalError Bool} {status : Status} {rest : List NodeId} {t : Host σ ρ} :
      checked.map Prod.fst ++ condition :: rest = conditions →
      (∀ entry ∈ checked, entry.2 = .ok true) → Stops verdict status →
      InTurn (scene.Judges limit) s (checked ++ [(condition, verdict)]) t →
      Checks scene limit conditions s status (checked.length + 1) t

/-- A run of a trigger: the state before, the outcome, the state after. -/
inductive Runs (scene : Scene) (limit : Nat) (trigger : Trigger) (s : Host σ ρ) :
    Outcome → Host σ ρ → Prop where
  /-- All conditions hold, and every action is attempted once. -/
  | done {checked : Nat} (attempts : List (NodeId × Except EvalError Value)) {t u : Host σ ρ} :
      scene.Checks limit trigger.conditions s .done checked t →
      attempts.map Prod.fst = trigger.actions → InTurn (scene.Evaluates limit) t attempts u →
      Runs scene limit trigger s ⟨trigger.id, .done, checked,
        attempts.countP (·.2.isOk), attempts.filterMap failure?⟩ u
  /-- A condition does not hold, and no action is attempted. -/
  | stopped {status : Status} {checked : Nat} {t : Host σ ρ} :
      scene.Checks limit trigger.conditions s status checked t → status ≠ .done →
      Runs scene limit trigger s ⟨trigger.id, status, checked, 0, []⟩ t

/-- A visit of a trigger, which may or may not have an outcome. -/
inductive Visits (scene : Scene) (limit : Nat) (trigger : Trigger) (s : Host σ ρ) :
    Option Outcome → Host σ ρ → Prop where
  | disabled : trigger.enabled = false → Visits scene limit trigger s none s
  | unheard {t : Host σ ρ} : trigger.enabled = true →
      scene.HearsAny limit trigger.events s false t → Visits scene limit trigger s none t
  | heard {outcome : Outcome} {t u : Host σ ρ} : trigger.enabled = true →
      scene.HearsAny limit trigger.events s true t → scene.Runs limit trigger t outcome u →
      Visits scene limit trigger s (some outcome) u

/-! ## Every step is such a visit -/

theorem hears_hears (limit : Nat) (event : NodeId) (s : Host σ ρ) :
    scene.Hears limit event s (scene.hears limit event s).1 (scene.hears limit event s).2 := by
  unfold hears
  split
  · rename_i hn
    refine .deaf fun node variant hl => ?_
    rw [ListensTo, hn] at hl
    exact absurd hl.1 (by simp)
  · rename_i node hn
    split
    · rename_i hv
      refine .deaf fun node' variant hl => ?_
      obtain ⟨hn', hv', _⟩ := hl
      rw [hn] at hn'
      cases hn'
      rw [hv] at hv'
      exact absurd hv' (by simp)
    · rename_i variant hv
      split
      · rename_i hkind
        have hl : scene.ListensTo event node variant := ⟨hn, hv, hkind⟩
        split
        · rename_i region param hr hp
          -- both name a region: the event hears the occurrence if the regions agree
          cases hrun : (scene.inspect limit node (Script.regionArg regionParam)).runOn s with
          | mk named t =>
            have h := Hears.region hl hr hp hrun
            cases named with
            | ok named => exact h
            | error e => exact h
        · rename_i hnone
          -- one of the two names no region, and then regions do not matter
          refine .anywhere hl ?_
          cases hr : scene.facts.region with
          | none => exact Or.inl rfl
          | some region =>
              refine Or.inr ?_
              cases hp : variant.param? regionParam with
              | none => rfl
              | some param => exact absurd hp (hnone region param hr)
      · rename_i hkind
        refine .deaf fun node' variant' hl => ?_
        obtain ⟨hn', hv', hk'⟩ := hl
        rw [hn] at hn'
        cases hn'
        rw [hv] at hv'
        cases hv'
        exact hkind hk'

/-- An event that does not listen is asked before the others. -/
theorem HearsAny.cons {event : NodeId} {rest : List NodeId} {s t u : Host σ ρ} {answer : Bool}
    (hfirst : scene.Hears limit event s false t) (h : scene.HearsAny limit rest t answer u) :
    scene.HearsAny limit (event :: rest) s answer u := by
  have hall : ∀ {asked : List (NodeId × Bool)}, (∀ entry ∈ asked, entry.2 = false) →
      ∀ entry ∈ (event, false) :: asked, entry.2 = false := by
    intro asked hall entry he
    rcases List.mem_cons.mp he with rfl | hm
    · rfl
    · exact hall entry hm
  cases h with
  | unheard asked hm hdeaf hturn =>
      exact .unheard ((event, false) :: asked) (by rw [List.map_cons, hm]) (hall hdeaf)
        (.cons hfirst hturn)
  | heard asked hm hdeaf hturn =>
      exact .heard ((event, false) :: asked) (by rw [List.map_cons, List.cons_append, hm])
        (hall hdeaf) (.cons hfirst hturn)

theorem hearsAny_hears (limit : Nat) (events : List NodeId) :
    ∀ s : Host σ ρ, scene.HearsAny limit events s (scene.hearsAny limit events s).1
      (scene.hearsAny limit events s).2 := by
  induction events with
  | nil => exact fun s => .unheard [] rfl (by simp) (.nil s)
  | cons event rest ih =>
      intro s
      have hfirst := scene.hears_hears limit event s
      rw [hearsAny]
      cases hr : scene.hears limit event s with
      | mk answer t =>
          rw [hr] at hfirst
          cases answer with
          | true => exact .heard [] rfl (by simp) (.single hfirst)
          | false => exact (ih t).cons hfirst

/-- A condition that holds is checked before the others. -/
theorem Checks.cons {condition : NodeId} {rest : List NodeId} {s t u : Host σ ρ}
    {status : Status} {checked : Nat} (hfirst : scene.Judges limit condition s (.ok true) t)
    (h : scene.Checks limit rest t status checked u) :
    scene.Checks limit (condition :: rest) s status (checked + 1) u := by
  have hall : ∀ {checked : List (NodeId × Except EvalError Bool)},
      (∀ entry ∈ checked, entry.2 = .ok true) →
      ∀ entry ∈ (condition, .ok true) :: checked, entry.2 = .ok true := by
    intro checked hall entry he
    rcases List.mem_cons.mp he with rfl | hm
    · rfl
    · exact hall entry hm
  cases h with
  | passed checked hm hhold hturn =>
      exact .passed ((condition, .ok true) :: checked) (by rw [List.map_cons, hm]) (hall hhold)
        (.cons hfirst hturn)
  | stopped checked hm hhold hstop hturn =>
      exact .stopped ((condition, .ok true) :: checked)
        (by rw [List.map_cons, List.cons_append, hm]) (hall hhold) hstop (.cons hfirst hturn)

theorem checkConditions_checks (limit : Nat) (conditions : List NodeId) :
    ∀ s : Host σ ρ, scene.Checks limit conditions s
      (scene.checkConditions limit conditions s).1.1
      (scene.checkConditions limit conditions s).1.2
      (scene.checkConditions limit conditions s).2 := by
  induction conditions with
  | nil => exact fun s => .passed [] rfl (by simp) (.nil s)
  | cons condition rest ih =>
      intro s
      rw [checkConditions]
      cases hr : (scene.evaluateBool limit condition).runOn s with
      | mk verdict t =>
          have hfirst : scene.Judges limit condition s verdict t := hr
          cases verdict with
          | error e => exact .stopped [] rfl (by simp) (.errored e) (.single hfirst)
          | ok holds =>
              cases holds with
              | true => exact (ih t).cons hfirst
              | false => exact .stopped [] rfl (by simp) .failed (.single hfirst)

theorem runActions_evaluates (limit : Nat) (actions : List NodeId) :
    ∀ s : Host σ ρ, ∃ attempts, attempts.map Prod.fst = actions ∧
      InTurn (scene.Evaluates limit) s attempts (scene.runActions limit actions s).2 ∧
      (scene.runActions limit actions s).1
        = (attempts.countP (·.2.isOk), attempts.filterMap failure?) := by
  induction actions with
  | nil => exact fun s => ⟨[], rfl, .nil s, rfl⟩
  | cons action rest ih =>
      intro s
      rw [runActions]
      cases hr : (scene.evaluate limit action).runOn s with
      | mk result t =>
          have hfirst : scene.Evaluates limit action s result t := hr
          obtain ⟨attempts, hm, hturn, hcount⟩ := ih t
          refine ⟨(action, result) :: attempts, by rw [List.map_cons, hm], ?_⟩
          rw [List.countP_cons, List.filterMap_cons]
          cases result with
          | ok value =>
              refine ⟨.cons hfirst hturn, ?_⟩
              simp [hcount, failure?, Except.isOk, Except.toBool]
          | error e =>
              refine ⟨.cons hfirst hturn, ?_⟩
              simp [hcount, failure?, Except.isOk, Except.toBool]

theorem runTrigger_runs (limit : Nat) (trigger : Trigger) (s : Host σ ρ) :
    scene.Runs limit trigger s (scene.runTrigger limit trigger s).1
      (scene.runTrigger limit trigger s).2 := by
  have hchecks := scene.checkConditions_checks limit trigger.conditions s
  unfold runTrigger
  split
  · rename_i checked t hr
    rw [hr] at hchecks
    obtain ⟨attempts, hm, hturn, hcount⟩ :=
      scene.runActions_evaluates limit trigger.actions t
    cases hacts : scene.runActions limit trigger.actions t with
    | mk counts u =>
        rw [hacts] at hturn hcount
        cases hcount
        exact .done attempts hchecks hm hturn
  · rename_i status checked t hne hr
    rw [hr] at hchecks
    exact .stopped hchecks hne

/-- **Every trigger is visited once, in order**, each in the state that the visit before it has
left, and what is reported is what the visits yielded. -/
theorem runTriggers_visits (limit : Nat) (triggers : List Trigger) :
    ∀ s : Host σ ρ, ∃ visits, visits.map Prod.fst = triggers ∧
      InTurn (scene.Visits limit) s visits (scene.runTriggers limit triggers s).2 ∧
      (scene.runTriggers limit triggers s).1 = visits.filterMap Prod.snd := by
  induction triggers with
  | nil => exact fun s => ⟨[], rfl, .nil s, rfl⟩
  | cons trigger rest ih =>
      intro s
      rw [runTriggers]
      split
      · rename_i henabled
        have hears := scene.hearsAny_hears limit trigger.events s
        split
        · rename_i t hr
          rw [hr] at hears
          obtain ⟨visits, hm, hturn, hout⟩ := ih t
          exact ⟨(trigger, none) :: visits, by rw [List.map_cons, hm],
            .cons (.unheard henabled hears) hturn, hout⟩
        · rename_i t hr
          rw [hr] at hears
          -- the rest begins where this run has left the host
          have hruns := scene.runTrigger_runs limit trigger t
          obtain ⟨visits, hm, hturn, hout⟩ := ih (scene.runTrigger limit trigger t).2
          refine ⟨(trigger, some _) :: visits, by rw [List.map_cons, hm],
            .cons (.heard henabled hears hruns) hturn, ?_⟩
          rw [List.filterMap_cons, ← hout]
      · rename_i hdisabled
        obtain ⟨visits, hm, hturn, hout⟩ := ih s
        refine ⟨(trigger, none) :: visits, by rw [List.map_cons, hm],
          .cons (.disabled ?_) hturn, hout⟩
        rwa [Bool.not_eq_true] at hdisabled

/-! ## What the outcomes add up to -/

theorem Checks.counts {conditions : List NodeId} {status : Status} {checked : Nat}
    {s t : Host σ ρ} (h : scene.Checks limit conditions s status checked t) :
    (status = .done → checked = conditions.length) ∧
      (status ≠ .done → 0 < checked ∧ checked ≤ conditions.length) := by
  cases h with
  | passed checked hm hhold hturn =>
      refine ⟨fun _ => ?_, fun hne => absurd rfl hne⟩
      rw [← hm, List.length_map]
  | stopped checked hm hhold hstop hturn =>
      refine ⟨fun he => ?_, fun _ => ⟨Nat.succ_pos _, ?_⟩⟩
      · subst he
        cases hstop
      · rw [← hm, List.length_append, List.length_map, List.length_cons]
        omega

theorem length_attempts (attempts : List (NodeId × Except EvalError Value)) :
    attempts.countP (·.2.isOk) + (attempts.filterMap failure?).length = attempts.length := by
  induction attempts with
  | nil => rfl
  | cons attempt rest ih =>
      obtain ⟨action, result⟩ := attempt
      rw [List.countP_cons, List.filterMap_cons, List.length_cons, ← ih]
      cases result with
      | ok value =>
          simp only [failure?, Except.isOk, Except.toBool, if_true]
          omega
      | error e =>
          simp only [failure?, Except.isOk, Except.toBool, List.length_cons, Bool.false_eq_true,
            if_false]
          omega

end Scene

/-- The numbers of an outcome are those of the trigger's lists. -/
structure Outcome.Accounts (outcome : Outcome) (trigger : Trigger) : Prop where
  named : outcome.trigger = trigger.id
  /-- If all conditions held, all were checked, and every action either completed or failed. -/
  done : outcome.status = .done → outcome.conditionsChecked = trigger.conditions.length ∧
    outcome.actionsExecuted + outcome.failures.length = trigger.actions.length
  /-- Otherwise a condition ended the check, and no action was attempted. -/
  stopped : outcome.status ≠ .done → 0 < outcome.conditionsChecked ∧
    outcome.conditionsChecked ≤ trigger.conditions.length ∧
    outcome.actionsExecuted = 0 ∧ outcome.failures = []

namespace Scene

variable {σ ρ : Type} [Services σ] [RandomSource ρ] {scene : Scene} {limit : Nat}

theorem Runs.accounts {trigger : Trigger} {outcome : Outcome} {s t : Host σ ρ}
    (h : scene.Runs limit trigger s outcome t) : outcome.Accounts trigger := by
  cases h with
  | done attempts hchecks hm hturn =>
      refine ⟨rfl, fun _ => ⟨hchecks.counts.1 rfl, ?_⟩, fun hne => absurd rfl hne⟩
      rw [length_attempts, ← hm, List.length_map]
  | stopped hchecks hne =>
      obtain ⟨hpos, hle⟩ := hchecks.counts.2 hne
      exact ⟨rfl, fun he => absurd he hne, fun _ => ⟨hpos, hle, rfl, rfl⟩⟩

/-- Only an enabled trigger has an outcome. -/
theorem Visits.accounts {trigger : Trigger} {outcome : Outcome} {s t : Host σ ρ}
    (h : scene.Visits limit trigger s (some outcome) t) :
    trigger.enabled = true ∧ outcome.Accounts trigger := by
  cases h with
  | heard henabled _ hruns => exact ⟨henabled, hruns.accounts⟩

/-- If no two triggers have the same number, each finds its own outcome in the report. -/
theorem find?_visits {visits : List (Trigger × Option Outcome)}
    (hn : (visits.map fun visit => visit.1.id).Nodup)
    (hid : ∀ visit ∈ visits, ∀ outcome ∈ visit.2, outcome.trigger = visit.1.id) :
    ∀ visit ∈ visits,
      (visits.filterMap Prod.snd).find? (fun outcome => outcome.trigger == visit.1.id)
        = visit.2 := by
  induction visits with
  | nil => exact fun visit hv => absurd hv List.not_mem_nil
  | cons first rest ih =>
      rw [List.map_cons, List.nodup_cons] at hn
      have hrest := ih hn.2 fun visit hv => hid visit (List.mem_cons_of_mem _ hv)
      -- the outcomes of the others are those of other triggers
      have hother : ∀ outcome ∈ rest.filterMap Prod.snd, outcome.trigger ≠ first.1.id := by
        intro outcome ho he
        obtain ⟨visit, hv, hsome⟩ := List.mem_filterMap.mp ho
        have hown := hid visit (List.mem_cons_of_mem _ hv) outcome hsome
        exact hn.1 (List.mem_map.mpr ⟨visit, hv, hown.symm.trans he⟩)
      intro visit hv
      rcases List.mem_cons.mp hv with rfl | hm
      · cases ho : visit.2 with
        | none =>
            rw [List.filterMap_cons_none ho, List.find?_eq_none]
            exact fun outcome hmem he => hother outcome hmem (by simpa using he)
        | some outcome =>
            rw [List.filterMap_cons_some ho, List.find?_cons_of_pos]
            simpa using hid visit List.mem_cons_self outcome ho
      · have hne : first.1.id ≠ visit.1.id := fun he =>
          hn.1 (List.mem_map.mpr ⟨visit, hm, he.symm⟩)
        cases ho : first.2 with
        | none =>
            rw [List.filterMap_cons_none ho]
            exact hrest visit hm
        | some outcome =>
            have hown : outcome.trigger = first.1.id := hid first List.mem_cons_self outcome ho
            rw [List.filterMap_cons_some ho, List.find?_cons_of_neg]
            · exact hrest visit hm
            · rw [hown]
              simpa using hne

/-! ## Evaluation never looks at the triggers -/

/-- The scene with other triggers. -/
def withTriggers (scene : Scene) (triggers : List Trigger) : Scene :=
  { scene with scenario := { scene.scenario with triggers } }

/-- All nodes are as they were, and so are the regions. -/
theorem agreeOn_withTriggers (triggers : List Trigger) :
    AgreeOn (fun _ => True) scene (scene.withTriggers triggers) :=
  ⟨rfl, rfl, fun _ => rfl, fun _ => rfl, fun _ _ _ => trivial⟩

theorem runTriggers_withTriggers (triggers visited : List Trigger) (s : Host σ ρ) :
    (scene.withTriggers triggers).runTriggers limit visited s
      = scene.runTriggers limit visited s :=
  (agreeOn_withTriggers triggers).runTriggers_eq (fun _ _ _ _ _ => trivial) s

theorem runTriggers_append (limit : Nat) (first rest : List Trigger) :
    ∀ s : Host σ ρ, scene.runTriggers limit (first ++ rest) s =
      ((scene.runTriggers limit first s).1
          ++ (scene.runTriggers limit rest (scene.runTriggers limit first s).2).1,
        (scene.runTriggers limit rest (scene.runTriggers limit first s).2).2) := by
  induction first with
  | nil => exact fun _ => rfl
  | cons trigger others ih =>
      intro s
      rw [List.cons_append, runTriggers, runTriggers]
      split
      · split
        · exact ih _
        · simp only [ih]
          rfl
      · exact ih s

end Scene

section Dispatch

variable {σ ρ : Type} [Services σ] [RandomSource ρ] {scenario : Scenario}

/-- How an occurrence was handled: the state before, the report, the state after. -/
structure Handled (registry : Registry) (limit : Nat) (scenario : Scenario)
    (occurrence : Occurrence) (s : Host σ ρ) (report : Report) (t : Host σ ρ) : Prop where
  /-- Every trigger was visited, and the report has the outcomes of the visits. -/
  visits : ∃ visits : List (Trigger × Option Outcome), visits.map Prod.fst = scenario.triggers ∧
    InTurn (Scene.Visits ⟨registry, scenario, .ofOccurrence occurrence⟩ limit) s visits t ∧
    report = { kind := occurrence.kind, outcomes := visits.filterMap Prod.snd } ∧
    ∀ visit ∈ visits, report.outcome? visit.1.id = visit.2
  accounts : ∀ outcome ∈ report.outcomes,
    ∃ trigger ∈ scenario.triggers, trigger.enabled = true ∧ outcome.Accounts trigger
  /-- It comes to the same if the first triggers are handled, and then the others in the state
  that was left. -/
  batches : ∀ first rest, scenario.triggers = first ++ rest →
    ∃ early mid late,
      dispatch registry limit (some { scenario with triggers := first }) occurrence s
          = (early, mid) ∧
        dispatch registry limit (some { scenario with triggers := rest }) occurrence mid
          = (late, t) ∧
        report = { kind := occurrence.kind, outcomes := early.outcomes ++ late.outcomes }

/-- With a scenario, the report has what its triggers come to. -/
theorem dispatch_some (registry : Registry) (limit : Nat) (occurrence : Occurrence)
    (s : Host σ ρ) :
    dispatch registry limit (some scenario) occurrence s
      = ({ kind := occurrence.kind,
           outcomes := (Scene.runTriggers ⟨registry, scenario, .ofOccurrence occurrence⟩ limit
             scenario.triggers s).1 },
          (Scene.runTriggers ⟨registry, scenario, .ofOccurrence occurrence⟩ limit
            scenario.triggers s).2) := rfl

theorem dispatch_append (registry : Registry) (limit : Nat) (occurrence : Occurrence)
    (s : Host σ ρ) {first rest : List Trigger} (h : scenario.triggers = first ++ rest) :
    ∃ early mid late,
      dispatch registry limit (some { scenario with triggers := first }) occurrence s
          = (early, mid) ∧
        dispatch registry limit (some { scenario with triggers := rest }) occurrence mid
          = (late, (dispatch registry limit (some scenario) occurrence s).2) ∧
        (dispatch registry limit (some scenario) occurrence s).1
          = { kind := occurrence.kind, outcomes := early.outcomes ++ late.outcomes } := by
  let scene : Scene := ⟨registry, scenario, .ofOccurrence occurrence⟩
  -- a batch by itself is a run of its triggers in the scene of all
  have hbatch : ∀ (batch : List Trigger) (s : Host σ ρ),
      dispatch registry limit (some { scenario with triggers := batch }) occurrence s
        = ({ kind := occurrence.kind, outcomes := (scene.runTriggers limit batch s).1 },
            (scene.runTriggers limit batch s).2) := by
    intro batch s
    rw [← scene.runTriggers_withTriggers batch]
    rfl
  have hall : dispatch registry limit (some scenario) occurrence s
      = ({ kind := occurrence.kind, outcomes := (scene.runTriggers limit (first ++ rest) s).1 },
          (scene.runTriggers limit (first ++ rest) s).2) := by
    rw [← h]
    rfl
  rw [hall, Scene.runTriggers_append]
  exact ⟨_, _, _, hbatch first s, hbatch rest _, rfl⟩

/-- **Handling an occurrence** visits the triggers of a reachable script one by one. -/
theorem Scenario.Reached.dispatch (h : Scenario.Reached scenario) (registry : Registry)
    (limit : Nat) (occurrence : Occurrence) (s : Host σ ρ) :
    Handled registry limit scenario occurrence s
      (Rulebook.dispatch registry limit (some scenario) occurrence s).1
      (Rulebook.dispatch registry limit (some scenario) occurrence s).2 := by
  let scene : Scene := ⟨registry, scenario, .ofOccurrence occurrence⟩
  obtain ⟨visits, hm, hturn, hout⟩ := scene.runTriggers_visits limit scenario.triggers s
  have hreport : (Rulebook.dispatch registry limit (some scenario) occurrence s).1
      = { kind := occurrence.kind, outcomes := visits.filterMap Prod.snd } := by
    rw [← hout]
    rfl
  have haccounts : ∀ visit ∈ visits, ∀ outcome ∈ visit.2,
      visit.1.enabled = true ∧ outcome.Accounts visit.1 := by
    intro visit hv outcome ho
    obtain ⟨before, after, hvisit⟩ := hturn.mem hv
    rw [Option.mem_def.mp ho] at hvisit
    exact hvisit.accounts
  refine ⟨⟨visits, hm, hturn, hreport, fun visit hv => ?_⟩, fun outcome ho => ?_,
    fun first rest => dispatch_append registry limit occurrence s⟩
  · rw [hreport]
    -- no two triggers have one number, so each finds its own outcome
    refine Scene.find?_visits ?_
      (fun visit hv outcome ho => (haccounts visit hv outcome ho).2.named) visit hv
    have hids := h.owned.ids
    rw [← hm, List.map_map] at hids
    exact hids
  · rw [hreport] at ho
    obtain ⟨visit, hv, hsome⟩ := List.mem_filterMap.mp ho
    have hmem : visit.1 ∈ scenario.triggers := by
      rw [← hm]
      exact List.mem_map_of_mem hv
    exact ⟨visit.1, hmem, haccounts visit hv outcome hsome⟩

end Dispatch

/-! ## A script that says hello

When a player spawns, a trigger says something; a second action has nothing to say. -/

namespace Hello

def variants : Registry := ⟨[Greeting.say, Greeting.word, Greeting.spawned]⟩

def requests : List Request :=
  [.addTrigger "hello", .addDraft ⟨0⟩ .events "Spawned", .addDraft ⟨0⟩ .actions "Say",
    .createNode "Word" [] (some (.text "hi")), .setArgument ⟨1⟩ "text" ⟨2⟩,
    .addDraft ⟨0⟩ .actions "Say"]

/-- The script. -/
def script : Scenario :=
  requests.foldl (fun scenario request => request.after variants scenario) (.empty "hello")

theorem script_reached : Scenario.Reached script := by
  have h1 := (Scenario.Reached.empty "hello").request variants (.addTrigger "hello") trivial
    ⟨by decide, by decide, by decide⟩
  have h2 := h1.request variants (.addDraft ⟨0⟩ .events "Spawned") trivial
    ⟨by decide, by decide, by decide⟩
  have h3 := h2.request variants (.addDraft ⟨0⟩ .actions "Say") trivial
    ⟨by decide, by decide, by decide⟩
  have h4 := h3.request variants (.createNode "Word" [] (some (.text "hi"))) trivial
    ⟨by decide, by decide, by decide⟩
  have h5 := h4.request variants (.setArgument ⟨1⟩ "text" ⟨2⟩) trivial
    ⟨by decide, by decide, by decide⟩
  exact h5.request variants (.addDraft ⟨0⟩ .actions "Say") trivial
    ⟨by decide, by decide, by decide⟩

def host : Host World SeededRandom := ⟨World.empty, .ofSeed 0⟩

end Hello

/-- One action completes and the other does not. -/
theorem dispatch_hello :
    Handled Hello.variants 8 Hello.script (.playerSpawned ⟨0⟩) Hello.host
      { kind := .playerSpawned,
        outcomes := [⟨⟨0⟩, .done, 0, 1, [⟨⟨3⟩, .missingArgument ⟨3⟩ "text"⟩]⟩] }
      (dispatch Hello.variants 8 (some Hello.script) (.playerSpawned ⟨0⟩) Hello.host).2 := by
  have h := Hello.script_reached.dispatch Hello.variants 8 (.playerSpawned ⟨0⟩) Hello.host
  have hreport :
      (dispatch Hello.variants 8 (some Hello.script) (.playerSpawned ⟨0⟩) Hello.host).1
        = { kind := .playerSpawned,
            outcomes := [⟨⟨0⟩, .done, 0, 1, [⟨⟨3⟩, .missingArgument ⟨3⟩ "text"⟩]⟩] } := by
    decide +kernel
  rw [hreport] at h
  exact h

end Rulebook
