import Rulebook.Engine
import Rulebook.Proofs.Dispatch
import Rulebook.Proofs.Evaluation.Typing
import Rulebook.Proofs.Scenario.Removal

/-!
# Which triggers an occurrence concerns

Whether an event listens is decided by running a script: the argument in the slot
for the region is evaluated like any other, and an error counts as no. In a
script of built-in variants there are just two sorts of nodes that can be in that
slot, the triggering region and a region that is given by a literal. So it can be
said without evaluating anything which occurrences an event *matches*, and
finding that out leaves no trace in the host.
-/

namespace Rulebook

namespace Scenario

/-- The node stands for the region of the occurrence, or for a region of its own that is the same
and still exists. -/
def Names (scenario : Scenario) (child : NodeId) (region : RegionId) : Prop :=
  ∃ inner ∈ scenario.forest.get? child,
    inner.variant = "TriggeringRegion" ∨
      inner.variant = "RegionValue" ∧ inner.literal = some (.region region) ∧
        (scenario.region? region).isSome

instance (scenario : Scenario) (child : NodeId) (region : RegionId) :
    Decidable (scenario.Names child region) :=
  inferInstanceAs (Decidable (∃ inner ∈ scenario.forest.get? child, _))

variable {scenario : Scenario} {child : NodeId} {region named : RegionId} {inner : Node}

/-- A region that is given by a literal is the one in the literal, if that still exists. -/
theorem names_iff_of_literal (hn : scenario.forest.get? child = some inner)
    (hv : inner.variant = "RegionValue") (hl : inner.literal = some (.region named)) :
    scenario.Names child region ↔ named = region ∧ (scenario.region? named).isSome := by
  constructor
  · intro h
    obtain ⟨other, hother, hsort⟩ := h
    cases hn.symm.trans hother
    rcases hsort with htriggering | ⟨_, hliteral, hthere⟩
    · rw [hv] at htriggering
      exact absurd htriggering (by decide)
    · rw [hl] at hliteral
      cases hliteral
      exact ⟨rfl, hthere⟩
  · intro h
    obtain ⟨rfl, hthere⟩ := h
    exact ⟨inner, hn, Or.inr ⟨hv, hl, hthere⟩⟩

theorem names_of_triggering (hn : scenario.forest.get? child = some inner)
    (hv : inner.variant = "TriggeringRegion") : scenario.Names child region :=
  ⟨inner, hn, Or.inl hv⟩

/-- The event is of the variant for occurrences of this kind, and if the occurrence names a region,
so does what is in the slot of the event. -/
def Matches (scenario : Scenario) (registry : Registry) (occurrence : Occurrence)
    (event : NodeId) : Prop :=
  ∃ node ∈ scenario.forest.get? event, ∃ variant ∈ registry.get? node.variant,
    variant.listensTo = some occurrence.kind ∧
      ∀ region ∈ occurrence.region?, ∃ child ∈ node.argument? "region", scenario.Names child region

instance (scenario : Scenario) (registry : Registry) (occurrence : Occurrence) (event : NodeId) :
    Decidable (scenario.Matches registry occurrence event) :=
  inferInstanceAs (Decidable (∃ node ∈ scenario.forest.get? event, _))

/-- The trigger is enabled, and one of its events matches. -/
def Concerns (scenario : Scenario) (registry : Registry) (occurrence : Occurrence)
    (trigger : Trigger) : Prop :=
  trigger.enabled = true ∧ ∃ event ∈ trigger.events, scenario.Matches registry occurrence event

instance (scenario : Scenario) (registry : Registry) (occurrence : Occurrence)
    (trigger : Trigger) : Decidable (scenario.Concerns registry occurrence trigger) :=
  inferInstanceAs (Decidable (trigger.enabled = true ∧ ∃ event ∈ trigger.events, _))

end Scenario

namespace Builtin

/-- There are two sorts of nodes that stand for a region. -/
theorem region_variants : ∀ variant ∈ variants, variant.result = .region →
    variant.id = "RegionValue" ∧ variant.literal = some .region ∨
      variant.id = "TriggeringRegion" ∧
        variant.rule = (do return .region (← Script.fact "region" (·.region))) := by
  have hexpressions : ∀ variant ∈ expressions, variant.result = .region →
      variant.id = "TriggeringRegion" ∧
        variant.rule = (do return .region (← Script.fact "region" (·.region))) := by
    simp [expressions, expression]
  have hvalues : ∀ variant ∈ values, variant.result = .region →
      variant.id = "RegionValue" ∧ variant.literal = some .region := by
    decide
  have hothers : ∀ variant ∈ conditionals ++ actions ++ events, variant.result ≠ .region := by
    decide
  intro variant hm hr
  simp only [variants, List.mem_append] at hm hothers
  rcases hm with (((hm | hm) | hm) | hm) | hm
  · exact Or.inl (hvalues variant hm hr)
  · exact Or.inr (hexpressions variant hm hr)
  · exact absurd hr (hothers variant (Or.inl (Or.inl hm)))
  · exact absurd hr (hothers variant (Or.inl (Or.inr hm)))
  · exact absurd hr (hothers variant (Or.inr hm))

/-- Events of regions have a slot for the region, which stands for nothing when it is unset. -/
theorem region_slots : ∀ variant ∈ variants, ∀ kind ∈ variant.listensTo,
    kind.isRegionScoped = true →
    variant.param? Scene.regionParam = some { name := "region", type := .region } := by
  decide

end Builtin

theorem Facts.kind_ofOccurrence (occurrence : Occurrence) :
    (Facts.ofOccurrence occurrence).kind = occurrence.kind := by
  cases occurrence <;> rfl

theorem Facts.region_ofOccurrence (occurrence : Occurrence) :
    (Facts.ofOccurrence occurrence).region = occurrence.region? := by
  cases occurrence <;> rfl

theorem Occurrence.isRegionScoped_of_region? {occurrence : Occurrence} {region : RegionId}
    (h : occurrence.region? = some region) : occurrence.kind.isRegionScoped = true := by
  cases occurrence <;> simp_all [region?, kind, OccurrenceKind.isRegionScoped]

theorem Engine.create_registry {ρ : Type} (registry : Registry) (config : Config) (random : ρ) :
    (Engine.create registry config random).registry = registry := rfl

/-- Visits that leave everything as it is leave it so in turn. -/
theorem InTurn.eq_of_idle {α β τ : Type} {visit : α → τ → β → τ → Prop} {s t : τ}
    {visited : List (α × β)} (h : InTurn visit s visited t)
    (hidle : ∀ {a s b t}, visit a s b t → t = s) : t = s := by
  induction h with
  | nil s => rfl
  | cons hv _ ih => exact ih.trans (hidle hv)

/-- Nothing is changed by finding out whether something is so. The answer is never yes if it is not
so; it is yes if it is so and a level may be entered. -/
structure Decides {τ : Type} (limit : Nat) (truth : Prop) (s : τ) (answer : Bool) (t : τ) :
    Prop where
  quiet : t = s
  sound : answer = true → truth
  complete : 0 < limit → truth → answer = true

theorem Decides.eq_false {τ : Type} {limit : Nat} {truth : Prop} {s t : τ} {answer : Bool}
    (h : Decides limit truth s answer t) (hno : ¬ truth) : answer = false := by
  cases answer with
  | false => rfl
  | true => exact absurd (h.sound rfl) hno

namespace Scene

variable {σ ρ : Type} [Services σ] [RandomSource ρ] {scene : Scene} {limit : Nat}
  {occurrence : Occurrence} {region : RegionId} {child event : NodeId} {node inner : Node}
  {variant : Variant}

/-! ## Regions in slots -/

/-- The script is of built-in variants, and every node is as they say. -/
structure Builtin (scene : Scene) : Prop where
  registry : scene.registry = .builtin
  conforms : Forest.Conforms .builtin scene.scenario.forest

/-- The rule of a node that stands for a region leaves the host alone. It yields the region at
hand exactly if the node names it. -/
theorem Builtin.serve_region (h : scene.Builtin)
    (hn : scene.scenario.forest.get? child = some inner)
    (hv : Registry.builtin.get? inner.variant = some variant) (ht : inner.result = .region)
    (hr : scene.facts.region = some region) (below : NodeId → Evaluation σ ρ Value)
    (s : Host σ ρ) :
    ∃ result, (scene.serve below inner variant.rule).runOn s = (result, s) ∧
      (∀ value, result = .ok value → value.type = .region) ∧
      (result = .ok (.region region) ↔ scene.scenario.Names child region) := by
  obtain ⟨own, ho, _, hresult, hliteral⟩ := h.conforms.typed hn
  rw [hv] at ho
  cases ho
  have hmem : variant ∈ Rulebook.Builtin.variants := Registry.mem_of_builtin hv
  have hid : variant.id = inner.variant := Registry.id_of_get? hv
  rcases Rulebook.Builtin.region_variants variant hmem (hresult.symm.trans ht) with
    ⟨hname, hlit⟩ | ⟨hname, hrule⟩
  · -- the literal refers to a region, which may be this one and may be there
    obtain ⟨literal, hl, htype⟩ : ∃ literal, inner.literal = some literal ∧
        literal.type = .region :=
      Option.map_eq_some_iff.mp (hliteral.symm.trans hlit)
    obtain ⟨named, rfl⟩ : ∃ named, literal = .region named := by
      cases literal with
      | region named => exact ⟨named, rfl⟩
      | _ => exact absurd htype (by simp [Literal.type])
    have hserve : (scene.serve below inner variant.rule).runOn s
        = (if (scene.scenario.region? named).isSome then .ok (.region named)
            else .error (.danglingReference inner.id named.text), s) := by
      rw [Rulebook.Builtin.rule_of_literal variant hmem (by rw [hlit]; rfl), serve_ownLiteral hl,
        resolve_region]
    refine ⟨_, hserve, ?_⟩
    rw [Scenario.names_iff_of_literal hn (hid.symm.trans hname) hl]
    split
    · rename_i hthere
      exact ⟨fun value he => Except.ok.inj he ▸ rfl, by simp [hthere]⟩
    · rename_i hgone
      exact ⟨fun value he => absurd he (by simp), by simp [hgone]⟩
  · have hserve : (scene.serve below inner variant.rule).runOn s = (.ok (.region region), s) := by
      rw [hrule]
      show (scene.serve below inner ((Script.fact "region" (·.region)).andThen _)).runOn s = _
      simp only [Script.fact, Script.andThen, serve, hr]
      rfl
    exact ⟨_, hserve, fun value he => Except.ok.inj he ▸ rfl,
      fun _ => Scenario.names_of_triggering hn (hid.symm.trans hname), fun _ => rfl⟩

/-- The evaluation leaves the host alone. It never ends with the region if that is not true; it does
if it is true and a level may be entered. -/
structure Tells (limit : Nat) (truth : Prop) (region : RegionId)
    (evaluation : Evaluation σ ρ Value) : Prop where
  quiet : ∀ s, (evaluation.runOn s).2 = s
  sound : ∀ s, (evaluation.runOn s).1 = .ok (.region region) → truth
  complete : 0 < limit → truth → ∀ s, (evaluation.runOn s).1 = .ok (.region region)

/-- A node that stands for a region tells whether it names the one at hand. -/
theorem Builtin.evaluate_region (h : scene.Builtin)
    (hn : scene.scenario.forest.get? child = some inner) (ht : inner.result = .region)
    (hr : scene.facts.region = some region) (limit : Nat) :
    Tells limit (scene.scenario.Names child region) region
      (scene.evaluate limit child : Evaluation σ ρ Value) := by
  obtain ⟨variant, hv, _⟩ := h.conforms.typed hn
  have hown : scene.registry.get? inner.variant = some variant := h.registry ▸ hv
  unfold evaluate
  cases limit with
  | zero =>
      have hdeep : (scene.evaluateWithin 0 0 child : Evaluation σ ρ Value)
          = throw (.depthExceeded 0) := by
        rw [evaluateWithin, hn]
        simp only [hown]
      rw [hdeep]
      exact ⟨fun _ => rfl, fun _ he => absurd he (by simp),
        fun hpos => absurd hpos (Nat.lt_irrefl 0)⟩
  | succ remaining =>
      have hrun : ∀ s : Host σ ρ, ∃ result,
          (scene.evaluateWithin (remaining + 1) (remaining + 1) child).runOn s = (result, s) ∧
            (result = .ok (.region region) ↔ scene.scenario.Names child region) := by
        intro s
        obtain ⟨result, hserve, htype, hiff⟩ :=
          h.serve_region hn hv ht hr (scene.evaluateWithin (remaining + 1) remaining) s
        exact ⟨result, evaluateWithin_of_serve hn hown hserve
          (fun value he => (htype value he).trans ht.symm), hiff⟩
      refine ⟨fun s => ?_, fun s he => ?_, fun _ hnames s => ?_⟩
      · obtain ⟨result, hs, _⟩ := hrun s
        rw [hs]
      · obtain ⟨result, hs, hiff⟩ := hrun s
        rw [hs] at he
        exact hiff.mp he
      · obtain ⟨result, hs, hiff⟩ := hrun s
        rw [hs]
        exact hiff.mpr hnames

/-! ## Whether an event listens -/

/-- So does the slot for the region; nothing stands in for a region that is not there. -/
theorem Builtin.argument_region (h : scene.Builtin)
    (hn : scene.scenario.forest.get? event = some node)
    (hv : scene.registry.get? node.variant = some variant)
    (hp : variant.param? regionParam = some { name := "region", type := .region })
    (hr : scene.facts.region = some region) (limit : Nat) :
    Tells limit (∃ child ∈ node.argument? regionParam, scene.scenario.Names child region) region
      (scene.argument (scene.evaluate limit) node regionParam : Evaluation σ ρ Value) := by
  unfold argument
  cases hchild : node.argument? regionParam with
  | none =>
      rw [hv, Option.bind_some, hp]
      exact ⟨fun _ => rfl, fun _ he => absurd he (by simp), fun _ hx => absurd hx (by simp)⟩
  | some child =>
      have hb := Node.mem_of_argument? hchild
      obtain ⟨param, inner, hparam, hi, ht⟩ := h.conforms.slots hn (h.registry ▸ hv) hb
      rw [hp] at hparam
      cases hparam
      have htells : Tells limit (scene.scenario.Names child region) region
          (scene.evaluate limit child : Evaluation σ ρ Value) := h.evaluate_region hi ht hr limit
      simpa using htells

/-- An argument that has to be a region is evaluated, and then it is looked at what came. -/
theorem inspect_regionArg (scene : Scene) (limit : Nat) (node : Node) (param : String)
    (s : Host σ ρ) :
    ∃ named, (scene.inspect limit node (Script.regionArg param)).runOn s
        = (named, ((scene.argument (scene.evaluate limit) node param).runOn s).2) ∧
      ∀ region, named.toOption = some region ↔
        ((scene.argument (scene.evaluate limit) node param).runOn s).1 = .ok (.region region) := by
  -- the script asks for the argument and looks whether it is a region
  have hinspect : (scene.inspect limit node (Script.regionArg param) : Evaluation σ ρ RegionId)
      = (do
        let value ← scene.argument (scene.evaluate limit) node param
        match value.region? with
        | some id => return id
        | none => throw (.typeMismatch node.id .region value.type)) := by
    refine congrArg (_ >>= ·) (funext fun value => ?_)
    change scene.serve _ node (Script.andThen (.done value) _) = _
    rw [Script.andThen]
    cases value.region? <;> rfl
  rw [hinspect, Attempt.runOn_bind]
  cases (scene.argument (scene.evaluate limit) node param).runOn s with
  | mk result t =>
      cases result with
      | error e => exact ⟨.error e, rfl, by simp [Except.toOption]⟩
      | ok value =>
          cases value with
          | region id => exact ⟨.ok id, rfl, by simp [Except.toOption]⟩
          | _ => exact ⟨_, rfl, by simp [Except.toOption]⟩

/-- What is in the slot for the region decides whether an event listens. -/
theorem Builtin.inspect_region (h : scene.Builtin)
    (hn : scene.scenario.forest.get? event = some node)
    (hv : scene.registry.get? node.variant = some variant)
    (hp : variant.param? regionParam = some { name := "region", type := .region })
    (hr : scene.facts.region = some region) {named : Except EvalError RegionId} {s t : Host σ ρ}
    (hrun : (scene.inspect limit node (Script.regionArg regionParam)).runOn s = (named, t)) :
    Decides limit (∃ child ∈ node.argument? regionParam, scene.scenario.Names child region) s
      (named.toOption == some region) t := by
  have htells : Tells limit _ region
      (scene.argument (scene.evaluate limit) node regionParam : Evaluation σ ρ Value) :=
    h.argument_region hn hv hp hr limit
  obtain ⟨_, hinspect, hiff⟩ := scene.inspect_regionArg limit node regionParam s
  cases hrun.symm.trans hinspect
  refine ⟨htells.quiet s, fun he => ?_, fun hpos hx => ?_⟩
  · exact htells.sound s ((hiff region).mp (beq_iff_eq.mp he))
  · exact beq_iff_eq.mpr ((hiff region).mpr (htells.complete hpos hx s))

/-- **An event listens if it matches**, and only then. -/
theorem Builtin.hears_decides (h : scene.Builtin) (hf : scene.facts = .ofOccurrence occurrence)
    {s t : Host σ ρ} {answer : Bool} (hears : scene.Hears limit event s answer t) :
    Decides limit (scene.scenario.Matches scene.registry occurrence event) s answer t := by
  have hkind : scene.facts.kind = occurrence.kind := hf ▸ Facts.kind_ofOccurrence occurrence
  have hplace : scene.facts.region = occurrence.region? := hf ▸ Facts.region_ofOccurrence occurrence
  -- an event of this kind has the slot if the occurrence names a region
  have hslot : ∀ {node variant region}, scene.ListensTo event node variant →
      occurrence.region? = some region →
      variant.param? regionParam = some { name := "region", type := .region } := by
    intro node variant region hl hregion
    obtain ⟨_, hv, hlisten⟩ := hl
    rw [h.registry] at hv
    exact Rulebook.Builtin.region_slots variant (Registry.mem_of_builtin hv) occurrence.kind
      (hkind ▸ hlisten) (Occurrence.isRegionScoped_of_region? hregion)
  cases hears with
  | deaf hdeaf =>
      refine ⟨rfl, fun he => absurd he (by simp), fun _ hm => ?_⟩
      obtain ⟨node, hn, variant, hv, hl, _⟩ := hm
      exact absurd ⟨hn, hv, hkind ▸ hl⟩ (hdeaf node variant)
  | @anywhere node variant _ hl hnone =>
      refine ⟨rfl, fun _ => ?_, fun _ _ => rfl⟩
      refine ⟨node, hl.1, variant, hl.2.1, hkind ▸ hl.2.2, fun region hregion => ?_⟩
      rcases hnone with hnowhere | hunslotted
      · rw [hplace, hregion] at hnowhere
        exact absurd hnowhere (by simp)
      · rw [hslot hl hregion] at hunslotted
        exact absurd hunslotted (by simp)
  | @region node variant param region _ _ named hl hr hparam hrun =>
      have hregion : occurrence.region? = some region := hplace ▸ hr
      have hdecides := h.inspect_region hl.1 hl.2.1 (hslot hl hregion) hr hrun
      refine ⟨hdecides.quiet, fun he => ?_, fun hpos hm => hdecides.complete hpos ?_⟩
      · refine ⟨node, hl.1, variant, hl.2.1, hkind ▸ hl.2.2, fun other hother => ?_⟩
        cases hregion.symm.trans hother
        exact hdecides.sound he
      · obtain ⟨other, hn, _, _, _, hnames⟩ := hm
        cases hl.1.symm.trans hn
        exact hnames region hregion

/-- Several events are asked until one listens. -/
theorem Builtin.hearsAny_decides (h : scene.Builtin) (hf : scene.facts = .ofOccurrence occurrence)
    {events : List NodeId} {s t : Host σ ρ} {answer : Bool}
    (hears : scene.HearsAny limit events s answer t) :
    Decides limit (∃ event ∈ events, scene.scenario.Matches scene.registry occurrence event) s
      answer t := by
  -- asking an event leaves the host as it is, so all are asked in one state
  have hidle : ∀ {event : NodeId} {s t : Host σ ρ} {answer : Bool},
      scene.Hears limit event s answer t → t = s := fun hears => (h.hears_decides hf hears).quiet
  cases hears with
  | unheard asked hm hdeaf hturn =>
      refine ⟨hturn.eq_of_idle hidle, fun he => absurd he (by simp), fun hpos hx => ?_⟩
      obtain ⟨event, he, hmatch⟩ := hx
      rw [← hm] at he
      obtain ⟨entry, hentry, rfl⟩ := List.mem_map.mp he
      obtain ⟨before, after, hvisit⟩ := hturn.mem hentry
      exact absurd ((h.hears_decides hf hvisit).complete hpos hmatch) (by simp [hdeaf entry hentry])
  | @heard asked event rest _ hm hdeaf hturn =>
      refine ⟨hturn.eq_of_idle hidle, fun _ => ?_, fun _ _ => rfl⟩
      obtain ⟨before, after, hvisit⟩ := hturn.mem (List.mem_append_right asked List.mem_cons_self)
      refine ⟨event, ?_, (h.hears_decides hf hvisit).sound rfl⟩
      rw [← hm]
      exact List.mem_append_right _ List.mem_cons_self

/-- **The visits that come to anything are the runs** of the triggers that are concerned, one after
the other: between them nothing happens. -/
theorem Builtin.runs_of_visits (h : scene.Builtin) (hf : scene.facts = .ofOccurrence occurrence)
    (hpos : 0 < limit) {visits : List (Trigger × Option Outcome)} {s t : Host σ ρ}
    (hturn : InTurn (scene.Visits limit) s visits t) :
    ∃ runs : List (Trigger × Outcome), InTurn (scene.Runs limit) s runs t ∧
      runs.map Prod.fst
        = (visits.map Prod.fst).filter (scene.scenario.Concerns scene.registry occurrence ·) ∧
      runs.map Prod.snd = visits.filterMap Prod.snd := by
  induction hturn with
  | nil s => exact ⟨[], .nil s, rfl, rfl⟩
  | @cons trigger outcome s t u rest hvisit _ ih =>
      obtain ⟨runs, hruns, hfirst, hsecond⟩ := ih
      cases hvisit with
      | disabled hoff =>
          refine ⟨runs, hruns, ?_, hsecond⟩
          rw [List.map_cons, List.filter_cons_of_neg, hfirst]
          simp [Scenario.Concerns, hoff]
      | unheard _ hears =>
          have hdecides := h.hearsAny_decides hf hears
          -- no event listens, so the trigger is not one of those concerned
          have hno : ¬ ∃ event ∈ trigger.events,
              scene.scenario.Matches scene.registry occurrence event :=
            fun hx => absurd (hdecides.complete hpos hx) (by simp)
          cases hdecides.quiet
          refine ⟨runs, hruns, ?_, hsecond⟩
          rw [List.map_cons, List.filter_cons_of_neg, hfirst]
          exact fun hc => hno (of_decide_eq_true hc).2
      | @heard outcome mid _ hon hears hrun =>
          have hdecides := h.hearsAny_decides hf hears
          cases hdecides.quiet
          refine ⟨(trigger, outcome) :: runs, .cons hrun hruns, ?_, ?_⟩
          · rw [List.map_cons, List.map_cons, List.filter_cons_of_pos, hfirst]
            exact decide_eq_true ⟨hon, hdecides.sound rfl⟩
          · rw [List.map_cons, hsecond, List.filterMap_cons]

end Scene

namespace Scenario

variable {σ ρ : Type} [Services σ] [RandomSource ρ] {scenario : Scenario}

/-- An occurrence is handled by the triggers that it concerns, and by no others. -/
structure Answers (engine : Engine ρ) (scenario : Scenario) (services : σ)
    (occurrence : Occurrence) : Prop where
  concerned : ∀ trigger ∈ scenario.triggers,
    (∃ outcome ∈ (engine.dispatch (some scenario) services occurrence).1.outcomes,
      outcome.trigger = trigger.id) ↔ scenario.Concerns engine.registry occurrence trigger
  /-- No trigger has two outcomes, however many of its events match. -/
  once : ((engine.dispatch (some scenario) services occurrence).1.outcomes.map
    Outcome.trigger).Nodup
  /-- The host and the random source are left alone by finding out whether a trigger is meant. -/
  quiet : ∀ trigger ∈ scenario.triggers, ∀ host : Host σ ρ,
    (Scene.hearsAny ⟨engine.registry, scenario, .ofOccurrence occurrence⟩ engine.config.maxDepth
      trigger.events host).2 = host
  /-- What happens are the runs of the triggers that are meant, one after the other. -/
  runs : ∃ runs : List (Trigger × Outcome),
    runs.map Prod.fst = scenario.triggers.filter (scenario.Concerns engine.registry occurrence ·) ∧
      runs.map Prod.snd = (engine.dispatch (some scenario) services occurrence).1.outcomes ∧
      InTurn (Scene.Runs ⟨engine.registry, scenario, .ofOccurrence occurrence⟩
          engine.config.maxDepth) ⟨services, engine.random⟩ runs
        ⟨(engine.dispatch (some scenario) services occurrence).2.2,
          (engine.dispatch (some scenario) services occurrence).2.1.random⟩

theorem Reachable.scene (h : Reachable .builtin scenario) {registry : Registry}
    (hr : registry = .builtin) (facts : Facts) : Scene.Builtin ⟨registry, scenario, facts⟩ :=
  ⟨hr, h.conforms.forest⟩

/-- **Matching is exact** in a reachable script of built-in variants. -/
theorem Reachable.answers (h : Reachable .builtin scenario) (engine : Engine ρ)
    (hr : engine.registry = .builtin) (hpos : 0 < engine.config.maxDepth) (services : σ)
    (occurrence : Occurrence) : Answers engine scenario services occurrence := by
  let scene : Scene := ⟨engine.registry, scenario, .ofOccurrence occurrence⟩
  let host : Host σ ρ := ⟨services, engine.random⟩
  have hscene : scene.Builtin := h.scene hr _
  obtain ⟨visits, hm, hturn, hout⟩ :=
    scene.runTriggers_visits engine.config.maxDepth scenario.triggers host
  obtain ⟨runs, hruns, hfirst, hsecond⟩ := hscene.runs_of_visits rfl hpos hturn
  have hreport : (engine.dispatch (some scenario) services occurrence).1.outcomes
      = runs.map Prod.snd := by
    rw [hsecond, ← hout]
    rfl
  have hnamed : ∀ run ∈ runs, run.2.trigger = run.1.id := by
    intro run hrun
    obtain ⟨before, after, hran⟩ := hruns.mem hrun
    exact hran.accounts.named
  -- an outcome bears the number of the trigger that ran
  have hids : (runs.map Prod.snd).map Outcome.trigger = (runs.map Prod.fst).map Trigger.id := by
    rw [List.map_map, List.map_map]
    exact List.map_congr_left hnamed
  rw [hm] at hfirst
  refine ⟨fun trigger ht => ⟨fun hx => ?_, fun hc => ?_⟩, ?_, fun trigger _ host => ?_,
    runs, hfirst, hreport.symm, ?_⟩
  · obtain ⟨outcome, ho, hname⟩ := hx
    rw [hreport] at ho
    obtain ⟨run, hrun, rfl⟩ := List.mem_map.mp ho
    have hmem : run.1 ∈
        scenario.triggers.filter (scenario.Concerns engine.registry occurrence ·) := by
      rw [← hfirst]
      exact List.mem_map_of_mem hrun
    obtain ⟨hthere, hconcerns⟩ := List.mem_filter.mp hmem
    -- numbers are unique, so the trigger that ran is this one
    have hsame : run.1 = trigger :=
      List.inj_on_of_nodup_map h.owned.ids hthere ht ((hnamed run hrun).symm.trans hname)
    rw [← hsame]
    exact of_decide_eq_true hconcerns
  · have hmem : trigger ∈ runs.map Prod.fst := by
      rw [hfirst]
      exact List.mem_filter.mpr ⟨ht, decide_eq_true hc⟩
    obtain ⟨run, hrun, rfl⟩ := List.mem_map.mp hmem
    refine ⟨run.2, ?_, hnamed run hrun⟩
    rw [hreport]
    exact List.mem_map_of_mem hrun
  · rw [hreport, hids, hfirst]
    exact h.owned.ids.sublist (List.filter_sublist.map Trigger.id)
  · exact (hscene.hearsAny_decides rfl
      (scene.hearsAny_hears engine.config.maxDepth trigger.events host)).quiet
  · exact hruns

end Scenario

/-! ## A gate

Two triggers are about players who enter a region. One names the region; the other does not say
which. -/

namespace Gate

open Border (extent)

def requests : List Request :=
  [.addRegion "gate" extent, .addTrigger "greet", .addDraft ⟨0⟩ .events "RegionEntered",
    .createNode "RegionValue" [] (some (.region ⟨0⟩)), .setArgument ⟨0⟩ "region" ⟨1⟩,
    .addTrigger "count", .addDraft ⟨1⟩ .events "RegionEntered"]

/-- The script. -/
def script : Scenario :=
  requests.foldl (fun scenario request => request.after ⟨Builtin.variants⟩ scenario)
    (.empty "gate")

theorem script_reachable : Scenario.Reachable .builtin script :=
  Scenario.reachable_requests "gate" requests (by decide +kernel)

def engine : Engine SeededRandom := .create .builtin {} (.ofSeed 0)

end Gate

namespace Scenario

/-- Only the trigger that names the region is concerned. -/
theorem answers_gate :
    Answers Gate.engine Gate.script World.empty (.regionEntered ⟨0⟩ ⟨0⟩) ∧
      Gate.script.triggers.map
          (Gate.script.Concerns .builtin (.regionEntered ⟨0⟩ ⟨0⟩) · : Trigger → Bool)
        = [true, false] := by
  have hanswers := Gate.script_reachable.answers Gate.engine (Engine.create_registry _ _ _)
    (by decide) World.empty (.regionEntered ⟨0⟩ ⟨0⟩)
  refine ⟨hanswers, ?_⟩
  rw [Registry.builtin_eq]
  decide +kernel

end Scenario

end Rulebook
