import Rulebook.Proofs.Builtin.Order
import Rulebook.Proofs.Evaluation.Typing
import Rulebook.Proofs.Scenario.Removal

/-!
# The order in which arguments are evaluated

A node of a built-in variant evaluates what is in its slots in the order in which
its variant declares them, whatever the order in which they were filled. Each is
evaluated once, one level deeper and in the state that the one before it has left;
the first that has no value ends it, with the state as it is by then. Only when all
have values does the node do what is its own.

The connectives are the exception. Their second operand is evaluated only if the
first has left the matter open, and otherwise nothing of it can be noticed.
-/

namespace Rulebook

namespace Scene

/-! ## Arguments in order -/

section Gather

variable {σ ρ α β : Type}

/-- Goes on with what was got so far, in the state that was reached. After an error nothing more
is done. -/
def goOn (got : Except EvalError α × Host σ ρ)
    (next : α → Host σ ρ → Except EvalError β × Host σ ρ) : Except EvalError β × Host σ ρ :=
  match got with
  | (.ok a, after) => next a after
  | (.error error, after) => (.error error, after)

/-- The value of one argument: of the node in the slot, or else the default. -/
def supply (child : NodeId → Evaluation σ ρ Value) (node : Node) (param : Param)
    (host : Host σ ρ) : Except EvalError Value × Host σ ρ :=
  match node.argument? param.name with
  | some held => (child held).runOn host
  | none =>
    match param.fallback.bind Literal.constant? with
    | some value => (.ok value, host)
    | none => (.error (.missingArgument node.id param.name), host)

/-- The values of several arguments, one after the other. -/
def gather (child : NodeId → Evaluation σ ρ Value) (node : Node) :
    List Param → Host σ ρ → Except EvalError (List Value) × Host σ ρ
  | [], host => (.ok [], host)
  | param :: rest, host =>
    goOn (supply child node param host) fun value after =>
      goOn (gather child node rest after) fun values final => (.ok (value :: values), final)

theorem goOn_assoc {γ : Type} (got : Except EvalError α × Host σ ρ)
    (next : α → Host σ ρ → Except EvalError β × Host σ ρ)
    (last : β → Host σ ρ → Except EvalError γ × Host σ ρ) :
    goOn (goOn got next) last = goOn got fun a after => goOn (next a after) last := by
  obtain ⟨result, after⟩ := got
  cases result with
  | ok a => rfl
  | error e => rfl

end Gather

variable {σ ρ : Type} [Services σ] {scene : Scene} {limit levels : Nat} {id : NodeId}
  {node : Node} {variant : Variant} {child : NodeId → Evaluation σ ρ Value}

/-- A default that refers to nothing outside is looked up without fail. -/
theorem resolve_constant {literal : Literal} {value : Value}
    (h : literal.constant? = some value) (host : Host σ ρ) :
    (scene.resolve id literal : Evaluation σ ρ Value).runOn host = (.ok value, host) := by
  cases literal with
  | block | item | region => exact absurd h (by simp [Literal.constant?])
  | _ =>
      cases h
      rfl

omit [Services σ] in
/-- What a tree has in a slot is what is evaluated for it. -/
theorem supply_of_lookup (hl : scene.scenario.forest.Linked) {tree inner : NodeTree}
    (hs : scene.scenario.forest.Shows id tree) (hn : scene.scenario.forest.get? id = some node)
    (param : Param) (hi : tree.arguments.lookup param.name = some inner)
    (child : NodeId → Evaluation σ ρ Value) :
    ∃ held, scene.scenario.forest.Shows held inner ∧
      ∀ host, supply child node param host = (child held).runOn host := by
  obtain ⟨held, hheld, hinner⟩ := (hs.lookup hl hn).mp hi
  refine ⟨held, hinner, fun host => ?_⟩
  rw [supply, hheld]

namespace Serving

/-- What a rule gets when it asks for an argument. -/
theorem argument_runOn (h : Serving scene limit child id node variant) {param : Param}
    (hp : variant.Plain param) (host : Host σ ρ) :
    (scene.argument child node param.name).runOn host = supply child node param host := by
  obtain ⟨hfound, hplain⟩ := hp
  unfold argument supply
  cases hheld : node.argument? param.name with
  | some held => rfl
  | none =>
      rw [h.registered, Option.bind_some, hfound, Option.bind_some]
      cases hf : param.fallback with
      | none => rfl
      | some literal =>
          obtain ⟨value, hvalue⟩ := Literal.exists_constant (hplain literal hf)
          rw [Option.bind_some, hvalue]
          exact resolve_constant hvalue host

variable [RandomSource ρ]

/-- **A rule that follows its parameters** is served by gathering their values first. -/
theorem serve_follows {α : Type} (h : Serving scene limit child id node variant)
    {params : List Param} (hp : ∀ param ∈ params, variant.Plain param) :
    ∀ {script : Script α} {own : List Value → Script α}, script.Follows params own →
      ∀ host : Host σ ρ, (scene.serve child node script).runOn host
        = goOn (gather child node params host) fun values after =>
            (scene.serve child node (own values)).runOn after := by
  -- the script is taken apart along its parameters, in any state that may have been reached
  induction params with
  | nil =>
      intro script own hf host
      have hown : own [] = script := hf
      rw [← hown]
      rfl
  | cons param rest ih =>
      intro script own hf host
      obtain ⟨hfirst, hrest⟩ := List.forall_mem_cons.mp hp
      cases script with
      | argument name next =>
          obtain ⟨rfl, hnext⟩ := hf
          have hends := h.argument_ends hfirst.1 host
          rw [serve, Attempt.runOn_bind, gather]
          rw [h.argument_runOn hfirst] at hends ⊢
          cases hs : supply child node param host with
          | mk result after =>
              rw [hs] at hends
              cases result with
              | error e => rfl
              | ok value =>
                  show (scene.serve child node (next value)).runOn after = _
                  rw [ih hrest (hnext value hends) after, goOn, goOn_assoc]
                  rfl
      | _ => exact False.elim hf

/-- The second operand of a connective is asked for like any other argument. -/
theorem serve_secondOperand (h : Serving scene limit child id node variant)
    (hp : ∀ param ∈ [Builtin.operand "right"], variant.Plain param) (host : Host σ ρ) :
    (scene.serve child node Builtin.secondOperand).runOn host
      = supply child node (Builtin.operand "right") host := by
  rw [h.serve_follows hp Builtin.secondOperand_follows, gather, goOn_assoc]
  cases supply child node (Builtin.operand "right") host with
  | mk result after =>
      cases result with
      | ok value => rfl
      | error e => rfl

omit [RandomSource ρ] in
/-- An argument that has a value has one of the declared type. -/
theorem type_of_supply (h : Serving scene limit child id node variant) {param : Param}
    (hp : variant.Plain param) {host after : Host σ ρ} {value : Value}
    (hs : supply child node param host = (.ok value, after)) : value.type = param.type := by
  have hends := h.argument_ends hp.1 host
  rw [h.argument_runOn hp, hs] at hends
  exact hends

end Serving

variable [RandomSource ρ]

/-- What asks for no argument is served the same whatever is in the slots. -/
theorem serve_of_asksNothing {α : Type} {script : Script α} (h : script.AsksNothing)
    (child others : NodeId → Evaluation σ ρ Value) :
    scene.serve child node script = scene.serve others node script := by
  induction script with
  | done | fail => rfl
  | argument => exact False.elim h
  | literal next ih => exact ih node.literal (h node.literal)
  | resolve literal next ih => exact congrArg _ (funext fun value => ih value (h value))
  | facts next ih => exact ih scene.facts (h scene.facts)
  | region id next ih => exact congrArg _ (funext fun found => ih found (h found))
  | ask query next ih => exact congrArg _ (funext fun reply => ih reply (h reply))
  | perform effect next ih => exact congrArg _ (funext fun _ => ih h)
  | roll low high next ih => exact congrArg _ (funext fun drawn => ih drawn (h drawn))

/-- A value node whose literal refers to nothing outside the script stands for it. -/
theorem evaluate_valueVariant {name : VariantId} {literal : Literal} {value : Value}
    (hs : scene.scenario.forest.Shows id ⟨name, some literal, []⟩)
    (hc : Forest.Conforms scene.registry scene.scenario.forest)
    (hv : scene.registry.get? name = some (Builtin.valueVariant name literal.type))
    (hl : literal.constant? = some value) (limit levels : Nat) (host : Host σ ρ) :
    (scene.evaluateWithin limit (levels + 1) id).runOn host = (.ok value, host) := by
  obtain ⟨node, hn⟩ := hs.exists_node
  obtain ⟨rfl, hliteral⟩ := Prod.mk.inj (hs.top hn)
  obtain ⟨own, ho, _, hresult, _⟩ := hc.typed hn
  cases hv.symm.trans ho
  refine evaluateWithin_of_serve hn hv ?_ fun found hf => ?_
  · show (scene.serve _ node Builtin.ownLiteral).runOn host = _
    rw [serve_ownLiteral hliteral.symm]
    exact resolve_constant hl host
  · cases hf
    exact (Literal.type_of_constant hl).trans hresult.symm

/-- The registry of the scene has the built-in variants of these names, and the nodes are what the
registry says. -/
structure Versed (names : List VariantId) (scene : Scene) : Prop where
  registry : scene.registry.Knows names
  conforms : Forest.Conforms scene.registry scene.scenario.forest
  linked : Forest.Linked scene.scenario.forest

namespace Versed

variable {names : List VariantId} {tree : NodeTree}

omit [Services σ] [RandomSource ρ] in
/-- A tree has nothing in slots that the variant of the node does not have. -/
theorem lookup_undeclared (h : scene.Versed names) (hs : scene.scenario.forest.Shows id tree)
    (hn : scene.scenario.forest.get? id = some node)
    (hv : scene.registry.get? node.variant = some variant) {name : String}
    (hname : variant.param? name = none) : tree.arguments.lookup name = none := by
  refine (hs.lookup_eq_none h.linked hn).mpr ?_
  cases ha : node.argument? name with
  | none => rfl
  | some held =>
      obtain ⟨param, _, hparam, _⟩ := h.conforms.slots hn hv (Node.mem_of_argument? ha)
      exact absurd (hname.symm.trans hparam) (by simp)

/-- What stands for itself in a slot is what the argument comes to. -/
theorem argument_of_shows (h : scene.Versed names) (hs : scene.scenario.forest.Shows id tree)
    (hn : scene.scenario.forest.get? id = some node) {param : String} {name : VariantId}
    {literal : Literal} {value : Value}
    (hi : tree.arguments.lookup param = some ⟨name, some literal, []⟩)
    (hv : scene.registry.get? name = some (Builtin.valueVariant name literal.type))
    (hl : literal.constant? = some value) (limit levels : Nat) (host : Host σ ρ) :
    (scene.argument (scene.evaluateWithin limit (levels + 1)) node param).runOn host
      = (.ok value, host) := by
  obtain ⟨held, hheld, hinner⟩ := (hs.lookup h.linked hn).mp hi
  rw [argument, hheld]
  exact evaluate_valueVariant hinner h.conforms hv hl limit levels host

end Versed

/-- What a connective comes to: the second operand counts if the first has the value that leaves
the matter open, and is left alone otherwise. -/
def connect (child : NodeId → Evaluation σ ρ Value) (node : Node) (undecided : Bool)
    (host : Host σ ρ) : Except EvalError Value × Host σ ρ :=
  goOn (supply child node (Builtin.operand "left") host) fun first after =>
    if first = .bool undecided then supply child node (Builtin.operand "right") after
    else (.ok (.bool !undecided), after)

namespace WellTyped

/-- A node ends as its rule does. -/
theorem evaluateWithin_runOn (h : scene.WellTyped) (hn : scene.scenario.forest.get? id = some node)
    (hv : scene.registry.get? node.variant = some variant) (limit levels : Nat) (host : Host σ ρ) :
    (scene.evaluateWithin limit (levels + 1) id).runOn host
      = (scene.serve (scene.evaluateWithin limit levels) node variant.rule).runOn host := by
  obtain ⟨own, ho, _, hresult, _⟩ := h.conforms.typed hn
  cases hv.symm.trans ho
  have hrule := (h.registry variant (Registry.mem_of_get? hv)).rule
  have hends := (h.serving hn hv (h.evaluateWithin_ends limit levels)).serve_ends hrule host
  cases hs : (scene.serve (scene.evaluateWithin limit levels) node variant.rule).runOn host with
  | mk result after =>
      rw [hs] at hends
      refine evaluateWithin_of_serve hn hv hs fun value he => ?_
      subst he
      exact hends.trans hresult.symm

/-- The parameters of a built-in variant are as they should be. -/
theorem params_plain (hb : scene.registry = .builtin)
    (hv : scene.registry.get? node.variant = some variant) {param : Param}
    (hp : param ∈ variant.params) : variant.Plain param :=
  Builtin.params_plain variant (Registry.mem_of_eq_builtin hb hv) param hp

/-- **First the arguments, then what is the node's own.** -/
theorem evaluateWithin_gather (h : scene.WellTyped) (hb : scene.registry = .builtin)
    (hn : scene.scenario.forest.get? id = some node)
    (hv : scene.registry.get? node.variant = some variant) (hk : variant.kind ≠ .event)
    (hc : ¬ Builtin.IsConnective variant.id) (limit levels : Nat) (host : Host σ ρ)
    (others : NodeId → Evaluation σ ρ Value) :
    (scene.evaluateWithin limit (levels + 1) id).runOn host
      = goOn (gather (scene.evaluateWithin limit levels) node variant.params host)
          fun values after =>
            (scene.serve others node (Builtin.ownPart variant values)).runOn after := by
  have hserving : Serving (σ := σ) (ρ := ρ) scene limit (scene.evaluateWithin limit levels)
      id node variant := h.serving hn hv (h.evaluateWithin_ends limit levels)
  have hmem : variant ∈ Builtin.variants := Registry.mem_of_eq_builtin hb hv
  rw [h.evaluateWithin_runOn hn hv, hserving.serve_follows (fun param hp => params_plain hb hv hp)
    (Builtin.variants_follow variant hmem hk hc)]
  refine congrArg _ (funext fun values => funext fun after => ?_)
  rw [serve_of_asksNothing (Builtin.ownPart_asksNothing variant values) _ others]

/-- **The second operand of a connective** is evaluated only if the first leaves the matter open. -/
theorem evaluateWithin_connect (h : scene.WellTyped) (hb : scene.registry = .builtin)
    (hn : scene.scenario.forest.get? id = some node)
    (hv : scene.registry.get? node.variant = some variant) {undecided : Bool}
    (hp : variant.params = [Builtin.operand "left", Builtin.operand "right"])
    (hf : variant.rule.Follows [Builtin.operand "left"] (Builtin.afterFirst undecided))
    (limit levels : Nat) (host : Host σ ρ) :
    (scene.evaluateWithin limit (levels + 1) id).runOn host
      = connect (scene.evaluateWithin limit levels) node undecided host := by
  have hserving : Serving (σ := σ) (ρ := ρ) scene limit (scene.evaluateWithin limit levels)
      id node variant := h.serving hn hv (h.evaluateWithin_ends limit levels)
  have hplain : ∀ param ∈ variant.params, variant.Plain param := fun param => params_plain hb hv
  rw [hp] at hplain
  obtain ⟨hleft, hright⟩ := List.forall_mem_cons.mp hplain
  have hfirst : ∀ param ∈ [Builtin.operand "left"], variant.Plain param :=
    List.forall_mem_singleton.mpr hleft
  rw [h.evaluateWithin_runOn hn hv, hserving.serve_follows hfirst hf, gather, goOn_assoc, connect]
  cases hs : supply (scene.evaluateWithin limit levels) node (Builtin.operand "left") host with
  | mk result after =>
      cases result with
      | error e => rfl
      | ok first =>
          have ht : first.type = .bool := hserving.type_of_supply hleft hs
          cases first with
          | bool first =>
              show (scene.serve (scene.evaluateWithin limit levels) node
                (if first = undecided then Builtin.secondOperand
                  else .done (.bool !undecided))).runOn after = _
              -- the rule goes on to the second operand only while the first leaves it open
              by_cases hopen : first = undecided
              · rw [if_pos hopen, hserving.serve_secondOperand hright, goOn,
                  if_pos (congrArg Value.bool hopen)]
              · rw [if_neg hopen, goOn, if_neg fun he => hopen (Value.bool.inj he)]
                rfl
          | _ => exact absurd ht (by simp [Value.type])

end WellTyped

/-- How the nodes of a script of built-in variants come by their arguments, at any depth that is
within the limit. -/
structure InOrder (scene : Scene) : Prop where
  /-- In the order of the parameters, up to the first that has no value. What the node does with the
  values takes no more arguments, whoever would evaluate them. -/
  strict : ∀ {σ ρ : Type} [Services σ] [RandomSource ρ] {id node variant},
    scene.scenario.forest.get? id = some node → scene.registry.get? node.variant = some variant →
    variant.kind ≠ .event → variant.id ≠ "And" → variant.id ≠ "Or" →
    ∀ limit levels (host : Host σ ρ) (others : NodeId → Evaluation σ ρ Value),
      (scene.evaluateWithin limit (levels + 1) id).runOn host
        = goOn (gather (scene.evaluateWithin limit levels) node variant.params host)
            fun values after =>
              (scene.serve others node (Builtin.ownPart variant values)).runOn after
  /-- The second operand is evaluated only after a first that holds. -/
  both : ∀ {σ ρ : Type} [Services σ] [RandomSource ρ] {id node},
    scene.scenario.forest.get? id = some node → node.variant = "And" →
    ∀ limit levels (host : Host σ ρ), (scene.evaluateWithin limit (levels + 1) id).runOn host
      = connect (scene.evaluateWithin limit levels) node true host
  /-- The second operand is evaluated only after a first that does not hold. -/
  either : ∀ {σ ρ : Type} [Services σ] [RandomSource ρ] {id node},
    scene.scenario.forest.get? id = some node → node.variant = "Or" →
    ∀ limit levels (host : Host σ ρ), (scene.evaluateWithin limit (levels + 1) id).runOn host
      = connect (scene.evaluateWithin limit levels) node false host

theorem WellTyped.inOrder_of_builtin (h : scene.WellTyped) (hb : scene.registry = .builtin) :
    InOrder scene := by
  refine ⟨?strict, ?both, ?either⟩
  case strict =>
    intro σ ρ _ _ id node variant hn hv hk hand hor limit levels host others
    have hc : ¬ Builtin.IsConnective variant.id := not_or.mpr ⟨hand, hor⟩
    exact h.evaluateWithin_gather hb hn hv hk hc limit levels host others
  case both =>
    intro σ ρ _ _ id node hn hand limit levels host
    have hv := Builtin.get?_and
    rw [← hb, ← hand] at hv
    exact h.evaluateWithin_connect hb hn hv rfl Builtin.both_follows limit levels host
  case either =>
    intro σ ρ _ _ id node hn hor limit levels host
    have hv := Builtin.get?_or
    rw [← hb, ← hor] at hv
    exact h.evaluateWithin_connect hb hn hv rfl Builtin.either_follows limit levels host

end Scene

namespace Scenario

variable {scenario : Scenario}

/-- **Arguments are evaluated in the order of the parameters** in a reachable script of built-in
variants. -/
theorem Reachable.inOrder (h : Reachable .builtin scenario) (facts : Facts) :
    Scene.InOrder ⟨.builtin, scenario, facts⟩ :=
  h.of_builtin facts fun hb hw => hw.inOrder_of_builtin hb

end Scenario

/-! ## A purse

Pearls less rubies, where the rubies were put into their slot first. And a disjunction that lacks
its second operand. -/

namespace Purse

def pearl : ResourceKey := ⟨"gems", "pearl", by decide, by decide⟩

def ruby : ResourceKey := ⟨"gems", "ruby", by decide, by decide⟩

def requests : List Request :=
  [.createDraft "SubtractInt", .createNode "TriggeringPlayer" [] none,
    .createNode "ItemValue" [] (some (.item ruby)),
    .createNode "CountOfItem" [("player", ⟨1⟩), ("item", ⟨2⟩)] none, .setArgument ⟨0⟩ "right" ⟨3⟩,
    .createNode "TriggeringPlayer" [] none, .createNode "ItemValue" [] (some (.item pearl)),
    .createNode "CountOfItem" [("player", ⟨4⟩), ("item", ⟨5⟩)] none, .setArgument ⟨0⟩ "left" ⟨6⟩,
    .createDraft "Or", .createNode "BooleanValue" [] (some (.bool true)),
    .setArgument ⟨7⟩ "left" ⟨8⟩]

/-- The script. -/
def script : Scenario :=
  requests.foldl (fun scenario request => request.after ⟨Builtin.variants⟩ scenario)
    (.empty "purse")

theorem script_reachable : Scenario.Reachable .builtin script :=
  Scenario.reachable_requests "purse" requests (by decide +kernel)

def scene : Scene := ⟨.builtin, script, { Facts.empty .playerSpawned with actor := some ⟨7⟩ }⟩

def host : Host World SeededRandom :=
  ⟨(((World.empty.addItemType pearl).addItemType ruby).addPlayer ⟨7⟩ "Alex").setItems ⟨7⟩ pearl 5,
    .ofSeed 0⟩

end Purse

namespace Scenario

/-- The pearls are counted first, and the operand that is not there is not missed. -/
theorem inOrder_purse :
    Scene.InOrder Purse.scene ∧
      ((Purse.scene.evaluate 8 ⟨0⟩).runOn Purse.host).1 = .ok (.int 5) ∧
      ((Purse.scene.evaluate 8 ⟨0⟩).runOn Purse.host).2.services.queries
        = #[⟨⟨7⟩, Purse.pearl⟩, ⟨⟨7⟩, Purse.ruby⟩] ∧
      ((Purse.scene.evaluate 8 ⟨7⟩).runOn Purse.host).1 = .ok (.bool true) := by
  have hordered := Purse.script_reachable.inOrder
    { Facts.empty .playerSpawned with actor := some ⟨7⟩ }
  refine ⟨hordered, ?_, ?_, ?_⟩
  · rw [Purse.scene, Registry.builtin_eq]
    decide +kernel
  · rw [Purse.scene, Registry.builtin_eq]
    decide +kernel
  · rw [Purse.scene, Registry.builtin_eq]
    decide +kernel

end Scenario

end Rulebook
