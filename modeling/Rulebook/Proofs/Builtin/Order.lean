import Rulebook.Proofs.Builtin

/-!
# Rules that ask in order

Nearly every built-in rule asks for its arguments first, each of them once and in
the order of its parameters, and only then does what is its own: it computes, it
puts a question, it asks for an effect. What is its own is said here a second
time, in tables that go by the name of the variant and know nothing of slots, and
each rule is shown to *follow* its parameters into its row.

A connective follows its first parameter only. Whether it asks for the second is
up to the value of the first.
-/

namespace Rulebook

/-- What a literal stands for, if it refers to nothing outside the script. -/
def Literal.constant? : Literal → Option Value
  | int value => some (.int value)
  | text value => some (.text value)
  | bool value => some (.bool value)
  | comparator value => some (.comparator value)
  | damageType value => some (.damageType value)
  | block _ | item _ | region _ => none

theorem Literal.exists_constant {literal : Literal} (h : literal.isReference = false) :
    ∃ value, literal.constant? = some value := by
  cases literal with
  | block | item | region => exact absurd h (by simp [isReference])
  | _ => exact ⟨_, rfl⟩

theorem Literal.type_of_constant {literal : Literal} {value : Value}
    (h : literal.constant? = some value) : value.type = literal.type := by
  cases literal with
  | block | item | region => exact absurd h (by simp [constant?])
  | _ =>
      cases h
      rfl

/-- The parameter is found under its name, and its default refers to nothing outside the script. -/
def Variant.Plain (variant : Variant) (param : Param) : Prop :=
  variant.param? param.name = some param ∧
    ∀ literal ∈ param.fallback, literal.isReference = false

namespace Script

variable {α β : Type}

/-- The script asks for the parameters one by one. Given values of the declared types, it goes on
as `own` says. -/
def Follows : List Param → (List Value → Script α) → Script α → Prop
  | [], own, script => own [] = script
  | param :: rest, own, argument name next => name = param.name ∧ ∀ value,
      value.type = param.type → (next value).Follows rest fun values => own (value :: values)
  | _ :: _, _, _ => False

/-- The script asks for no argument. -/
def AsksNothing : Script α → Prop
  | done _ | fail _ => True
  | argument _ _ => False
  | literal next => ∀ own, (next own).AsksNothing
  | resolve _ next => ∀ value, (next value).AsksNothing
  | facts next => ∀ known, (next known).AsksNothing
  | region _ next => ∀ found, (next found).AsksNothing
  | ask _ next => ∀ reply, (next reply).AsksNothing
  | perform _ next => next.AsksNothing
  | roll _ _ next => ∀ drawn, (next drawn).AsksNothing

/-- A fact may be missing. -/
theorem AsksNothing.fact {name : String} {pick : Facts → Option α} {next : α → Script β}
    (hn : ∀ a, (next a).AsksNothing) : (Script.fact name pick >>= next).AsksNothing := by
  intro known
  dsimp only [andThen]
  cases pick known with
  | some a => exact hn a
  | none => trivial

namespace Follows

variable {rest : List Param} {own : List Value → Script β} {param : String}
  {fallback : Option Literal}

/-- An argument that is wanted as a value of its type is asked for like any other. -/
theorem argOf {type : ValueType} {pick : Value → Option α} {wrap : α → Value}
    {next : α → Script β}
    (hpick : ∀ value : Value, value.type = type → ∃ a, value = wrap a ∧ pick value = some a)
    (hn : ∀ a, (next a).Follows rest fun values => own (wrap a :: values)) :
    (Script.argOf type pick param >>= next).Follows (⟨param, type, fallback⟩ :: rest) own := by
  refine ⟨rfl, fun value ht => ?_⟩
  obtain ⟨a, rfl, ha⟩ := hpick value ht
  dsimp only [andThen]
  rw [ha]
  exact hn a

theorem intArg {next : Int64 → Script β}
    (hn : ∀ a, (next a).Follows rest fun values => own (.int a :: values)) :
    (Script.intArg param >>= next).Follows (⟨param, .int, fallback⟩ :: rest) own :=
  argOf (fun value hv => by cases value <;> simp_all [Value.type, Value.int?]) hn

theorem textArg {next : String → Script β}
    (hn : ∀ a, (next a).Follows rest fun values => own (.text a :: values)) :
    (Script.textArg param >>= next).Follows (⟨param, .text, fallback⟩ :: rest) own :=
  argOf (fun value hv => by cases value <;> simp_all [Value.type, Value.text?]) hn

theorem boolArg {next : Bool → Script β}
    (hn : ∀ a, (next a).Follows rest fun values => own (.bool a :: values)) :
    (Script.boolArg param >>= next).Follows (⟨param, .bool, fallback⟩ :: rest) own :=
  argOf (fun value hv => by cases value <;> simp_all [Value.type, Value.bool?]) hn

theorem comparatorArg {next : Comparator → Script β}
    (hn : ∀ a, (next a).Follows rest fun values => own (.comparator a :: values)) :
    (Script.comparatorArg param >>= next).Follows (⟨param, .comparator, fallback⟩ :: rest) own :=
  argOf (fun value hv => by cases value <;> simp_all [Value.type, Value.comparator?]) hn

theorem damageTypeArg {next : DamageType → Script β}
    (hn : ∀ a, (next a).Follows rest fun values => own (.damageType a :: values)) :
    (Script.damageTypeArg param >>= next).Follows (⟨param, .damageType, fallback⟩ :: rest) own :=
  argOf (fun value hv => by cases value <;> simp_all [Value.type, Value.damageType?]) hn

theorem entityArg {next : ActorId → Script β}
    (hn : ∀ a, (next a).Follows rest fun values => own (.entity a :: values)) :
    (Script.entityArg param >>= next).Follows (⟨param, .entity, fallback⟩ :: rest) own :=
  argOf (fun value hv => by cases value <;> simp_all [Value.type, Value.entity?]) hn

theorem blockArg {next : ResourceKey → Script β}
    (hn : ∀ a, (next a).Follows rest fun values => own (.block a :: values)) :
    (Script.blockArg param >>= next).Follows (⟨param, .block, fallback⟩ :: rest) own :=
  argOf (fun value hv => by cases value <;> simp_all [Value.type, Value.block?]) hn

theorem itemArg {next : ResourceKey → Script β}
    (hn : ∀ a, (next a).Follows rest fun values => own (.item a :: values)) :
    (Script.itemArg param >>= next).Follows (⟨param, .item, fallback⟩ :: rest) own :=
  argOf (fun value hv => by cases value <;> simp_all [Value.type, Value.item?]) hn

theorem regionArg {next : RegionId → Script β}
    (hn : ∀ a, (next a).Follows rest fun values => own (.region a :: values)) :
    (Script.regionArg param >>= next).Follows (⟨param, .region, fallback⟩ :: rest) own :=
  argOf (fun value hv => by cases value <;> simp_all [Value.type, Value.region?]) hn

end Follows

end Script

namespace Builtin

/-! ## What is a variant's own -/

/-- For arguments of other types than the parameters declare there is nothing to do. -/
def misfit : Rule := .fail (.missingArgument "")

/-- What expressions do with the values of their arguments. -/
def ownExpression : VariantId → List Value → Rule
  | "TriggeringPlayer", [] => do return .entity (← Script.fact "triggering player" (·.actor))
  | "DestroyedBlock", [] => do return .block (← Script.fact "destroyed block" (·.destroyed))
  | "TriggeringRegion", [] => do return .region (← Script.fact "region" (·.region))
  | "EventDamageType", [] => do return .damageType (← Script.fact "damage type" (·.damage))
  | "RandomInt", [.int low, .int high] =>
    .roll (min low high) (max low high) fun drawn => .done (.int drawn)
  | "AddInt", [.int left, .int right] => .done (.int (saturatingAdd left right))
  | "SubtractInt", [.int left, .int right] => .done (.int (saturatingSub left right))
  | "CountOfBlock", [.entity player, .block block] =>
    .ask (.countBlocks player block) fun held => .done (.int held)
  | "CountOfItem", [.entity player, .item item] =>
    .ask (.countItems player item) fun held => .done (.int held)
  | "ConcatString", [.text first, .text second] => .done (.text (first ++ second))
  | "IntToString", [.int value] => .done (.text (integerText value))
  | "PlayerName", [.entity player] =>
    .ask (.playerName player) fun
      | some name => .done (.text name)
      | none => .fail (.danglingReference player.text)
  | _, _ => misfit

/-- What conditions other than the connectives do with the values of their arguments. -/
def ownConditional : VariantId → List Value → Rule
  | "IntCompare", [.int left, .int right, .comparator comparator] =>
    .done (.bool (comparator.holdsInt left right))
  | "StringCompare", [.text left, .text right, .comparator comparator] =>
    .done (.bool (comparator.holdsText left right))
  | "DamageTypeIs", [.damageType actual, .damageType expected] =>
    .done (.bool (actual == expected))
  | "PlayerInRegion", [.entity player, .region id] =>
    .region id fun region => .ask (.isInRegion player region) fun inside => .done (.bool inside)
  | "Not", [.bool value] => .done (.bool !value)
  | _, _ => misfit

/-- The effect that an action asks for, given the values of its arguments. -/
def ownAction : VariantId → List Value → Rule
  | "GiveBlock", [.entity player, .int amount, .block block] =>
    .perform (.giveBlocks player block amount) (.done .unit)
  | "RemoveBlock", [.entity player, .int amount, .block block] =>
    .perform (.removeBlocks player block amount) (.done .unit)
  | "GiveItem", [.entity player, .int amount, .item item] =>
    .perform (.giveItems player item amount) (.done .unit)
  | "SendChatMessage", [.text message] => .perform (.broadcast message) (.done .unit)
  | "SendPlayerMessage", [.entity player, .text message] =>
    .perform (.sendMessage player message) (.done .unit)
  | "LogMessage", [.text message] => .perform (.log message) (.done .unit)
  | "TeleportToRegion", [.entity player, .region id] =>
    .region id fun region => .perform (.teleport player region) (.done .unit)
  | _, _ => misfit

/-- What a node of a built-in variant that is no connective does once all of its arguments have
values, given in the order of the parameters. -/
def ownPart (variant : Variant) (values : List Value) : Rule :=
  match variant.kind with
  | .value => ownLiteral
  | .expression => ownExpression variant.id values
  | .conditional => ownConditional variant.id values
  | .action => ownAction variant.id values
  | .event => .done .unit

/-- The variant joins two conditions and may leave the second one alone. -/
def IsConnective (id : VariantId) : Prop := id = "And" ∨ id = "Or"

/-- The parameter for an operand of a connective. -/
def operand (name : String) : Param := { name, type := .bool }

/-- What a connective does about its second operand, on which everything then depends. -/
def secondOperand : Rule := do return .bool (← Script.boolArg "right")

/-- The value of the only argument. -/
def onlyValue : List Value → Rule
  | [value] => .done value
  | _ => misfit

/-- What a connective does once its first operand has a value: that is the end of it, unless the
value is the one that leaves the matter open. -/
def afterFirst (open? : Bool) : List Value → Rule
  | [.bool first] => if first = open? then secondOperand else .done (.bool !open?)
  | _ => misfit

/-! ## The parameters -/

theorem params_plain : ∀ variant ∈ variants, ∀ param ∈ variant.params, variant.Plain param := by
  unfold Variant.Plain
  decide +kernel

/-! ## The rules -/

open Script

theorem expressions_follow : ∀ variant ∈ expressions,
    variant.rule.Follows variant.params (ownPart variant) := by
  simp only [expressions, List.forall_mem_cons]
  refine ⟨rfl, rfl, rfl, rfl, ?random, ?add, ?subtract, ?blocks, ?items, ?concat, ?toText, ?name,
    by simp⟩
  case random =>
    refine .intArg fun low => .intArg fun high => ?_
    -- the bounds may come in either order
    show Script.roll (min low high) (max low high) (fun drawn => .done (Value.int drawn))
      = if low ≤ high then .roll low high fun drawn => .done (.int drawn)
        else .roll high low fun drawn => .done (.int drawn)
    by_cases hle : low ≤ high
    · have hmin : min low high = low := if_pos hle
      have hmax : max low high = high := if_pos hle
      rw [if_pos hle, hmin, hmax]
    · have hmin : min low high = high := if_neg hle
      have hmax : max low high = low := if_neg hle
      rw [if_neg hle, hmin, hmax]
  case add | subtract => exact .intArg fun _ => .intArg fun _ => rfl
  case blocks => exact .entityArg fun _ => .blockArg fun _ => rfl
  case items => exact .entityArg fun _ => .itemArg fun _ => rfl
  case concat => exact .textArg fun _ => .textArg fun _ => rfl
  case toText => exact .intArg fun _ => rfl
  case name =>
    refine .entityArg fun player => ?_
    refine congrArg (Script.ask (.playerName player)) (funext fun reply => ?_)
    cases reply with
    | some name => rfl
    | none => rfl

theorem conditionals_follow : ∀ variant ∈ conditionals, ¬ IsConnective variant.id →
    variant.rule.Follows variant.params (ownPart variant) := by
  simp only [conditionals, List.forall_mem_cons]
  refine ⟨fun _ => ?ints, fun _ => ?texts, fun _ => ?damage, fun _ => ?inside,
    fun hno => absurd (.inl rfl) hno, fun hno => absurd (.inr rfl) hno, fun _ => ?not, by simp⟩
  case ints => exact .intArg fun _ => .intArg fun _ => .comparatorArg fun _ => rfl
  case texts => exact .textArg fun _ => .textArg fun _ => .comparatorArg fun _ => rfl
  case damage => exact .damageTypeArg fun _ => .damageTypeArg fun _ => rfl
  case inside => exact .entityArg fun _ => .regionArg fun _ => rfl
  case not => exact .boolArg fun _ => rfl

theorem actions_follow : ∀ variant ∈ actions,
    variant.rule.Follows variant.params (ownPart variant) := by
  simp only [actions, List.forall_mem_cons]
  refine ⟨?give, ?remove, ?item, ?say, ?tell, ?log, ?teleport, by simp⟩
  case give | remove => exact .entityArg fun _ => .intArg fun _ => .blockArg fun _ => rfl
  case item => exact .entityArg fun _ => .intArg fun _ => .itemArg fun _ => rfl
  case say | log => exact .textArg fun _ => rfl
  case tell => exact .entityArg fun _ => .textArg fun _ => rfl
  case teleport => exact .entityArg fun _ => .regionArg fun _ => rfl

/-- **Built-in rules follow their parameters**, unless they join conditions. Events ask for nothing:
their parameters are looked at when an occurrence is matched. -/
theorem variants_follow : ∀ variant ∈ variants, variant.kind ≠ .event → ¬ IsConnective variant.id →
    variant.rule.Follows variant.params (ownPart variant) := by
  have hvalues : ∀ variant ∈ values, variant.rule.Follows variant.params (ownPart variant) := by
    simp only [values, List.forall_mem_cons]
    exact ⟨rfl, rfl, rfl, rfl, rfl, rfl, rfl, rfl, by simp⟩
  have hevents : ∀ variant ∈ events, variant.kind = .event := by
    decide
  intro variant hv hk hno
  simp only [variants, List.mem_append] at hv
  rcases hv with (((hv | hv) | hv) | hv) | hv
  · exact hvalues variant hv
  · exact expressions_follow variant hv
  · exact conditionals_follow variant hv hno
  · exact actions_follow variant hv
  · exact absurd (hevents variant hv) hk

/-- A conjunction follows its first operand, and the second only after one that holds. -/
theorem both_follows : both.Follows [operand "left"] (afterFirst true) :=
  .boolArg fun _ => rfl

/-- A disjunction follows its first operand, and the second only after one that does not hold. -/
theorem either_follows : either.Follows [operand "left"] (afterFirst false) := by
  refine .boolArg fun first => ?_
  cases first with
  | true => rfl
  | false => rfl

/-- The second operand is asked for like any other argument. -/
theorem secondOperand_follows : secondOperand.Follows [operand "right"] onlyValue :=
  .boolArg fun _ => rfl

/-- What joins conditions is a condition itself. -/
theorem not_isConnective {variant : Variant} (h : variant ∈ variants)
    (hk : variant.kind = .action) : ¬ IsConnective variant.id := by
  have hall : ∀ variant ∈ variants, variant.kind = .action →
      variant.id ≠ "And" ∧ variant.id ≠ "Or" := by
    decide +kernel
  exact not_or.mpr (hall variant h hk)

theorem get?_and : Registry.builtin.get? "And" = some (conditional "And" both
    [operand "left", operand "right"] "(\x7bleft\x7d and \x7bright\x7d)") := by
  rw [Registry.builtin_eq]
  rfl

theorem get?_or : Registry.builtin.get? "Or" = some (conditional "Or" either
    [operand "left", operand "right"] "(\x7bleft\x7d or \x7bright\x7d)") := by
  rw [Registry.builtin_eq]
  rfl

/-! ## Nothing is asked twice -/

theorem ownExpression_asksNothing (id : VariantId) (values : List Value) :
    (ownExpression id values).AsksNothing := by
  unfold ownExpression
  split
  case h_1 | h_2 | h_3 | h_4 => exact .fact fun _ => trivial
  case h_5 => exact fun _ => trivial
  case h_12 player =>
    intro reply
    cases reply with
    | some name => trivial
    | none => trivial
  case h_8 | h_9 => exact fun _ => trivial
  all_goals exact trivial

theorem ownConditional_asksNothing (id : VariantId) (values : List Value) :
    (ownConditional id values).AsksNothing := by
  unfold ownConditional
  split
  case h_4 => exact fun _ _ => trivial
  all_goals exact trivial

theorem ownAction_asksNothing (id : VariantId) (values : List Value) :
    (ownAction id values).AsksNothing := by
  unfold ownAction
  split
  case h_7 => exact fun _ => trivial
  all_goals exact trivial

/-- **What is a variant's own takes no argument**; all of them have been asked for before. -/
theorem ownPart_asksNothing (variant : Variant) (values : List Value) :
    (ownPart variant values).AsksNothing := by
  unfold ownPart
  split
  · intro own
    cases own with
    | some literal => exact fun _ => trivial
    | none => trivial
  · exact ownExpression_asksNothing _ _
  · exact ownConditional_asksNothing _ _
  · exact ownAction_asksNothing _ _
  · trivial

end Builtin

end Rulebook
