import Rulebook.Registry

/-!
# Rules that ask in kind

A rule is *proper* for a variant if it asks only for parameters that the variant
declares, relies on nothing about what it gets but the declared type, and asks
the host for an effect only if the variant is an action. It gives up for want of
a fact, or because something has stopped existing, and for no other reason.

This is said of the program of requests alone, so it holds whoever serves them.
A proper script followed by proper ones is proper, which is how it is shown of a
rule: argument by argument, in the order in which the rule asks.
-/

namespace Rulebook

/-- Why a proper rule may give up. -/
inductive Failure.IsOutside : Failure → Prop where
  | reference (reference : String) : IsOutside (.danglingReference reference)
  | fact (fact : String) : IsOutside (.missingFact fact)

/-- The parameter is declared, with the type. -/
def Variant.Takes (variant : Variant) (param : String) (type : ValueType) : Prop :=
  ∃ slot, variant.param? param = some slot ∧ slot.type = type

namespace Script

variable {α β : Type} {variant : Variant} {Q : α → Prop} {R : β → Prop} {param : String}

/-- Served with answers of the declared types, the script ends with a result that satisfies `Q`,
or gives up for a reason from outside. -/
def Proper (variant : Variant) (Q : α → Prop) : Script α → Prop
  | done result => Q result
  | fail why => why.IsOutside
  | argument param next => ∃ slot, variant.param? param = some slot ∧
      ∀ value, value.type = slot.type → (next value).Proper variant Q
  | literal next => ∀ own : Option Literal, own.map (·.type) = variant.literal →
      (next own).Proper variant Q
  | resolve lit next => ∀ value, value.type = lit.type → (next value).Proper variant Q
  | facts next => ∀ known, (next known).Proper variant Q
  | region _ next => ∀ found, (next found).Proper variant Q
  | ask _ next => ∀ reply, (next reply).Proper variant Q
  | perform _ next => variant.kind = .action ∧ next.Proper variant Q
  | roll _ _ next => ∀ drawn, (next drawn).Proper variant Q

namespace Proper

/-- **A proper script may be followed by proper ones.** -/
theorem bind {script : Script α} {next : α → Script β} (hs : script.Proper variant Q)
    (hn : ∀ a, Q a → (next a).Proper variant R) : (script >>= next).Proper variant R := by
  show (script.andThen next).Proper variant R
  induction script with
  | done result => exact hn result hs
  | fail why => exact hs
  | argument param rest ih =>
      obtain ⟨slot, hp, hrest⟩ := hs
      exact ⟨slot, hp, fun value ht => ih value (hrest value ht)⟩
  | literal rest ih => exact fun own ht => ih own (hs own ht)
  | resolve lit rest ih => exact fun value ht => ih value (hs value ht)
  | facts rest ih => exact fun known => ih known (hs known)
  | region id rest ih => exact fun found => ih found (hs found)
  | ask query rest ih => exact fun reply => ih reply (hs reply)
  | perform effect rest ih => exact ⟨hs.1, ih hs.2⟩
  | roll low high rest ih => exact fun drawn => ih drawn (hs drawn)

theorem ite {p : Prop} [Decidable p] {yes no : Script α} (hy : yes.Proper variant Q)
    (hn : no.Proper variant Q) : (if p then yes else no).Proper variant Q := by
  split
  · exact hy
  · exact hn

/-- An argument is of the type that its parameter declares, so picking it out cannot fail. -/
theorem argOf {type : ValueType} {pick : Value → Option α} {next : α → Script β}
    (hpick : ∀ value : Value, value.type = type → ∃ a, pick value = some a)
    (ht : variant.Takes param type) (hn : ∀ a, (next a).Proper variant R) :
    (Script.argOf type pick param >>= next).Proper variant R := by
  obtain ⟨slot, hslot, rfl⟩ := ht
  refine bind (Q := fun _ => True) ?_ fun a _ => hn a
  refine ⟨slot, hslot, fun value hvalue => ?_⟩
  obtain ⟨a, ha⟩ := hpick value hvalue
  dsimp only [andThen]
  rw [ha]
  trivial

section Arguments

variable {next : Int64 → Script β}

theorem intArg (ht : variant.Takes param .int) (hn : ∀ a, (next a).Proper variant R) :
    (Script.intArg param >>= next).Proper variant R :=
  argOf (fun value hv => by cases value <;> simp_all [Value.type, Value.int?]) ht hn

theorem textArg {next : String → Script β} (ht : variant.Takes param .text)
    (hn : ∀ a, (next a).Proper variant R) : (Script.textArg param >>= next).Proper variant R :=
  argOf (fun value hv => by cases value <;> simp_all [Value.type, Value.text?]) ht hn

theorem boolArg {next : Bool → Script β} (ht : variant.Takes param .bool)
    (hn : ∀ a, (next a).Proper variant R) : (Script.boolArg param >>= next).Proper variant R :=
  argOf (fun value hv => by cases value <;> simp_all [Value.type, Value.bool?]) ht hn

theorem comparatorArg {next : Comparator → Script β} (ht : variant.Takes param .comparator)
    (hn : ∀ a, (next a).Proper variant R) :
    (Script.comparatorArg param >>= next).Proper variant R :=
  argOf (fun value hv => by cases value <;> simp_all [Value.type, Value.comparator?]) ht hn

theorem damageTypeArg {next : DamageType → Script β} (ht : variant.Takes param .damageType)
    (hn : ∀ a, (next a).Proper variant R) :
    (Script.damageTypeArg param >>= next).Proper variant R :=
  argOf (fun value hv => by cases value <;> simp_all [Value.type, Value.damageType?]) ht hn

theorem entityArg {next : ActorId → Script β} (ht : variant.Takes param .entity)
    (hn : ∀ a, (next a).Proper variant R) : (Script.entityArg param >>= next).Proper variant R :=
  argOf (fun value hv => by cases value <;> simp_all [Value.type, Value.entity?]) ht hn

theorem blockArg {next : ResourceKey → Script β} (ht : variant.Takes param .block)
    (hn : ∀ a, (next a).Proper variant R) : (Script.blockArg param >>= next).Proper variant R :=
  argOf (fun value hv => by cases value <;> simp_all [Value.type, Value.block?]) ht hn

theorem itemArg {next : ResourceKey → Script β} (ht : variant.Takes param .item)
    (hn : ∀ a, (next a).Proper variant R) : (Script.itemArg param >>= next).Proper variant R :=
  argOf (fun value hv => by cases value <;> simp_all [Value.type, Value.item?]) ht hn

theorem regionArg {next : RegionId → Script β} (ht : variant.Takes param .region)
    (hn : ∀ a, (next a).Proper variant R) : (Script.regionArg param >>= next).Proper variant R :=
  argOf (fun value hv => by cases value <;> simp_all [Value.type, Value.region?]) ht hn

end Arguments

/-- A fact may be missing. -/
theorem fact {name : String} {pick : Facts → Option α} {next : α → Script β}
    (hn : ∀ a, (next a).Proper variant R) :
    (Script.fact name pick >>= next).Proper variant R := by
  refine bind (Q := fun _ => True) (fun known => ?_) fun a _ => hn a
  dsimp only [andThen]
  cases pick known with
  | some a => trivial
  | none => exact Failure.IsOutside.fact name

theorem answerTo {query : Query} {next : query.Answer → Script β}
    (hn : ∀ reply, (next reply).Proper variant R) :
    (Script.answerTo query >>= next).Proper variant R :=
  bind (Q := fun _ => True) (fun _ => trivial) fun reply _ => hn reply

end Proper

end Script

/-- The rule of the variant is proper and ends with a value of the type that the variant declares;
arguments and defaults are as useful as they claim to be. -/
structure Variant.WellTyped (variant : Variant) : Prop where
  rule : variant.rule.Proper variant fun value => value.type = variant.result
  /-- A default has the type of its parameter. -/
  fallback : ∀ param ∈ variant.params, ∀ literal ∈ param.fallback, literal.type = param.type
  /-- No parameter takes what actions and events yield. -/
  param : ∀ param ∈ variant.params, param.type ≠ .unit
  /-- An action yields nothing of use. -/
  action : variant.kind = .action → variant.result = .unit

/-- Every registered variant is well typed. -/
def Registry.WellTyped (registry : Registry) : Prop :=
  ∀ variant ∈ registry.variants, variant.WellTyped

end Rulebook
