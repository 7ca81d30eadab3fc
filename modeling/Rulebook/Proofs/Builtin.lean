import Rulebook.Builtin
import Rulebook.Proofs.Registry
import Rulebook.Proofs.Script

/-!
# The built-in variants are well typed

Each rule is gone through in the order in which it asks. Where it asks for an
argument, the parameter has to be one that the variant declares, of the type
that the rule wants; where it branches, either branch may be taken.
-/

namespace Rulebook

namespace Builtin

/-- Every parameter of a built-in variant takes a value that is of use, and its default, if it has
one, is such a value. -/
theorem params_fit : ∀ variant ∈ variants, ∀ param ∈ variant.params,
    param.type ≠ .unit ∧ ∀ literal ∈ param.fallback, literal.type = param.type := by
  decide

theorem variants_check : ∀ variant ∈ variants, variant.check = .ok () := by
  decide +kernel

theorem variants_distinct : (variants.map Variant.id).Nodup := by
  decide +kernel

theorem action_yields_unit :
    ∀ variant ∈ variants, variant.kind = .action → variant.result = .unit := by
  decide

/-! ## The rules -/

theorem values_proper : ∀ variant ∈ values,
    variant.rule.Proper variant fun value => value.type = variant.result := by
  have hvalue : ∀ id type, (valueVariant id type).rule.Proper (valueVariant id type)
      fun value => value.type = type := by
    intro id type own hown
    cases own with
    | none => exact absurd hown (by simp [valueVariant])
    | some literal =>
        intro value hv
        exact hv.trans (Option.some.inj hown)
  simp only [values, List.forall_mem_cons]
  exact ⟨hvalue _ _, hvalue _ _, hvalue _ _, hvalue _ _, hvalue _ _, hvalue _ _, hvalue _ _,
    hvalue _ _, by simp⟩

open Script

theorem expressions_proper : ∀ variant ∈ expressions,
    variant.rule.Proper variant fun value => value.type = variant.result := by
  simp only [expressions, List.forall_mem_cons]
  refine ⟨?player, ?destroyed, ?region, ?damage, ?random, ?add, ?subtract, ?blocks, ?items,
    ?concat, ?toText, ?name, by simp⟩
  case player | destroyed | region | damage => exact Proper.fact fun _ => rfl
  case random =>
    refine .intArg ⟨_, rfl, rfl⟩ fun low => .intArg ⟨_, rfl, rfl⟩ fun high => .ite ?_ ?_
    · exact fun _ => rfl
    · exact fun _ => rfl
  case add | subtract =>
    exact .intArg ⟨_, rfl, rfl⟩ fun _ => .intArg ⟨_, rfl, rfl⟩ fun _ => rfl
  case blocks =>
    exact .entityArg ⟨_, rfl, rfl⟩ fun _ => .blockArg ⟨_, rfl, rfl⟩ fun _ => .answerTo fun _ => rfl
  case items =>
    exact .entityArg ⟨_, rfl, rfl⟩ fun _ => .itemArg ⟨_, rfl, rfl⟩ fun _ => .answerTo fun _ => rfl
  case concat => exact .textArg ⟨_, rfl, rfl⟩ fun _ => .textArg ⟨_, rfl, rfl⟩ fun _ => rfl
  case toText => exact .intArg ⟨_, rfl, rfl⟩ fun _ => rfl
  case name =>
    refine .entityArg ⟨_, rfl, rfl⟩ fun player => .answerTo fun reply => ?_
    cases reply with
    | some name => exact rfl
    | none => exact .reference player.text

theorem conditionals_proper : ∀ variant ∈ conditionals,
    variant.rule.Proper variant fun value => value.type = variant.result := by
  simp only [conditionals, List.forall_mem_cons]
  refine ⟨?ints, ?texts, ?damage, ?inside, ?and, ?or, ?not, by simp⟩
  case ints =>
    exact .intArg ⟨_, rfl, rfl⟩ fun _ => .intArg ⟨_, rfl, rfl⟩ fun _ =>
      .comparatorArg ⟨_, rfl, rfl⟩ fun _ => rfl
  case texts =>
    exact .textArg ⟨_, rfl, rfl⟩ fun _ => .textArg ⟨_, rfl, rfl⟩ fun _ =>
      .comparatorArg ⟨_, rfl, rfl⟩ fun _ => rfl
  case damage =>
    exact .damageTypeArg ⟨_, rfl, rfl⟩ fun _ => .damageTypeArg ⟨_, rfl, rfl⟩ fun _ => rfl
  case inside =>
    exact .entityArg ⟨_, rfl, rfl⟩ fun _ => .regionArg ⟨_, rfl, rfl⟩ fun _ => fun _ =>
      .answerTo fun _ => rfl
  case and =>
    -- the second operand is asked for in one branch only
    refine .boolArg ⟨_, rfl, rfl⟩ fun left => .ite ?_ rfl
    exact .boolArg ⟨_, rfl, rfl⟩ fun _ => rfl
  case or =>
    refine .boolArg ⟨_, rfl, rfl⟩ fun left => .ite rfl ?_
    exact .boolArg ⟨_, rfl, rfl⟩ fun _ => rfl
  case not => exact .boolArg ⟨_, rfl, rfl⟩ fun _ => rfl

theorem actions_proper : ∀ variant ∈ actions,
    variant.rule.Proper variant fun value => value.type = variant.result := by
  simp only [actions, List.forall_mem_cons]
  refine ⟨?give, ?remove, ?item, ?say, ?tell, ?log, ?teleport, by simp⟩
  case give | remove =>
    exact .entityArg ⟨_, rfl, rfl⟩ fun _ => .intArg ⟨_, rfl, rfl⟩ fun _ =>
      .blockArg ⟨_, rfl, rfl⟩ fun _ => ⟨rfl, rfl⟩
  case item =>
    exact .entityArg ⟨_, rfl, rfl⟩ fun _ => .intArg ⟨_, rfl, rfl⟩ fun _ =>
      .itemArg ⟨_, rfl, rfl⟩ fun _ => ⟨rfl, rfl⟩
  case say | log => exact .textArg ⟨_, rfl, rfl⟩ fun _ => ⟨rfl, rfl⟩
  case tell =>
    exact .entityArg ⟨_, rfl, rfl⟩ fun _ => .textArg ⟨_, rfl, rfl⟩ fun _ => ⟨rfl, rfl⟩
  case teleport =>
    exact .entityArg ⟨_, rfl, rfl⟩ fun _ => .regionArg ⟨_, rfl, rfl⟩ fun _ => fun _ => ⟨rfl, rfl⟩

theorem events_proper : ∀ variant ∈ events,
    variant.rule.Proper variant fun value => value.type = variant.result := by
  simp only [events, List.forall_mem_cons]
  exact ⟨rfl, rfl, rfl, rfl, rfl, by simp⟩

/-- **Every built-in variant is well typed.** -/
theorem variants_wellTyped : ∀ variant ∈ variants, variant.WellTyped := by
  intro variant hv
  have hrule : variant.rule.Proper variant fun value => value.type = variant.result := by
    simp only [variants, List.mem_append] at hv
    rcases hv with (((hv | hv) | hv) | hv) | hv
    · exact values_proper variant hv
    · exact expressions_proper variant hv
    · exact conditionals_proper variant hv
    · exact actions_proper variant hv
    · exact events_proper variant hv
  exact ⟨hrule, fun param hp => (params_fit variant hv param hp).2,
    fun param hp => (params_fit variant hv param hp).1, action_yields_unit variant hv⟩

end Builtin

namespace Registry

variable {registry : Registry}

theorem offer_of_check {new : Variant} (hfree : registry.get? new.id = none)
    (hcheck : new.check = .ok ()) : registry.offer new = ⟨registry.variants ++ [new]⟩ :=
  offer_of_ok (register_ok.mpr ⟨hfree, hcheck, rfl⟩)

/-- Sound definitions of different names are all taken. -/
theorem offerAll_of_check (offered : List Variant) :
    ∀ {registry : Registry}, (∀ variant ∈ offered, variant.check = .ok ()) →
      ((registry.variants ++ offered).map Variant.id).Nodup →
      registry.offerAll offered = ⟨registry.variants ++ offered⟩ := by
  induction offered with
  | nil =>
      intro registry _ _
      rw [List.append_nil]
      rfl
  | cons new rest ih =>
      intro registry hcheck hn
      have hfree : registry.get? new.id = none := by
        refine get?_eq_none.mpr fun hm => ?_
        rw [List.map_append, List.nodup_append] at hn
        exact hn.2.2 new.id hm new.id List.mem_cons_self rfl
      have hstep := offer_of_check hfree (hcheck new List.mem_cons_self)
      show (registry.offer new).offerAll rest = _
      rw [hstep, ih (fun variant hv => hcheck variant (List.mem_cons_of_mem _ hv))]
      · rw [List.append_assoc, List.singleton_append]
      · rw [List.append_assoc, List.singleton_append]
        exact hn

/-- **All built-in variants are registered**, in order. -/
theorem builtin_eq : builtin = ⟨Builtin.variants⟩ := by
  have hn : ((empty.variants ++ Builtin.variants).map Variant.id).Nodup :=
    Builtin.variants_distinct
  rw [builtin, addBuiltins, offerAll_of_check _ Builtin.variants_check hn]
  rfl

theorem mem_of_builtin {id : VariantId} {variant : Variant} (h : builtin.get? id = some variant) :
    variant ∈ Builtin.variants := by
  rw [builtin_eq] at h
  exact mem_of_get? h

/-- The same of any registry that has these variants and no others. -/
theorem mem_of_eq_builtin {id : VariantId} {variant : Variant} (hr : registry = builtin)
    (h : registry.get? id = some variant) : variant ∈ Builtin.variants := by
  rw [hr] at h
  exact mem_of_builtin h

/-- The variants of these names are the built-in ones. It does not matter what else there is. -/
def Knows (names : List VariantId) (registry : Registry) : Prop :=
  ∀ name ∈ names, registry.get? name = builtin.get? name

theorem knows_builtin (names : List VariantId) : builtin.Knows names := fun _ _ => rfl

theorem builtin_wellTyped : builtin.WellTyped := by
  rw [builtin_eq]
  exact Builtin.variants_wellTyped

end Registry

end Rulebook
