import Mathlib.Data.List.Nodup
import Mathlib.Logic.Relation
import Rulebook.Proofs.Attempt
import Rulebook.Registry

/-!
# Sound registries

A definition passes its checks exactly if everything in it fits together, and only
such definitions can be registered, each under a name that is free. So every
definition in a registry that came about by registering is sound, no two have the
same name, and what a name stands for never changes: it is the first sound
definition that was offered under it.
-/

namespace Rulebook

/-- A parameter has a name, and a default that suits it, if it has one. -/
structure Param.Fits (param : Param) : Prop where
  name : isName param.name.toList = true
  /-- A default is of the parameter's type and refers to nothing outside the script. -/
  fallback : ∀ literal ∈ param.fallback, literal.type = param.type ∧ literal.isReference = false

namespace Variant

/-- Everything in the definition fits together. -/
structure Valid (variant : Variant) : Prop where
  name : isName variant.id.toList = true
  params : ∀ param ∈ variant.params, param.Fits
  distinct : (variant.params.map Param.name).Nodup
  /-- A value carries a literal of its own type, and nothing is bound to it. -/
  value : variant.kind = .value → variant.literal = some variant.result ∧ variant.params = []
  /-- Nothing else carries a literal. -/
  bare : variant.kind ≠ .value → variant.literal = none
  /-- Events listen for something, and nothing else does. -/
  listens : variant.listensTo.isSome = true ↔ variant.kind = .event
  /-- Events and actions produce nothing, and everything else produces something. -/
  unit : variant.result = .unit ↔ variant.kind = .event ∨ variant.kind = .action
  /-- A conditional says yes or no. -/
  bool : variant.kind = .conditional → variant.result = .bool

/-- The names in the definition are names, its literal suits its kind. -/
structure Sound (variant : Variant) : Prop where
  name : isName variant.id.toList = true
  params : ∀ param ∈ variant.params, isName param.name.toList = true
  distinct : (variant.params.map Param.name).Nodup
  literal : variant.literalFits = true

variable {variant : Variant}

theorem fallbackFits_iff {type : ValueType} {literal : Literal} :
    fallbackFits type literal = true ↔ literal.type = type ∧ literal.isReference = false := by
  rw [fallbackFits, Bool.and_eq_true, beq_iff_eq, Bool.not_eq_true']

theorem checkParams_cons {id : VariantId} {earlier : List String} {param : Param}
    {rest : List Param} : checkParams id earlier (param :: rest) = .ok () ↔
      param.name ∉ earlier ∧ param.Fits ∧
        checkParams id (earlier ++ [param.name]) rest = .ok () := by
  have hfits : param.Fits ↔ isName param.name.toList = true ∧
      ∀ literal ∈ param.fallback, fallbackFits param.type literal = true :=
    ⟨fun h => ⟨h.name, fun literal hl => fallbackFits_iff.mpr (h.fallback literal hl)⟩,
      fun h => ⟨h.1, fun literal hl => fallbackFits_iff.mp (h.2 literal hl)⟩⟩
  rw [checkParams, hfits]
  cases param.fallback with
  | none => simp [and_assoc, Check.ite_ok, Check.then_ok, Check.throw_ok]
  | some literal => simp [and_assoc, Check.ite_ok, Check.then_ok, Check.throw_ok]

/-- The parameters pass if each fits and has a name that none before it has. -/
theorem checkParams_iff {id : VariantId} {params : List Param} : ∀ {earlier : List String},
    checkParams id earlier params = .ok () ↔
      (∀ param ∈ params, param.Fits ∧ param.name ∉ earlier) ∧
        (params.map Param.name).Nodup := by
  induction params with
  | nil => simp [checkParams]
  | cons param rest ih =>
      intro earlier
      rw [checkParams_cons, ih, List.forall_mem_cons, List.map_cons, List.nodup_cons]
      simp only [List.mem_append, List.mem_singleton, not_or, List.mem_map, not_exists, not_and]
      -- a name may be none of the earlier ones, to which each parameter adds its own
      constructor
      · intro ⟨hnew, hfits, hrest, hn⟩
        exact ⟨⟨⟨hfits, hnew⟩, fun other ho => ⟨(hrest other ho).1, (hrest other ho).2.1⟩⟩,
          fun other ho => (hrest other ho).2.2, hn⟩
      · intro ⟨⟨⟨hfits, hnew⟩, hrest⟩, hne, hn⟩
        exact ⟨hnew, hfits,
          fun other ho => ⟨(hrest other ho).1, (hrest other ho).2, hne other ho⟩, hn⟩

theorem literalFits_iff : variant.literalFits = true ↔
    (variant.kind = .value → variant.literal = some variant.result ∧ variant.params = []) ∧
      (variant.kind ≠ .value → variant.literal = none) := by
  unfold literalFits
  cases hk : variant.kind with
  | value | event | action | conditional | expression => simp

theorem kindFits_iff : variant.kindFits = true ↔
    (variant.listensTo.isSome = true ↔ variant.kind = .event) ∧
      (variant.result = .unit ↔ variant.kind = .event ∨ variant.kind = .action) ∧
      (variant.kind = .conditional → variant.result = .bool) := by
  unfold kindFits
  cases hk : variant.kind with
  | event | action | value | expression => simp
  | conditional =>
      -- a result that is a boolean is not the unit
      have hne : variant.result = .bool → variant.result ≠ .unit := fun h => by simp [h]
      simpa using fun (_ : variant.listensTo = none) => hne

/-- **A definition passes** exactly if everything in it fits together. -/
theorem check_iff : variant.check = .ok () ↔ variant.Valid := by
  simp only [check, Check.ite_ok, Check.then_ok, Check.throw_ok, Check.pure_ok, false_and,
    and_false, or_false, checkParams_iff, literalFits_iff, kindFits_iff]
  constructor
  · intro ⟨hname, ⟨hparams, hdistinct⟩, ⟨hvalue, hbare⟩, ⟨hlistens, hunit, hbool⟩, _⟩
    exact ⟨hname, fun param hp => (hparams param hp).1, hdistinct, hvalue, hbare, hlistens, hunit,
      hbool⟩
  · intro h
    exact ⟨h.name, ⟨fun param hp => ⟨h.params param hp, List.not_mem_nil⟩, h.distinct⟩,
      ⟨h.value, h.bare⟩, ⟨h.listens, h.unit, h.bool⟩, trivial⟩

instance : Decidable variant.Valid := decidable_of_iff _ check_iff

theorem Valid.sound (h : variant.Valid) : variant.Sound :=
  ⟨h.name, fun param hp => (h.params param hp).name, h.distinct,
    literalFits_iff.mpr ⟨h.value, h.bare⟩⟩

namespace Sound

/-- Value variants carry a literal of their own type. -/
theorem literal_of_value (h : variant.Sound) (hk : variant.kind = .value) :
    variant.literal = some variant.result :=
  ((literalFits_iff.mp h.literal).1 hk).1

/-- Only value variants carry a literal. -/
theorem kind_of_literal (h : variant.Sound) {type : ValueType}
    (ht : variant.literal = some type) : variant.kind = .value := by
  by_contra hk
  have hnone := (literalFits_iff.mp h.literal).2 hk
  exact absurd (ht.symm.trans hnone) nofun

/-- A variant that carries a literal has no parameters. -/
theorem params_of_literal (h : variant.Sound) {type : ValueType}
    (ht : variant.literal = some type) : variant.params = [] :=
  ((literalFits_iff.mp h.literal).1 (h.kind_of_literal ht)).2

end Sound

theorem mem_of_param? {name : String} {param : Param} (h : variant.param? name = some param) :
    param ∈ variant.params ∧ param.name = name :=
  ⟨List.mem_of_find?_eq_some h, by simpa using List.find?_some h⟩

end Variant

namespace Registry

variable {registry grown : Registry} {id : VariantId} {variant : Variant}

/-- Every definition is sound. -/
def Sound (registry : Registry) : Prop := ∀ variant ∈ registry.variants, variant.Sound

/-- Variants were registered, one after the other. -/
def Grows : Registry → Registry → Prop :=
  Relation.ReflTransGen fun registry grown => ∃ variant, registry.register variant = .ok grown

theorem register_ok :
    registry.register variant = .ok grown ↔
      registry.get? variant.id = none ∧ variant.check = .ok () ∧
        grown = ⟨registry.variants ++ [variant]⟩ := by
  have hfree : registry.contains variant.id = true ↔ registry.get? variant.id ≠ none := by
    rw [contains, ne_eq, Option.isSome_iff_ne_none]
  simp only [register, Check.ite_ok, Check.then_ok, Check.throw_ok, Check.pure_ok, hfree]
  simp [eq_comm]

theorem mem_of_get? (h : registry.get? id = some variant) : variant ∈ registry.variants :=
  List.mem_of_find?_eq_some h

theorem get?_eq_none : registry.get? id = none ↔ id ∉ registry.variants.map Variant.id := by
  rw [get?, List.find?_eq_none, List.mem_map]
  simp

theorem Sound.get? (h : registry.Sound) (hv : registry.get? id = some variant) : variant.Sound :=
  h _ (mem_of_get? hv)

/-- **What a name stands for stays** when another variant is registered. -/
theorem get?_register {new : Variant} (hr : registry.register new = .ok grown)
    (hv : registry.get? id = some variant) : grown.get? id = some variant := by
  obtain ⟨_, _, rfl⟩ := register_ok.mp hr
  have hv' : registry.variants.find? (fun variant => variant.id == id) = some variant := hv
  rw [get?, List.find?_append, hv']
  rfl

theorem Grows.get? (hg : Grows registry grown) (hv : registry.get? id = some variant) :
    grown.get? id = some variant := by
  induction hg with
  | refl => exact hv
  | tail _ hstep ih =>
      obtain ⟨new, hr⟩ := hstep
      exact get?_register hr ih

theorem Grows.valid (hg : Grows .empty registry) :
    ∀ variant ∈ registry.variants, variant.Valid := by
  induction hg with
  | refl => exact fun variant hv => absurd hv List.not_mem_nil
  | tail _ hstep ih =>
      obtain ⟨new, hr⟩ := hstep
      obtain ⟨_, hcheck, rfl⟩ := register_ok.mp hr
      exact List.forall_mem_append.mpr
        ⟨ih, List.forall_mem_singleton.mpr (Variant.check_iff.mp hcheck)⟩

theorem Grows.sound (hg : Grows .empty registry) : registry.Sound :=
  fun variant hv => (hg.valid variant hv).sound

/-! ## Offering -/

theorem register_of_valid (hfree : registry.get? variant.id = none) (hvalid : variant.Valid) :
    registry.register variant = .ok ⟨registry.variants ++ [variant]⟩ :=
  register_ok.mpr ⟨hfree, Variant.check_iff.mpr hvalid, rfl⟩

/-- That a name is taken is found out before anything else. -/
theorem register_of_taken (h : registry.get? variant.id ≠ none) :
    registry.register variant = .error (.duplicateVariant variant.id) := by
  have hcontains : registry.contains variant.id = true := Option.isSome_iff_ne_none.mpr h
  rw [register, if_pos hcontains]
  rfl

theorem register_of_free (h : registry.get? variant.id = none) :
    registry.register variant = variant.check.map fun _ => ⟨registry.variants ++ [variant]⟩ := by
  have hcontains : ¬ registry.contains variant.id = true := by
    rw [contains, h]
    exact Bool.false_ne_true
  rw [register, if_neg hcontains]
  cases variant.check <;> rfl

/-- **A variant is refused** exactly if its name is taken or something in it does not fit. -/
theorem register_error_iff : (∃ e, registry.register variant = .error e) ↔
    registry.get? variant.id ≠ none ∨ ¬ variant.Valid := by
  constructor
  · intro ⟨e, he⟩
    by_contra hn
    obtain ⟨hfree, hvalid⟩ := not_or.mp hn
    have hok := register_of_valid (not_not.mp hfree) (not_not.mp hvalid)
    exact absurd (hok.symm.trans he) nofun
  · intro h
    cases hr : registry.register variant with
    | error e => exact ⟨e, rfl⟩
    | ok grown =>
        obtain ⟨hfree, hcheck, _⟩ := register_ok.mp hr
        exact absurd h (not_or.mpr ⟨not_not.mpr hfree, not_not.mpr (Variant.check_iff.mp hcheck)⟩)

theorem offer_of_ok (h : registry.register variant = .ok grown) :
    registry.offer variant = grown := by
  rw [offer, h]

theorem offer_of_error {e : Rejection} (h : registry.register variant = .error e) :
    registry.offer variant = registry := by
  rw [offer, h]

theorem grows_offer (registry : Registry) (variant : Variant) :
    Grows registry (registry.offer variant) := by
  cases hr : registry.register variant with
  | ok grown =>
      rw [offer_of_ok hr]
      exact .single ⟨variant, hr⟩
  | error e =>
      rw [offer_of_error hr]
      exact .refl

theorem grows_offerAll (offered : List Variant) :
    ∀ registry : Registry, Grows registry (registry.offerAll offered) := by
  induction offered with
  | nil => exact fun _ => .refl
  | cons variant rest ih =>
      exact fun registry => (grows_offer registry variant).trans (ih (registry.offer variant))

/-- Those of the variants that are registered when they are offered one after the other. -/
def accepted (registry : Registry) : List Variant → List Variant
  | [] => []
  | variant :: rest =>
    match registry.register variant with
    | .ok grown => variant :: grown.accepted rest
    | .error _ => registry.accepted rest

theorem variants_offerAll (offered : List Variant) : ∀ registry : Registry,
    (registry.offerAll offered).variants = registry.variants ++ registry.accepted offered := by
  induction offered with
  | nil => exact fun registry => (List.append_nil _).symm
  | cons variant rest ih =>
      intro registry
      show ((registry.offer variant).offerAll rest).variants = _
      cases hr : registry.register variant with
      | ok grown =>
          rw [offer_of_ok hr, ih, accepted, hr, (register_ok.mp hr).2.2, List.append_assoc]
          rfl
      | error e => rw [offer_of_error hr, ih, accepted, hr]

theorem get?_offer (registry : Registry) (variant : Variant) (id : VariantId) :
    (registry.offer variant).get? id = (registry.get? id).or
      ([variant].find? fun variant => variant.id == id && decide variant.Valid) := by
  cases hr : registry.register variant with
  | ok grown =>
      obtain ⟨_, hcheck, rfl⟩ := register_ok.mp hr
      have hvalid : variant.Valid := Variant.check_iff.mp hcheck
      rw [offer_of_ok hr, get?, List.find?_append]
      simp [get?, hvalid]
  | error e =>
      rw [offer_of_error hr]
      by_cases hvalid : variant.Valid
      · -- then the name is taken already
        have htaken := (register_error_iff.mp ⟨e, hr⟩).resolve_right (not_not.mpr hvalid)
        by_cases hid : variant.id = id
        · obtain ⟨old, hold⟩ := Option.ne_none_iff_exists'.mp (hid ▸ htaken)
          rw [hold, Option.some_or]
        · simp [hid]
      · simp [hvalid]

/-- **A name stands for the first sound definition** that is offered under it, unless it stood for
something before. -/
theorem get?_offerAll (offered : List Variant) (id : VariantId) : ∀ registry : Registry,
    (registry.offerAll offered).get? id = (registry.get? id).or
      (offered.find? fun variant => variant.id == id && decide variant.Valid) := by
  induction offered with
  | nil => exact fun registry => (Option.or_none).symm
  | cons variant rest ih =>
      intro registry
      show ((registry.offer variant).offerAll rest).get? id = _
      rw [ih, get?_offer, Option.or_assoc, ← List.find?_append, List.singleton_append]

theorem Grows.distinct (hg : Grows .empty registry) : (registry.variants.map Variant.id).Nodup := by
  induction hg with
  | refl => exact List.nodup_nil
  | tail _ hstep ih =>
      obtain ⟨new, hr⟩ := hstep
      obtain ⟨hfree, _, rfl⟩ := register_ok.mp hr
      rw [List.map_append]
      exact List.nodup_append.mpr ⟨ih, List.nodup_singleton _, fun id hid other ho he =>
        get?_eq_none.mp hfree (List.mem_singleton.mp ho ▸ he ▸ hid)⟩

/-- A variant that is listed is found under its name. -/
theorem get?_of_mem (hn : (registry.variants.map Variant.id).Nodup)
    (hv : variant ∈ registry.variants) : registry.get? variant.id = some variant := by
  cases hg : registry.get? variant.id with
  | none => exact absurd (List.mem_map_of_mem hv) (get?_eq_none.mp hg)
  | some found =>
      have hid : found.id = variant.id := by simpa using List.find?_some hg
      rw [List.inj_on_of_nodup_map hn (mem_of_get? hg) hv hid]

end Registry

end Rulebook
