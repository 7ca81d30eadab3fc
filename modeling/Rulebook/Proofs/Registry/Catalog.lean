import Rulebook.Proofs.Builtin
import Std.Data.HashMap

/-!
# Registering in any order

A host adds its variants in any order, and the built-in ones at some point, or more
than once. Whatever it asks for, the registry only grows, and what it holds in the end
are, of each name, the first sound definition that was offered.

A registry does not have to search its list for a name. It may as well keep a hash
table of the variants, which has no order, and beside it the names in the order of
registration. The two are written one after the other, and only once nothing can fail
any more, so they stay in step.
-/

namespace Rulebook

/-! ## Two tables -/

/-- The variants by name, and the names in the order of registration. -/
structure Catalog where
  byName : Std.HashMap VariantId Variant := ∅
  order : List VariantId := []

namespace Catalog

/-- The catalog without variants. -/
def empty : Catalog := {}

/-- The variant of a name. -/
def get? (catalog : Catalog) (id : VariantId) : Option Variant := catalog.byName[id]?

/-- The number of variants. -/
def size (catalog : Catalog) : Nat := catalog.byName.size

/-- The variants, in the order of registration. -/
def listed (catalog : Catalog) : List Variant := catalog.order.filterMap catalog.get?

/-- The variants of a kind, in the order of registration. -/
def ofKind (catalog : Catalog) (kind : NodeKind) : List Variant :=
  catalog.listed.filter fun variant => variant.kind == kind

/-- The event variants that listen for a kind of occurrence, in the order of registration. -/
def eventsFor (catalog : Catalog) (kind : OccurrenceKind) : List Variant :=
  catalog.listed.filter fun variant => variant.listensTo == some kind

/-- Adds a variant whose name is free and whose definition is sound, first to the order and then to
the table. -/
def register (variant : Variant) : Attempt Rejection Catalog Unit := do
  if (← get).byName.contains variant.id then
    throw (.duplicateVariant variant.id)
  variant.check
  modify fun catalog => { catalog with order := catalog.order ++ [variant.id] }
  modify fun catalog => { catalog with byName := catalog.byName.insert variant.id variant }

/-- Adds a variant, or leaves it at that if the variant is refused. -/
def offer (catalog : Catalog) (variant : Variant) : Catalog :=
  ((register variant).runOn catalog).2

/-- The tables say what the list says. -/
structure Mirrors (catalog : Catalog) (registry : Registry) : Prop where
  order : catalog.order = registry.variants.map Variant.id
  lookup : ∀ id, catalog.get? id = registry.get? id
  size : catalog.size = registry.size

variable {catalog : Catalog} {registry : Registry}

theorem mirrors_empty : Mirrors .empty .empty :=
  ⟨rfl, fun _ => Std.HashMap.getElem?_empty, Std.HashMap.size_empty⟩

theorem contains_iff {id : VariantId} :
    catalog.byName.contains id = true ↔ catalog.get? id ≠ none := by
  rw [Std.HashMap.contains_eq_isSome_getElem?]
  exact Option.isSome_iff_ne_none

theorem register_of_taken {variant : Variant} (h : catalog.get? variant.id ≠ none) :
    (register variant).runOn catalog = (.error (.duplicateVariant variant.id), catalog) := by
  rw [register, Attempt.runOn_get_bind, Attempt.runOn_ite, if_pos (contains_iff.mpr h)]
  rfl

theorem register_of_unsound {variant : Variant} {e : Rejection}
    (h : catalog.get? variant.id = none) (he : variant.check = .error e) :
    (register variant).runOn catalog = (.error e, catalog) := by
  rw [register, Attempt.runOn_get_bind, Attempt.runOn_ite,
    if_neg (not_not.mpr h ∘ contains_iff.mp)]
  exact Attempt.runOn_refused he _ catalog

theorem register_of_sound {variant : Variant} (h : catalog.get? variant.id = none)
    (hcheck : variant.check = .ok ()) : (register variant).runOn catalog =
      (.ok (), ⟨catalog.byName.insert variant.id variant, catalog.order ++ [variant.id]⟩) := by
  rw [register, Attempt.runOn_get_bind, Attempt.runOn_ite,
    if_neg (not_not.mpr h ∘ contains_iff.mp)]
  exact Attempt.runOn_passed hcheck _ catalog

/-- A table and a list that go on to hold one more variant under a name that is free. -/
theorem Mirrors.insert (h : Mirrors catalog registry) {variant : Variant}
    (hfree : registry.get? variant.id = none) :
    Mirrors ⟨catalog.byName.insert variant.id variant, catalog.order ++ [variant.id]⟩
      ⟨registry.variants ++ [variant]⟩ := by
  refine ⟨?order, fun id => ?lookup, ?size⟩
  case order => rw [h.order, List.map_append, List.map_singleton]
  case lookup =>
    rw [get?, Std.HashMap.getElem?_insert, Registry.get?, List.find?_append]
    by_cases hid : variant.id = id
    · have hnone : registry.variants.find? (fun variant => variant.id == id) = none := hid ▸ hfree
      rw [hnone]
      simp [hid]
    · have hold : catalog.byName[id]? = registry.variants.find? fun variant => variant.id == id :=
        h.lookup id
      simp [hid, hold]
  case size =>
    -- the name was free in the registry, so the map has no entry for it
    have hnew : variant.id ∉ catalog.byName := fun hm =>
      contains_iff.mp (Std.HashMap.contains_iff_mem.mpr hm) ((h.lookup _).trans hfree)
    have hsize : catalog.byName.size = registry.variants.length := h.size
    rw [Catalog.size, Std.HashMap.size_insert, if_neg hnew, hsize, Registry.size,
      List.length_append, List.length_singleton]

/-- **One more variant**: both answer the same, both go on to hold the same, and a catalog that
refuses is what it was. -/
theorem Mirrors.register (h : Mirrors catalog registry) (variant : Variant) :
    ((register variant).runOn catalog).1 = (registry.register variant).map (fun _ => ()) ∧
      Mirrors (catalog.offer variant) (registry.offer variant) ∧
      ∀ e, ((register variant).runOn catalog).1 = .error e → catalog.offer variant = catalog := by
  rw [offer]
  by_cases hfree : registry.get? variant.id = none
  · have hfree' : catalog.get? variant.id = none := (h.lookup _).trans hfree
    cases hcheck : variant.check with
    | ok =>
        have hok := Registry.register_ok.mpr ⟨hfree, hcheck, rfl⟩
        rw [register_of_sound hfree' hcheck, hok, Registry.offer_of_ok hok]
        exact ⟨rfl, h.insert hfree, nofun⟩
    | error e =>
        have herror : registry.register variant = .error e := by
          rw [Registry.register_of_free hfree, hcheck]
          rfl
        rw [register_of_unsound hfree' hcheck, herror, Registry.offer_of_error herror]
        exact ⟨rfl, h, fun _ _ => rfl⟩
  · have herror := Registry.register_of_taken hfree
    rw [register_of_taken (h.lookup variant.id ▸ hfree), herror, Registry.offer_of_error herror]
    exact ⟨rfl, h, fun _ _ => rfl⟩

theorem Mirrors.offerAll (offered : List Variant) :
    ∀ {catalog : Catalog} {registry : Registry}, Mirrors catalog registry →
      Mirrors (offered.foldl offer catalog) (registry.offerAll offered) := by
  induction offered with
  | nil => exact id
  | cons variant rest ih => exact fun h => ih (h.register variant).2.1

/-- Looking up the names in order gives the list. -/
theorem Mirrors.listed (h : Mirrors catalog registry)
    (hn : (registry.variants.map Variant.id).Nodup) : catalog.listed = registry.variants := by
  have hfound : ∀ variant ∈ registry.variants,
      (catalog.get? ∘ Variant.id) variant = some variant :=
    fun variant hv => (h.lookup _).trans (Registry.get?_of_mem hn hv)
  rw [Catalog.listed, h.order, List.filterMap_map, List.filterMap_congr hfound,
    List.filterMap_some]

/-- No question that can be asked tells the catalog from the registry. -/
structure Agrees (catalog : Catalog) (registry : Registry) : Prop where
  listed : catalog.listed = registry.variants
  size : catalog.size = registry.size
  lookup : ∀ id, catalog.get? id = registry.get? id
  ofKind : ∀ kind, catalog.ofKind kind = registry.ofKind kind
  eventsFor : ∀ kind, catalog.eventsFor kind = registry.eventsFor kind
  /-- The next variant is taken by both, or refused by both for the same reason. -/
  next : ∀ variant, ((register variant).runOn catalog).1
    = (registry.register variant).map fun _ => ()
  /-- A catalog that refuses a variant is what it was. -/
  refusal : ∀ variant e, ((register variant).runOn catalog).1 = .error e →
    ((register variant).runOn catalog).2 = catalog

theorem Mirrors.agrees (h : Mirrors catalog registry)
    (hn : (registry.variants.map Variant.id).Nodup) : Agrees catalog registry :=
  have hlisted := h.listed hn
  ⟨hlisted, h.size, h.lookup, fun _ => congrArg (List.filter _) hlisted,
    fun _ => congrArg (List.filter _) hlisted, fun variant => (h.register variant).1,
    fun variant => (h.register variant).2.2⟩

end Catalog

/-! ## Whatever a host asks for -/

/-- What a host may ask for: one variant, or the built-in ones. -/
inductive Registration where
  | one (variant : Variant)
  | builtins

namespace Registration

/-- The variants that are offered to the registry, in order. -/
def offers : Registration → List Variant
  | one variant => [variant]
  | builtins => Builtin.variants

/-- The variants that are offered by several calls, in order. -/
def allOffers (calls : List Registration) : List Variant := calls.flatMap offers

end Registration

open Registration (allOffers)

namespace Registry

/-- The registry after one more call. -/
def perform (registry : Registry) : Registration → Registry
  | .one variant => registry.offer variant
  | .builtins => registry.addBuiltins

/-- The registry after the calls. -/
def after (calls : List Registration) : Registry := calls.foldl perform empty

end Registry

namespace Catalog

/-- The catalog after one more call. -/
def perform (catalog : Catalog) : Registration → Catalog
  | .one variant => catalog.offer variant
  | .builtins => Builtin.variants.foldl offer catalog

/-- The catalog after the calls. -/
def after (calls : List Registration) : Catalog := calls.foldl perform empty

theorem after_eq (calls : List Registration) :
    after calls = (allOffers calls).foldl offer empty := by
  rw [after, allOffers, List.foldl_flatMap]
  refine congrArg (List.foldl · empty calls) (funext fun catalog => funext fun call => ?_)
  cases call <;> rfl

end Catalog

namespace Registry

theorem after_append (calls more : List Registration) :
    after (calls ++ more) = (after calls).offerAll (allOffers more) := by
  rw [after, List.foldl_append, offerAll, allOffers, List.foldl_flatMap]
  refine congrArg (List.foldl · (after calls) more) (funext fun registry => funext fun call => ?_)
  cases call <;> rfl

theorem after_eq (calls : List Registration) : after calls = empty.offerAll (allOffers calls) :=
  after_append [] calls

theorem grows_after (calls : List Registration) : Grows .empty (after calls) := by
  rw [after_eq]
  exact grows_offerAll (allOffers calls) empty

theorem mirrors_after (calls : List Registration) :
    Catalog.Mirrors (Catalog.after calls) (after calls) := by
  rw [after_eq, Catalog.after_eq]
  exact Catalog.mirrors_empty.offerAll (allOffers calls)

/-- How a registry stands after the calls. -/
structure Orderly (calls : List Registration) : Prop where
  /-- It holds what was registered, in the order in which it was. -/
  listed : (after calls).variants = empty.accepted (allOffers calls)
  size : (after calls).size = (empty.accepted (allOffers calls)).length
  ofKind : ∀ kind, (after calls).ofKind kind
    = (empty.accepted (allOffers calls)).filter fun variant => variant.kind == kind
  eventsFor : ∀ kind, (after calls).eventsFor kind
    = (empty.accepted (allOffers calls)).filter fun variant => variant.listensTo == some kind
  /-- No name is registered twice. -/
  distinct : ((after calls).variants.map Variant.id).Nodup
  /-- Everything in a registered definition fits together. -/
  valid : ∀ variant ∈ (after calls).variants, variant.Valid
  /-- A name stands for the first variant that was registered under it. -/
  first : ∀ id, (after calls).get? id
    = (empty.accepted (allOffers calls)).find? fun variant => variant.id == id
  /-- That is the first valid one that was offered under it. -/
  offered : ∀ id, (after calls).get? id
    = (allOffers calls).find? fun variant => variant.id == id && decide variant.Valid
  /-- Further calls only add to the end. -/
  grows : ∀ more, (after calls).variants <+: (after (calls ++ more)).variants
  /-- What a name stands for stays. -/
  lasting : ∀ more {id variant}, (after calls).get? id = some variant →
    (after (calls ++ more)).get? id = some variant
  /-- A variant is refused exactly if its name is taken or something in it does not fit. -/
  refused : ∀ variant, (∃ e, (after calls).register variant = .error e) ↔
    (after calls).get? variant.id ≠ none ∨ ¬ variant.Valid
  /-- All this may be kept in two tables. -/
  catalog : Catalog.Agrees (Catalog.after calls) (after calls)

/-- **A registry is an ordered table of valid definitions that is only added to**, whatever is
offered to it. -/
theorem orderly (calls : List Registration) : Orderly calls := by
  have hgrows := grows_after calls
  have hlisted : (after calls).variants = empty.accepted (allOffers calls) := by
    rw [after_eq, variants_offerAll]
    rfl
  refine ⟨hlisted, congrArg List.length hlisted, fun _ => congrArg (List.filter _) hlisted,
    fun _ => congrArg (List.filter _) hlisted, hgrows.distinct, hgrows.valid,
    fun _ => congrArg (List.find? _) hlisted, ?earliest, ?grows, ?lasting,
    fun _ => register_error_iff, (mirrors_after calls).agrees hgrows.distinct⟩
  case earliest =>
    intro id
    rw [after_eq, get?_offerAll]
    rfl
  case grows =>
    intro more
    rw [after_append, variants_offerAll]
    exact List.prefix_append _ _
  case lasting =>
    intro more id variant hv
    rw [after_append, get?_offerAll, hv, Option.some_or]

end Registry

/-! ## A host's own sum

A host registers a variant of its own under the name of a built-in one before those, and another
afterwards; and one whose name is none. -/

namespace Clash

/-- A variant that may stand where a sum may. -/
def sum (template : String) : Variant :=
  Builtin.expression "AddInt" .int (.done (.int 7)) [] template

def calls : List Registration :=
  [.one { sum "misnamed" with id := "Add Int" }, .one (sum "first"), .builtins, .one (sum "last")]

end Clash

namespace Registry

/-- The first of the two stands, also in place of the built-in one, and the name that is none is
not found. -/
theorem orderly_clash : Orderly Clash.calls ∧
    ((after Clash.calls).get? "AddInt").map Variant.template = some "first" ∧
    ((after Clash.calls).get? "Add Int").map Variant.template = none ∧
    ∃ e, (after Clash.calls).register (Clash.sum "once more") = .error e := by
  have h := orderly Clash.calls
  have hsum : ((after Clash.calls).get? "AddInt").map Variant.template = some "first" := by
    rw [h.offered]
    decide +kernel
  refine ⟨h, hsum, ?_, (h.refused _).mpr (.inl fun hnone => ?_)⟩
  · rw [h.offered]
    decide +kernel
  · rw [show (Clash.sum "once more").id = "AddInt" from rfl] at hnone
    rw [hnone] at hsum
    exact absurd hsum nofun

end Registry

end Rulebook
