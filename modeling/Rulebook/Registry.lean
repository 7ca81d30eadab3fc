import Rulebook.Variant

/-!
# The registry of variants

The variants that a script may use, in the order in which they were
registered. Variants are only ever added, so a node that was well made once
stays well made.
-/

namespace Rulebook

/-- The registered variants, oldest first. -/
structure Registry where
  variants : List Variant := []

namespace Registry

/-- The registry without variants. -/
def empty : Registry := ⟨[]⟩

/-- The variant of a name. -/
def get? (registry : Registry) (id : VariantId) : Option Variant :=
  registry.variants.find? fun variant => variant.id == id

/-- Whether a variant of the name is registered. -/
def contains (registry : Registry) (id : VariantId) : Bool := (registry.get? id).isSome

/-- The number of variants. -/
def size (registry : Registry) : Nat := registry.variants.length

/-- The variant of a name, or the complaint that there is none. -/
def require (registry : Registry) (id : VariantId) : Except Rejection Variant :=
  match registry.get? id with
  | some variant => .ok variant
  | none => .error (.unknownVariant id)

/-- Adds a variant whose name is free and whose definition is sound. -/
def register (registry : Registry) (variant : Variant) : Except Rejection Registry := do
  if registry.contains variant.id then
    throw (.duplicateVariant variant.id)
  variant.check
  return ⟨registry.variants ++ [variant]⟩

/-- Adds a variant, or leaves the registry as it is if the variant is refused. -/
def offer (registry : Registry) (variant : Variant) : Registry :=
  match registry.register variant with
  | .ok grown => grown
  | .error _ => registry

/-- Offers several variants in order. -/
def offerAll (registry : Registry) (variants : List Variant) : Registry :=
  variants.foldl offer registry

/-- The variants of a kind, in the order of registration. -/
def ofKind (registry : Registry) (kind : NodeKind) : List Variant :=
  registry.variants.filter fun variant => variant.kind == kind

/-- The event variants that listen for a kind of occurrence, in the order of registration. -/
def eventsFor (registry : Registry) (kind : OccurrenceKind) : List Variant :=
  registry.variants.filter fun variant => variant.listensTo == some kind

end Registry

end Rulebook
