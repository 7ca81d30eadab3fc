import Rulebook.Interchange.Entry

/-!
# Places

Which node stands at which path, while a tree is being read. Places branch as
the tree does, so finding a path takes as many steps as it has names, however
many other places there are.
-/

namespace Rulebook

/-- The places of a tree that have a node. -/
structure Places where
  /-- The node at this place. -/
  here : Option NodeId := none
  /-- The places below it, slot by slot. -/
  slots : List (String × Places) := []

namespace Places

/-- No place has a node. -/
def empty : Places := {}

/-- The node at a path. -/
def find? : Path → Places → Option NodeId
  | [], places => places.here
  | name :: rest, places => (places.slots.lookup name).bind (find? rest)

/-- The slots, with other places in one of them. -/
def replace (name : String) (places : Places) : List (String × Places) → List (String × Places)
  | [] => [(name, places)]
  | (other, old) :: rest =>
    if other = name then (name, places) :: rest else (other, old) :: replace name places rest

/-- Puts a node at a path. -/
def put (id : NodeId) : Path → Places → Places
  | [], places => { places with here := some id }
  | name :: rest, places =>
    let slot := (places.slots.lookup name).getD empty
    { places with slots := replace name (put id rest slot) places.slots }

theorem find?_empty (path : Path) : find? path empty = none := by
  cases path <;> rfl

theorem lookup_replace (name other : String) (places : Places) (slots : List (String × Places)) :
    (replace name places slots).lookup other
      = if other = name then some places else slots.lookup other := by
  induction slots with
  | nil => rw [replace, lookup_slot]
  | cons slot rest ih =>
    obtain ⟨known, old⟩ := slot
    rw [replace, lookup_slot]
    by_cases hk : known = name
    · rw [if_pos hk, lookup_slot, hk]
      split <;> rfl
    · rw [if_neg hk, lookup_slot, ih]
      by_cases h : other = name
      · rw [if_pos h, if_pos h, if_neg fun he => hk (he.symm.trans h)]
      · rw [if_neg h, if_neg h]

theorem find?_put (id : NodeId) (path other : Path) (places : Places) :
    find? other (put id path places) = if other = path then some id else find? other places := by
  induction path generalizing other places with
  | nil => cases other <;> simp [put, find?]
  | cons name rest ih =>
    cases other with
    | nil => simp [put, find?]
    | cons first others =>
      rw [put, find?, find?, lookup_replace]
      by_cases h : first = name
      · subst h
        rw [if_pos rfl, Option.bind_some, ih]
        cases hl : places.slots.lookup first with
        | none => simp [find?_empty]
        | some slot => simp
      · simp [h]

end Places

end Rulebook
