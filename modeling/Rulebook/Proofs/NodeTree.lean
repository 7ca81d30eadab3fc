import Mathlib.Data.String.Basic
import Rulebook.NodeTree

/-!
# Slots of trees

The slots of a tree are in the order of their names, so it does not matter in
which order they were filled. Changing every literal of a tree changes neither
its slots nor their order.
-/

namespace Rulebook

namespace NodeTree

variable {p q : String} {a b : NodeTree} {filled other : List (String × NodeTree)}

/-! ## The order of filling -/

theorem fill_comm (hpq : p ≠ q) (slots : List (String × NodeTree)) :
    fill p a (fill q b slots) = fill q b (fill p a slots) := by
  induction slots with
  | nil =>
      rcases lt_trichotomy p q with hlt | he | hlt
      · simp [fill, hpq, hpq.symm, hlt, not_lt_of_gt hlt]
      · exact absurd he hpq
      · simp [fill, hpq, hpq.symm, hlt, not_lt_of_gt hlt]
  | cons slot rest ih =>
      obtain ⟨name, tree⟩ := slot
      -- where each of the two names stands against the first one
      rcases lt_trichotomy p name with hp | hp | hp
      · rcases lt_trichotomy q name with hq | hq | hq
        · rcases lt_trichotomy p q with hlt | he | hlt
          · simp [fill, hpq, hpq.symm, hlt, not_lt_of_gt hlt, hp, hp.ne, hq, hq.ne]
          · exact absurd he hpq
          · simp [fill, hpq, hpq.symm, hlt, not_lt_of_gt hlt, hp, hp.ne, hq, hq.ne]
        · subst hq
          simp [fill, hp, hp.ne, hp.ne', not_lt_of_gt hp]
        · have hlt := hp.trans hq
          simp [fill, hpq.symm, not_lt_of_gt hlt, hp, hp.ne, hq.ne', not_lt_of_gt hq]
      · subst hp
        rcases lt_trichotomy q p with hq | hq | hq
        · simp [fill, hq, hq.ne, hq.ne', not_lt_of_gt hq]
        · exact absurd hq.symm hpq
        · simp [fill, hq.ne', not_lt_of_gt hq]
      · rcases lt_trichotomy q name with hq | hq | hq
        · have hlt := hq.trans hp
          simp [fill, hpq, not_lt_of_gt hlt, hq, hq.ne, hp.ne', not_lt_of_gt hp]
        · subst hq
          simp [fill, hp.ne', not_lt_of_gt hp]
        · simp [fill, hp.ne', not_lt_of_gt hp, hq.ne', not_lt_of_gt hq, ih]

/-- **Slots of different names may be filled in any order.** -/
theorem slots_perm (h : filled.Perm other) (hn : (filled.map Prod.fst).Nodup) :
    slots filled = slots other := by
  suffices hall : ∀ start, filled.foldl (fun slots pair => fill pair.1 pair.2 slots) start
      = other.foldl (fun slots pair => fill pair.1 pair.2 slots) start from hall []
  induction h with
  | nil => intro start; rfl
  | cons pair _ ih =>
      intro start
      exact ih (List.nodup_cons.mp hn).2 _
  | swap x y rest =>
      intro start
      have hxy : x.1 ≠ y.1 := by
        intro he
        simp [he] at hn
      -- neighbours of different names may be filled in either order
      rw [List.foldl_cons, List.foldl_cons, List.foldl_cons, List.foldl_cons, fill_comm hxy]
  | trans h₁ _ ih₁ ih₂ =>
      intro start
      rw [ih₁ hn, ih₂ ((h₁.map Prod.fst).nodup_iff.mp hn)]

theorem mem_fill {pair : String × NodeTree} {slots : List (String × NodeTree)}
    (hp : p ∉ slots.map Prod.fst) : pair ∈ fill p a slots ↔ pair = (p, a) ∨ pair ∈ slots := by
  induction slots with
  | nil => simp [fill]
  | cons slot rest ih =>
      obtain ⟨name, tree⟩ := slot
      have hne : p ≠ name := fun he => hp (by simp [he])
      have hrest : p ∉ rest.map Prod.fst := fun hm => hp (by simp [hm])
      rw [fill, if_neg hne]
      split
      · rw [List.mem_cons]
      · rw [List.mem_cons, List.mem_cons, ih hrest]
        exact or_left_comm

/-- Slots of different names are all there. -/
theorem mem_slots {pair : String × NodeTree} (hn : (filled.map Prod.fst).Nodup) :
    pair ∈ slots filled ↔ pair ∈ filled := by
  -- the fold starts with no slots, but the induction is over any start
  suffices hall : ∀ start : List (String × NodeTree),
      (∀ name ∈ filled.map Prod.fst, name ∉ start.map Prod.fst) →
      (pair ∈ filled.foldl (fun slots pair => fill pair.1 pair.2 slots) start ↔
        pair ∈ start ∨ pair ∈ filled) by
    unfold slots
    simpa using hall [] (by simp)
  induction filled with
  | nil => intro start _; simp
  | cons slot rest ih =>
      intro start hstart
      obtain ⟨hslot, hrest⟩ := List.nodup_cons.mp hn
      have hnew : slot.1 ∉ start.map Prod.fst := hstart _ (by simp)
      have hmem : ∀ {pair : String × NodeTree}, pair ∈ fill slot.1 slot.2 start ↔
          pair = slot ∨ pair ∈ start := mem_fill hnew
      rw [List.foldl_cons, ih hrest]
      · rw [hmem, List.mem_cons, or_assoc]
        exact or_left_comm
      · intro name hname hm
        obtain ⟨other, ho, he⟩ := List.mem_map.mp hm
        rcases hmem.mp ho with rfl | ho
        · exact hslot (he ▸ hname)
        · exact hstart name (List.mem_cons_of_mem _ hname) (he ▸ List.mem_map_of_mem ho)

/-! ## Literals -/

mutual

/-- The literals of all nodes of the tree. -/
def literals : NodeTree → List Literal
  | ⟨_, literal, arguments⟩ => literal.toList ++ slotLiterals arguments

/-- The literals of the trees in several slots. -/
def slotLiterals : List (String × NodeTree) → List Literal
  | [] => []
  | (_, tree) :: rest => tree.literals ++ slotLiterals rest

end

mutual

/-- The tree with every literal replaced. -/
def mapLiterals (f : Literal → Literal) : NodeTree → NodeTree
  | ⟨variant, literal, arguments⟩ => ⟨variant, literal.map f, mapSlots f arguments⟩

/-- The trees in several slots with every literal replaced. -/
def mapSlots (f : Literal → Literal) : List (String × NodeTree) → List (String × NodeTree)
  | [] => []
  | (param, tree) :: rest => (param, tree.mapLiterals f) :: mapSlots f rest

end

variable {f : Literal → Literal} {literal : Literal}

theorem mem_slotLiterals :
    literal ∈ slotLiterals filled ↔ ∃ pair ∈ filled, literal ∈ pair.2.literals := by
  induction filled with
  | nil => simp [slotLiterals]
  | cons slot rest ih => simp [slotLiterals, ih]

/-- The literals of a node and of the trees below it. -/
theorem mem_literals_slots {variant : VariantId} {own : Option Literal}
    (hn : (filled.map Prod.fst).Nodup) :
    literal ∈ literals ⟨variant, own, slots filled⟩ ↔
      own = some literal ∨ ∃ pair ∈ filled, literal ∈ pair.2.literals := by
  rw [literals, List.mem_append, mem_slotLiterals, Option.mem_toList]
  simp only [mem_slots hn]

theorem mapSlots_fill (slots : List (String × NodeTree)) :
    mapSlots f (fill p a slots) = fill p (a.mapLiterals f) (mapSlots f slots) := by
  induction slots with
  | nil => rfl
  | cons slot rest ih =>
      obtain ⟨name, tree⟩ := slot
      rw [fill, mapSlots, fill]
      split
      · rfl
      · split
        · rfl
        · rw [mapSlots, ih]

/-- Literals may be replaced before or after the slots are filled. -/
theorem mapSlots_slots :
    mapSlots f (slots filled) = slots (filled.map fun pair => (pair.1, pair.2.mapLiterals f)) := by
  suffices hall : ∀ start,
      mapSlots f (filled.foldl (fun slots pair => fill pair.1 pair.2 slots) start) =
        (filled.map fun pair => (pair.1, pair.2.mapLiterals f)).foldl
          (fun slots pair => fill pair.1 pair.2 slots) (mapSlots f start) from hall []
  induction filled with
  | nil => intro start; rfl
  | cons slot rest ih =>
      intro start
      rw [List.foldl_cons, ih, mapSlots_fill]
      rfl

mutual

/-- Literals that stay as they are leave the tree as it is. -/
theorem mapLiterals_eq_self : ∀ {tree : NodeTree},
    (∀ literal ∈ tree.literals, f literal = literal) → tree.mapLiterals f = tree
  | ⟨variant, own, arguments⟩, h => by
      have hown : own.map f = own := by
        cases own with
        | none => rfl
        | some literal => rw [Option.map_some, h literal (by simp [literals])]
      rw [mapLiterals, hown, mapSlots_eq_self fun literal hl => h literal (by simp [literals, hl])]

theorem mapSlots_eq_self : ∀ {slots : List (String × NodeTree)},
    (∀ literal ∈ slotLiterals slots, f literal = literal) → mapSlots f slots = slots
  | [], _ => rfl
  | (param, tree) :: rest, h => by
      rw [mapSlots, mapLiterals_eq_self fun literal hl => h literal (by simp [slotLiterals, hl]),
        mapSlots_eq_self fun literal hl => h literal (by simp [slotLiterals, hl])]

end

end NodeTree

end Rulebook
