import Rulebook.Proofs.Forest.Extends
import Rulebook.Proofs.Interchange.Grafting

/-!
# Nodes at their paths

Somewhere in the middle of a text, what was read so far is a list of nodes, each
at its path. A node *fits* if nothing is at its path yet and the path leads to a
slot of its type. `Built` is what reading has made of the list: the nodes are
numbered in the order in which they were read, each is found at its path, and
its slots hold exactly those that stand one step below it.

A place is open for a node if and only if the node fits, and then one more node
is built.
-/

namespace Rulebook

/-- A node as a text describes it. -/
structure Placing where
  path : Path
  variant : Variant
  literal : Option Literal

/-- The path is free, and it leads to a slot of the right type of a node that came earlier. -/
structure Placing.Fits (placing : Placing) (earlier : List Placing) : Prop where
  vacant : ∀ other ∈ earlier, other.path ≠ placing.path
  slot : ∀ above param, placing.path = above ++ [param] →
    ∃ holder ∈ earlier, holder.path = above ∧
      ∃ slot, holder.variant.param? param = some slot ∧ slot.type = placing.variant.result

/-- Each node fits after the earlier ones and those before it. -/
def Fitting : (earlier placings : List Placing) → Prop
  | _, [] => True
  | earlier, placing :: rest => placing.Fits earlier ∧ Fitting (earlier ++ [placing]) rest

/-- The first node that fits is the root. -/
theorem Fitting.root {first : Placing} {rest : List Placing} (h : Fitting [] (first :: rest)) :
    first.path = [] := by
  rcases List.eq_nil_or_concat first.path with hnil | ⟨above, param, hpath⟩
  · exact hnil
  · obtain ⟨_, hm, _⟩ := h.1.slot above param (by rw [hpath, List.concat_eq_append])
    exact absurd hm (by simp)

/-- The number of the node at a path, if numbers are given out in order from `first` on. -/
def numberAt (first : Nat) (placings : List Placing) (path : Path) : Option NodeId :=
  (placings.findIdx? fun placing => placing.path == path).map fun index => ⟨first + index⟩

section numberAt

variable {first index : Nat} {placings : List Placing} {placing : Placing} {path : Path}
  {id : NodeId}

theorem numberAt_eq_none :
    numberAt first placings path = none ↔ ∀ placing ∈ placings, placing.path ≠ path := by
  rw [numberAt, Option.map_eq_none_iff, List.findIdx?_eq_none_iff]
  simp only [beq_eq_false_iff_ne]

theorem numberAt_append :
    numberAt first (placings ++ [placing]) path =
      (numberAt first placings path).or
        (if placing.path = path then some ⟨first + placings.length⟩ else none) := by
  rw [numberAt, numberAt, List.findIdx?_append, List.findIdx?_singleton]
  cases placings.findIdx? fun placing => placing.path == path with
  | some index => rfl
  | none =>
      by_cases h : placing.path = path
      · simp [h]
      · simp [h]

theorem numberAt_some (h : numberAt first placings path = some id) :
    ∃ index placing, placings[index]? = some placing ∧ placing.path = path ∧
      id = ⟨first + index⟩ := by
  obtain ⟨index, hi, rfl⟩ := Option.map_eq_some_iff.mp h
  obtain ⟨hlt, hp, _⟩ := List.findIdx?_eq_some_iff_getElem.mp hi
  exact ⟨index, _, List.getElem?_eq_getElem hlt, by simpa using hp, rfl⟩

/-- Where no path occurs twice, every node is found at its path. -/
theorem numberAt_getElem? (hn : (placings.map Placing.path).Nodup)
    (h : placings[index]? = some placing) :
    numberAt first placings placing.path = some ⟨first + index⟩ := by
  cases hx : numberAt first placings placing.path with
  | none =>
      exact absurd rfl (numberAt_eq_none.mp hx placing (List.mem_of_getElem? h))
  | some id =>
      obtain ⟨other, found, ho, he, rfl⟩ := numberAt_some hx
      have hpath : (placings.map Placing.path)[index]? = (placings.map Placing.path)[other]? := by
        rw [List.getElem?_map, List.getElem?_map, h, ho, Option.map_some, Option.map_some, he]
      have hlt : index < (placings.map Placing.path).length := by
        rw [List.length_map]
        exact (List.getElem?_eq_some_iff.mp h).1
      rw [(List.getElem?_inj hlt hn).mp hpath]

end numberAt

/-- The number of the next node goes up by one. -/
theorem nextId_grownForest {progress : Progress} {path : Path} {variant : Variant}
    {literal : Option Literal} :
    (progress.grownForest path variant literal).nextId = progress.forest.nextId + 1 := by
  unfold Progress.grownForest
  split
  · rfl
  · split
    · rfl
    · rfl

/-- The node is the one that was described, with the others in its slots. -/
structure Node.Embodies (node : Node) (placing : Placing) (places : Places) : Prop where
  variant : node.variant = placing.variant.id
  literal : node.literal = placing.literal
  free : placing.path = [] → node.owner = .detached
  slots : ∀ param, node.argument? param = places.find? (placing.path ++ [param])

/-- What reading has made of the nodes that were described so far. -/
structure Built (registry : Registry) (start : Forest) (placings : List Placing)
    (progress : Progress) : Prop where
  beside : start.Extends progress.forest
  next : progress.forest.nextId = start.nextId + placings.length
  idle : progress.pending = none
  root : progress.root = progress.placed.find? []
  placed : ∀ path, progress.placed.find? path = numberAt start.nextId placings path
  distinct : (placings.map Placing.path).Nodup
  /-- Above every node is one that came earlier. -/
  closed : ∀ placing ∈ placings, ∀ above param, placing.path = above ++ [param] →
    ∃ holder ∈ placings, holder.path = above
  known : ∀ placing ∈ placings, registry.get? placing.variant.id = some placing.variant
  node : ∀ {index : Nat} {placing : Placing}, placings[index]? = some placing →
    ∃ node, progress.forest.get? ⟨start.nextId + index⟩ = some node ∧
      node.Embodies placing progress.placed

theorem built_start {registry : Registry} {start : Forest} (h : Forest.Linked start) :
    Built registry start [] { forest := start } where
  beside := .refl h
  next := rfl
  idle := rfl
  root := (Places.find?_empty []).symm
  placed := fun path => Places.find?_empty path
  distinct := List.nodup_nil
  closed := by simp
  known := by simp
  node := by simp

namespace Built

variable {registry : Registry} {start : Forest} {placings : List Placing} {progress : Progress}
  {placing : Placing} {path : Path}

/-- Below a path without a node there are no nodes. -/
theorem vacant_below (h : Built registry start placings progress)
    (hv : ∀ other ∈ placings, other.path ≠ path) (long : Path) (hpre : path <+: long) :
    progress.placed.find? long = none := by
  obtain ⟨rest, rfl⟩ := hpre
  rw [h.placed, numberAt_eq_none]
  induction rest using List.reverseRecOn with
  | nil =>
      rw [List.append_nil]
      exact hv
  | append_singleton rest name ih =>
      intro other ho he
      rw [← List.append_assoc] at he
      obtain ⟨holder, hh, hpath⟩ := h.closed other ho _ _ he
      exact ih holder hh hpath

/-- A node that fits finds its place open. -/
theorem isOpen (h : Built registry start placings progress) (hf : placing.Fits placings) :
    Open registry progress placing.path placing.variant.result := by
  refine ⟨h.beside.linked, h.idle, h.vacant_below hf.vacant, fun above param hs => ?_⟩
  have hpath : placing.path = above ++ [param] := Path.split?_eq_some.mp hs
  obtain ⟨holder, hm, rfl, slot, hslot, ht⟩ := hf.slot above param hpath
  obtain ⟨index, hi⟩ := List.mem_iff_getElem?.mp hm
  obtain ⟨node, hn, he⟩ := h.node hi
  refine ⟨_, node, holder.variant, slot, ?_, hn, ?_, hslot, ht, ?_⟩
  · rw [h.placed, numberAt_getElem? h.distinct hi]
  · rw [he.variant]
    exact h.known holder hm
  · rw [he.slots, ← hpath, h.placed, numberAt_eq_none]
    exact hf.vacant

/-- Where the place is open, the node fits. -/
theorem fits_of_open (h : Built registry start placings progress)
    (ho : Open registry progress placing.path placing.variant.result) : placing.Fits placings where
  vacant := by
    have hnone := ho.vacant placing.path List.prefix_rfl
    rw [h.placed, numberAt_eq_none] at hnone
    exact hnone
  slot := by
    intro above param hpath
    have hs : placing.path.split? = some (above, param) := Path.split?_eq_some.mpr hpath
    obtain ⟨parent, node, variant, slot, hf, hn, hv, hslot, ht, _⟩ := ho.slot above param hs
    rw [h.placed] at hf
    obtain ⟨index, holder, hi, rfl, rfl⟩ := numberAt_some hf
    obtain ⟨node', hn', he⟩ := h.node hi
    rw [hn] at hn'
    cases hn'
    -- the holder at the path was placed, and its node is of the variant it was placed as
    have hm := List.mem_of_getElem? hi
    rw [he.variant, h.known holder hm] at hv
    cases hv
    exact ⟨holder, hm, rfl, slot, hslot, ht⟩

/-- Every node but the new one was there before. -/
theorem getElem?_append_single {index : Nat} {other : Placing}
    (hi : (placings ++ [placing])[index]? = some other) :
    placings[index]? = some other ∨ (index = placings.length ∧ other = placing) := by
  by_cases hlt : index < placings.length
  · rw [List.getElem?_append_left hlt] at hi
    exact Or.inl hi
  · rw [List.getElem?_append_right (Nat.le_of_not_lt hlt)] at hi
    have hzero := (List.getElem?_eq_some_iff.mp hi).1
    rw [List.length_singleton] at hzero
    have he : index = placings.length := by omega
    rw [he, Nat.sub_self] at hi
    exact Or.inr ⟨he, (Option.some.inj hi).symm⟩

/-- The new forest still leaves the old nodes alone. -/
theorem beside_grown (h : Built registry start placings progress) (hs : Forest.Linked start)
    (ho : Open registry progress path placing.variant.result) (literal : Option Literal) :
    start.Extends (progress.grownForest path placing.variant literal) := by
  have hplant := h.beside.plant placing.variant literal
  cases hsplit : path.split? with
  | none =>
      rw [grownForest_root hsplit]
      exact hplant
  | some place =>
      obtain ⟨above, param⟩ := place
      obtain ⟨parent, node, holder, slot, hf, hp, hv, hslot, ht, ha⟩ := ho.slot above param hsplit
      have hnew : start.nextId ≤ parent.raw := by
        rw [h.placed] at hf
        obtain ⟨index, _, _, _, rfl⟩ := numberAt_some hf
        exact Nat.le_add_right _ _
      -- the edit that fills the slot touches only nodes that are new
      have hset : start.Extends ((Forest.setArgument registry parent param progress.nextNode).runOn
          (progress.forest.plant placing.variant literal)).2 :=
        hplant.setArgument hs hnew h.beside.later
      rw [Progress.nextNode, Reading.setArgument_planted ho.linked hp hv hslot ht ha] at hset
      rw [grownForest_slot hsplit hf]
      exact hset

theorem placed_grown (h : Built registry start placings progress) (hf : placing.Fits placings)
    (other : Path) :
    (progress.grow placing.path placing.variant placing.literal).placed.find? other
      = numberAt start.nextId (placings ++ [placing]) other := by
  have hput := Places.find?_put ⟨progress.forest.nextId⟩ placing.path other progress.placed
  rw [numberAt_append, ← h.next]
  refine hput.trans ?_
  by_cases he : other = placing.path
  · have hnone : numberAt start.nextId placings other = none :=
      numberAt_eq_none.mpr (he ▸ hf.vacant)
    rw [if_pos he, if_pos he.symm, hnone]
    rfl
  · rw [if_neg he, if_neg fun heq => he heq.symm, h.placed]
    exact (Option.or_none).symm

/-- A node that was there has the new one in the slot that the path leads to, if it is its own. -/
theorem embodies_old (h : Built registry start placings progress) (hf : placing.Fits placings)
    {index : Nat} {other : Placing} (hi : placings[index]? = some other) :
    ∃ node, (progress.grownForest placing.path placing.variant placing.literal).get?
        ⟨start.nextId + index⟩ = some node ∧
      node.Embodies other
        (progress.grow placing.path placing.variant placing.literal).placed := by
  have ho := h.isOpen hf
  obtain ⟨node, hn, he⟩ := h.node hi
  have hhere : progress.placed.find? other.path = some ⟨start.nextId + index⟩ := by
    rw [h.placed, numberAt_getElem? h.distinct hi]
  have hput := fun name : String =>
    Places.find?_put ⟨progress.forest.nextId⟩ placing.path (other.path ++ [name]) progress.placed
  by_cases hbelow : ∃ param, placing.path = other.path ++ [param]
  · obtain ⟨param, hpath⟩ := hbelow
    have hempty : node.argument? param = none := by
      rw [he.slots, ← hpath, h.placed, numberAt_eq_none]
      exact hf.vacant
    refine ⟨_, grown_holder ho (Path.split?_eq_some.mpr hpath) hhere hn,
      he.variant, he.literal, he.free, fun name => ?_⟩
    refine Eq.trans ?_ (hput name).symm
    rw [Node.argument?_fill hempty, he.slots, hpath]
    by_cases hname : name = param
    · rw [if_pos hname, if_pos (by rw [hname])]
      rfl
    · rw [if_neg hname, if_neg fun heq => hname (by simpa using heq)]
  · have hkeep : (progress.grownForest placing.path placing.variant placing.literal).get?
        ⟨start.nextId + index⟩ = some node := by
      refine grown_old ho hn fun above param hs hfind => hbelow ⟨param, ?_⟩
      -- no other path leads to the same node
      rw [h.placed] at hfind
      obtain ⟨j, holder, hj, rfl, hid⟩ := numberAt_some hfind
      have hij : index = j := by simpa using hid
      rw [← hij, hi] at hj
      cases hj
      exact Path.split?_eq_some.mp hs
    refine ⟨node, hkeep, he.variant, he.literal, he.free, fun name => ?_⟩
    refine Eq.trans (he.slots name) ((hput name).trans (if_neg fun heq => ?_)).symm
    exact hbelow ⟨name, heq.symm⟩

/-- The new node has all its slots empty. -/
theorem embodies_new (h : Built registry start placings progress) (hf : placing.Fits placings) :
    ∃ node, (progress.grownForest placing.path placing.variant placing.literal).get?
        ⟨start.nextId + placings.length⟩ = some node ∧
      node.Embodies placing
        (progress.grow placing.path placing.variant placing.literal).placed := by
  obtain ⟨node, hn, hvar, hlit, ha, hfree⟩ : ∃ new,
      (progress.grownForest placing.path placing.variant placing.literal).get? progress.nextNode
          = some new ∧ new.variant = placing.variant.id ∧ new.literal = placing.literal ∧
        new.arguments = [] ∧ (placing.path = [] → new.owner = .detached) :=
    exists_grown (h.isOpen hf)
  rw [← h.next]
  refine ⟨node, hn, hvar, hlit, hfree, fun param => ?_⟩
  have hput := Places.find?_put ⟨progress.forest.nextId⟩ placing.path (placing.path ++ [param])
    progress.placed
  -- the node is new, so its slots are empty and nothing is placed below its path
  have hnone : node.argument? param = none := by
    rw [Node.argument?, ha]
    rfl
  rw [hnone]
  refine Eq.trans ?_ hput.symm
  rw [if_neg (by simp)]
  exact (h.vacant_below hf.vacant _ (List.prefix_append _ _)).symm

/-- **One more node that fits is one more node built.** -/
theorem grow (h : Built registry start placings progress) (hs : Forest.Linked start)
    (hf : placing.Fits placings) (hv : registry.get? placing.variant.id = some placing.variant) :
    Built registry start (placings ++ [placing])
      (progress.grow placing.path placing.variant placing.literal) where
  beside := h.beside_grown hs (h.isOpen hf) placing.literal
  next := by
    rw [List.length_append, List.length_singleton, ← Nat.add_assoc, ← h.next]
    exact nextId_grownForest
  idle := rfl
  root := by
    have hput := Places.find?_put ⟨progress.forest.nextId⟩ placing.path [] progress.placed
    refine Eq.trans ?_ hput.symm
    show (if placing.path.isEmpty then _ else progress.root) = _
    rw [h.root]
    cases placing.path with
    | nil => rfl
    | cons name rest => rfl
  placed := h.placed_grown hf
  distinct := by
    rw [List.map_append, List.map_singleton, ← List.concat_eq_append]
    refine List.Nodup.concat (fun hm => ?_) h.distinct
    obtain ⟨other, ho, he⟩ := List.mem_map.mp hm
    exact hf.vacant other ho he
  closed := by
    intro other ho above param hpath
    rcases List.mem_append.mp ho with ho | ho
    · obtain ⟨holder, hh, he⟩ := h.closed other ho above param hpath
      exact ⟨holder, List.mem_append_left _ hh, he⟩
    · rw [List.mem_singleton.mp ho] at hpath
      obtain ⟨holder, hh, he, _⟩ := hf.slot above param hpath
      exact ⟨holder, List.mem_append_left _ hh, he⟩
  known := by
    intro other ho
    rcases List.mem_append.mp ho with ho | ho
    · exact h.known other ho
    · rw [List.mem_singleton.mp ho]
      exact hv
  node := by
    intro index other hi
    -- the last number is that of the new node, and the others are as before
    rcases getElem?_append_single hi with hi | ⟨rfl, rfl⟩
    · exact h.embodies_old hf hi
    · exact h.embodies_new hf

end Built

end Rulebook
