import Mathlib.Data.List.Perm.Subperm
import Rulebook.Proofs.Interchange.LiteralText
import Rulebook.Proofs.Scenario.Ownership
import Rulebook.Proofs.Scenario.Regions
import Rulebook.Proofs.Snapshot.Format
import Rulebook.Snapshot

/-!
# A snapshot holds the whole script

A script that requests lead to is read back from its snapshot as it was, in
whatever order the nodes were written and whatever follows the snapshot; and a
snapshot that ends too soon is refused.

What is written must fit its place. That numbers do, and that lists are not too
long, follows from how scripts are made: numbers in use lie below the next one,
and nothing is listed twice. Texts, and numbers of regions that literals name,
come from outside. A machine has no longer or larger ones, and that is what
`Storable` says.
-/

namespace Rulebook

open Format

/-! ## What a machine can hold -/

/-- The bytes of the text can be counted in 64 bits. -/
def Countable (text : String) : Prop := text.utf8ByteSize < 2 ^ 64

/-- The text or number of the literal is one that a machine can hold. -/
def Literal.Storable : Literal → Prop
  | .text value => Countable value
  | .block key | .item key => Countable key.text
  | .region id => id.raw < limit32
  | .int _ | .bool _ | .comparator _ | .damageType _ => True

/-- The texts of the node, and what its literal holds, are such as a machine can hold. -/
structure Node.Storable (node : Node) : Prop where
  variant : Countable node.variant
  literal : ∀ literal ∈ node.literal, literal.Storable
  slots : ∀ binding ∈ node.arguments, Countable binding.param

/-- So are those of the script. -/
structure Scenario.Storable (scenario : Scenario) : Prop where
  name : Countable scenario.name
  nodes : ∀ row ∈ scenario.forest.nodes.toList, row.2.Storable
  triggers : ∀ trigger ∈ scenario.triggers, Countable trigger.name
  regions : ∀ region ∈ scenario.regions, Countable region.name

instance decidableCountable (text : String) : Decidable (Countable text) :=
  inferInstanceAs (Decidable (_ < _))

instance Literal.decidableStorable : (literal : Literal) → Decidable literal.Storable
  | .text value => inferInstanceAs (Decidable (Countable value))
  | .block key | .item key => inferInstanceAs (Decidable (Countable key.text))
  | .region id => inferInstanceAs (Decidable (id.raw < limit32))
  | .int _ | .bool _ | .comparator _ | .damageType _ => .isTrue trivial

instance Node.decidableStorable (node : Node) : Decidable node.Storable :=
  decidable_of_iff
    (Countable node.variant ∧ (∀ literal ∈ node.literal, literal.Storable) ∧
      ∀ binding ∈ node.arguments, Countable binding.param)
    ⟨fun ⟨hv, hl, hs⟩ => ⟨hv, hl, hs⟩, fun h => ⟨h.variant, h.literal, h.slots⟩⟩

instance Scenario.decidableStorable (scenario : Scenario) : Decidable scenario.Storable :=
  decidable_of_iff
    (Countable scenario.name ∧ (∀ row ∈ scenario.forest.nodes.toList, row.2.Storable) ∧
      (∀ trigger ∈ scenario.triggers, Countable trigger.name) ∧
      ∀ region ∈ scenario.regions, Countable region.name)
    ⟨fun ⟨hs, hn, ht, hr⟩ => ⟨hs, hn, ht, hr⟩, fun h => ⟨h.name, h.nodes, h.triggers, h.regions⟩⟩

namespace Snapshot

variable {α : Type}

/-! ## The parts of a script -/

theorem restores_nodeId {id : NodeId} (h : id.raw < limit32) : nodeId.Restores id :=
  restores_map (restores_nat h) rfl

theorem restores_triggerId {id : TriggerId} (h : id.raw < limit32) : triggerId.Restores id :=
  restores_map (restores_nat h) rfl

theorem restores_regionId {id : RegionId} (h : id.raw < limit32) : regionId.Restores id :=
  restores_map (restores_nat h) rfl

theorem restores_integer (n : Int64) : integer.Restores n :=
  restores_map (restores_nat n.toUInt64.toNat_lt) (by simp)

theorem restores_key {k : ResourceKey} (h : Countable k.text) : key.Restores k :=
  restores_convert (restores_text h) (ResourceKey.parse?_text k)

theorem restores_literal {l : Literal} (h : l.Storable) : literal.Restores l := by
  cases l with
  | int value =>
      exact restores_branches Literal.int 0 (restores_integer value) rfl rfl (by simp) (by decide)
  | text value =>
      exact restores_branches Literal.text 1 (restores_text h) rfl rfl (by simp [Branch.of])
        (by decide)
  | bool value =>
      exact restores_branches Literal.bool 2 (restores_bool value) rfl rfl (by simp [Branch.of])
        (by decide)
  | comparator value =>
      exact restores_branches Literal.comparator 3
        (restores_among (by cases value <;> decide) (by decide)) rfl rfl (by simp [Branch.of])
        (by decide)
  | damageType value =>
      exact restores_branches Literal.damageType 4
        (restores_among (by cases value <;> decide) (by decide)) rfl rfl (by simp [Branch.of])
        (by decide)
  | block key =>
      exact restores_branches Literal.block 5 (restores_key h) rfl rfl (by simp [Branch.of])
        (by decide)
  | item key =>
      exact restores_branches Literal.item 6 (restores_key h) rfl rfl (by simp [Branch.of])
        (by decide)
  | region id =>
      exact restores_branches Literal.region 7 (restores_regionId h) rfl rfl (by simp [Branch.of])
        (by decide)

theorem restores_owner {o : Owner} (hn : ∀ parent, o = .argument parent → parent.raw < limit32)
    (ht : ∀ t, o = .trigger t → t.raw < limit32) : owner.Restores o := by
  cases o with
  | detached =>
      exact restores_branches (fun _ => Owner.detached) 0 restores_nothing rfl rfl (by simp)
        (by decide)
  | argument parent =>
      exact restores_branches Owner.argument 1 (restores_nodeId (hn parent rfl)) rfl rfl
        (by simp [Branch.of]) (by decide)
  | trigger t =>
      exact restores_branches Owner.trigger 2 (restores_triggerId (ht t rfl)) rfl rfl
        (by simp [Branch.of]) (by decide)

theorem restores_point (p : Point) : point.Restores p := by
  have hc : ∀ c : Coordinate, coordinate.Restores c := fun c =>
    restores_map (restores_nat c.bits.toNat_lt) (by simp)
  exact restores_map (restores_pair (hc _) (restores_pair (hc _) (hc _))) rfl

theorem restores_bounds (box : Bounds) : bounds.Restores box :=
  restores_map (restores_pair (restores_point _) (restores_point _)) rfl

/-- The number that the first bytes of an identifier make. -/
theorem ofBytes_take (id : Uuid) (k : Nat) (h : k ≤ 16) :
    ((List.range k).map fun i => UInt8.ofNat (id.value.toNat >>> (8 * (15 - i)))).foldl
        (fun acc b => 256 * acc + b.toNat) 0
      = id.value.toNat >>> (8 * (16 - k)) := by
  induction k with
  | zero =>
      have hlt := id.value.isLt
      simp only [List.range_zero, List.map_nil, List.foldl_nil, Nat.shiftRight_eq_div_pow]
      omega
  | succ k ih =>
      rw [List.range_succ, List.map_append, List.foldl_append, ih (by omega)]
      -- a step shifts by one byte less and puts that byte at the end
      have hstep : 8 * (16 - k) = 8 * (15 - k) + 8 := by omega
      have hthis : 8 * (16 - (k + 1)) = 8 * (15 - k) := by omega
      rw [hstep, hthis, Nat.shiftRight_add]
      simp only [List.map_cons, List.map_nil, List.foldl_cons, List.foldl_nil,
        UInt8.toNat_ofNat', Nat.shiftRight_eq_div_pow]
      omega

theorem restores_uuid (id : Uuid) : uuid.Restores id := by
  have hlen : id.bytes.length = 16 := by simp [Uuid.bytes]
  refine restores_convert (restores_bytes (by simp [hlen])) ?_
  rw [if_pos hlen, Uuid.ofBytes, Uuid.bytes, ofBytes_take id 16 (Nat.le_refl 16)]
  simp

theorem restores_region {r : Region} (hid : r.id.raw < limit32) (hname : Countable r.name) :
    region.Restores r :=
  restores_map
    (restores_pair (restores_regionId hid) <| restores_pair (restores_text hname) <|
      restores_pair (restores_option fun id _ => restores_uuid id) (restores_bounds r.bounds))
    rfl

/-! ## Lists and rows

A list can be counted in 64 bits because what it lists has numbers of 32 bits, and nothing is
listed twice. -/

theorem restores_numbered {format : Format α} {values : List α} (number : α → Nat)
    (hd : (values.map number).Nodup) (hlt : ∀ a ∈ values, number a < limit32)
    (h : ∀ a ∈ values, format.Restores a) : format.list.Restores values := by
  refine restores_list ?_ h
  have hsub : values.map number ⊆ List.range limit32 := by
    intro n hn
    obtain ⟨a, ha, rfl⟩ := List.mem_map.mp hn
    exact List.mem_range.mpr (hlt a ha)
  have hle := (List.subperm_of_subset hd hsub).length_le
  rw [List.length_map, List.length_range] at hle
  exact Nat.lt_of_le_of_lt hle (by decide)

theorem nodeId_injective : Function.Injective NodeId.raw := fun a b h => by
  cases a; cases b; cases h; rfl

theorem triggerId_injective : Function.Injective TriggerId.raw := fun a b h => by
  cases a; cases b; cases h; rfl

theorem regionId_injective : Function.Injective RegionId.raw := fun a b h => by
  cases a; cases b; cases h; rfl

section Rows

variable {nodes : Std.ExtTreeMap NodeId Node} {rows : List (NodeId × Node)}

theorem distinct_of_perm (h : rows.Perm nodes.toList) :
    rows.Pairwise fun a b => ¬compare a.1 b.1 = .eq :=
  (h.pairwise_iff fun hab hba => hab (Std.OrientedCmp.eq_symm hba)).mpr
    Std.ExtTreeMap.distinct_keys_toList

/-- The rows of a map, in any order, make the map. -/
theorem ofList_eq_of_perm (h : rows.Perm nodes.toList) :
    Std.ExtTreeMap.ofList rows compare = nodes := by
  refine Std.ExtTreeMap.ext_getElem? fun id => ?_
  cases hn : nodes[id]? with
  | some node =>
      have hrow : (id, node) ∈ rows :=
        h.mem_iff.mpr (Std.ExtTreeMap.mem_toList_iff_getElem?_eq_some.mpr hn)
      exact Std.ExtTreeMap.getElem?_ofList_of_mem Std.ReflCmp.compare_self (distinct_of_perm h) hrow
  | none =>
      refine Std.ExtTreeMap.getElem?_ofList_of_contains_eq_false ?_
      rw [Bool.eq_false_iff, ne_eq, List.contains_iff_mem]
      intro hm
      obtain ⟨⟨_, node⟩, hrow, rfl⟩ := List.mem_map.mp hm
      have hsome := Std.ExtTreeMap.mem_toList_iff_getElem?_eq_some.mp (h.mem_iff.mp hrow)
      rw [hn] at hsome
      exact absurd hsome (by simp)

end Rows

/-! ## Scripts -/

section Scripts

variable {s : Scenario}

theorem restores_binding {b : Binding} (hp : Countable b.param) (hc : b.child.raw < limit32) :
    binding.Restores b :=
  restores_map (restores_pair (restores_text hp) (restores_nodeId hc)) rfl

theorem restores_node (h : Scenario.Owned s) (hr : s.InRange) {id : NodeId} {n : Node}
    (hn : s.forest.get? id = some n) (hstore : n.Storable) : node.Restores n := by
  have hid : ∀ {id n}, s.forest.get? id = some n → id.raw < limit32 := fun hn =>
    Nat.lt_trans (h.linked.used hn) hr.nodes
  -- a child is a node too, so its number is in range
  have hchild : ∀ child ∈ n.children, child.raw < limit32 := by
    intro child hc
    obtain ⟨inner, hi, _⟩ := h.linked.down hn hc
    exact hid hi
  have harguments : (list binding).Restores n.arguments := by
    have hlt : ∀ b ∈ n.arguments, b.child.raw < limit32 := fun b hb =>
      hchild _ (Node.mem_children.mpr ⟨b, hb, rfl⟩)
    have hnodup := (h.linked.nodup hn).map nodeId_injective
    rw [Node.children, List.map_map] at hnodup
    exact restores_numbered _ hnodup hlt fun b hb => restores_binding (hstore.slots b hb) (hlt b hb)
  have howner : owner.Restores n.owner := by
    refine restores_owner (fun parent ho => ?_) fun t ho => ?_
    · -- an owner is there, be it a node or a trigger
      obtain ⟨holder, hp, _⟩ := h.linked.up hn ho
      exact hid hp
    · obtain ⟨trigger, ht, he, _⟩ := h.exists_of_heldBy ⟨n, hn, ho⟩
      rw [← he]
      exact Nat.lt_trans (h.used trigger ht) hr.triggers
  have hkind : n.kind ∈ NodeKind.all := by cases n.kind <;> decide
  have hresult : n.result ∈ ValueType.all := by cases n.result <;> decide
  have hself : n.id.raw < limit32 := by
    rw [h.linked.key hn]
    exact hid hn
  exact restores_map (restores_pair (restores_nodeId hself) <|
    restores_pair (restores_text hstore.variant) <|
    restores_pair (restores_among hkind (by decide)) <|
    restores_pair (restores_among hresult (by decide)) <|
    restores_pair (restores_option fun l hl => restores_literal (hstore.literal l hl)) <|
    restores_pair harguments howner) rfl

theorem restores_forest (h : Scenario.Owned s) (hr : s.InRange) (hstore : s.Storable)
    {order : Forest → List (NodeId × Node)}
    (ho : (order s.forest).Perm s.forest.nodes.toList) :
    (forest order).Restores s.forest := by
  have hrow : ∀ row ∈ order s.forest, s.forest.get? row.1 = some row.2 := fun row hm =>
    Std.ExtTreeMap.mem_toList_iff_getElem?_eq_some.mp (ho.mem_iff.mp hm)
  have hid : ∀ row ∈ order s.forest, row.1.raw < limit32 := fun row hm =>
    Nat.lt_trans (h.linked.used (hrow row hm)) hr.nodes
  have hnodup : ((order s.forest).map fun row => row.1.raw).Nodup := by
    refine List.pairwise_map.mpr ((distinct_of_perm ho).imp fun hne he => hne ?_)
    rw [nodeId_injective he]
    exact Std.ReflCmp.compare_self
  -- no two rows have one key, so a reader that checks for this takes them all
  have hrows : (list (nodeId.pair node)).Restores (order s.forest) :=
    restores_numbered _ hnodup hid fun row hm => restores_pair (restores_nodeId (hid row hm))
      (restores_node h hr (hrow row hm) (hstore.nodes row (ho.mem_iff.mp hm)))
  refine restores_map (restores_pair hrows (restores_nat hr.nodes)) ?_
  show Forest.mk (.ofList (order s.forest)) s.forest.nextId = s.forest
  rw [ofList_eq_of_perm ho]

theorem restores_trigger (h : Scenario.Owned s) (hr : s.InRange) {t : Trigger}
    (ht : t ∈ s.triggers) (hname : Countable t.name) : trigger.Restores t := by
  have hroots : ∀ clause, (list nodeId).Restores (t.roots clause) := by
    intro clause
    have honce := h.once
    rw [Scenario.map_root_listings, List.nodup_flatMap] at honce
    have hall := honce.1 t ht
    rw [Trigger.allRoots, List.nodup_flatMap] at hall
    -- a root is listed once in all, and so once in this list
    have hnodup : (t.roots clause).Nodup := hall.1 clause (by cases clause <;> decide)
    have hlt : ∀ root ∈ t.roots clause, root.raw < limit32 := by
      intro root hm
      obtain ⟨n, hn, _⟩ := h.heldBy_of_mem ht (Trigger.mem_allRoots.mpr ⟨clause, hm⟩)
      exact Nat.lt_trans (h.linked.used hn) hr.nodes
    exact restores_numbered _ (hnodup.map nodeId_injective) hlt fun root hm =>
      restores_nodeId (hlt root hm)
  have hself : t.id.raw < limit32 := Nat.lt_trans (h.used t ht) hr.triggers
  exact restores_map (restores_pair (restores_triggerId hself) <|
    restores_pair (restores_text hname) <| restores_pair (restores_bool t.enabled) <|
    restores_pair (hroots .events) <| restores_pair (hroots .conditions) (hroots .actions)) rfl

theorem restores_scenario (h : Scenario.Owned s) (hv : Scenario.Surveyed s) (hr : s.InRange)
    (hstore : s.Storable) {order : Forest → List (NodeId × Node)}
    (ho : (order s.forest).Perm s.forest.nodes.toList) : (scenario order).Restores s := by
  have htriggers : (list trigger).Restores s.triggers := by
    have hnodup := h.ids.map triggerId_injective
    rw [List.map_map] at hnodup
    exact restores_numbered _ hnodup (fun t ht => Nat.lt_trans (h.used t ht) hr.triggers)
      fun t ht => restores_trigger h hr ht (hstore.triggers t ht)
  have hregions : (list region).Restores s.regions := by
    have hnodup := hv.ids.map regionId_injective
    rw [List.map_map] at hnodup
    have hlt : ∀ r ∈ s.regions, r.id.raw < limit32 := fun r hm =>
      Nat.lt_trans (hv.used r hm) hr.regions
    exact restores_numbered _ hnodup hlt fun r hm =>
      restores_region (hlt r hm) (hstore.regions r hm)
  exact restores_map (restores_pair (restores_text hstore.name) <|
    restores_pair (restores_forest h hr hstore ho) <| restores_pair htriggers <|
    restores_pair hregions <| restores_pair (restores_nat hr.triggers)
      (restores_nat hr.regions)) rfl

end Scripts

/-! ## Reading in general -/

theorem frugal_nodeId : Frugal nodeId.read := frugal_map _ (frugal_nat 4)

theorem frugal_literal : Frugal literal.read := by
  have hkey : Frugal key.read := frugal_convert _ frugal_text
  have hregion : Frugal regionId.read := frugal_map _ (frugal_nat 4)
  refine frugal_branches ?_
  simp only [List.forall_mem_cons]
  exact ⟨frugal_branch (frugal_map _ (frugal_nat 8)), frugal_branch frugal_text,
    frugal_branch frugal_bool, frugal_branch (frugal_among _), frugal_branch (frugal_among _),
    frugal_branch hkey, frugal_branch hkey, frugal_branch hregion, by simp⟩

theorem frugal_owner : Frugal owner.read := by
  have htrigger : Frugal triggerId.read := frugal_map _ (frugal_nat 4)
  refine frugal_branches ?_
  simp only [List.forall_mem_cons]
  exact ⟨frugal_branch frugal_nothing, frugal_branch frugal_nodeId, frugal_branch htrigger,
    by simp⟩

theorem frugal_node : Frugal node.read :=
  frugal_map _ <| frugal_pair frugal_nodeId <| frugal_pair frugal_text <|
    frugal_pair (frugal_among _) <| frugal_pair (frugal_among _) <|
    frugal_pair (frugal_option frugal_literal) <|
    frugal_pair (frugal_list (frugal_map _ (frugal_pair frugal_text frugal_nodeId))) frugal_owner

theorem frugal_trigger : Frugal trigger.read :=
  frugal_map _ <| frugal_pair (frugal_map _ (frugal_nat 4)) <| frugal_pair frugal_text <|
    frugal_pair frugal_bool <| frugal_pair (frugal_list frugal_nodeId) <|
    frugal_pair (frugal_list frugal_nodeId) (frugal_list frugal_nodeId)

theorem frugal_region : Frugal region.read := by
  have hcoordinate : Frugal coordinate.read := frugal_map _ (frugal_nat 8)
  have hpoint : Frugal point.read :=
    frugal_map _ (frugal_pair hcoordinate (frugal_pair hcoordinate hcoordinate))
  exact frugal_map _ <| frugal_pair (frugal_map _ (frugal_nat 4)) <| frugal_pair frugal_text <|
    frugal_pair (frugal_option (frugal_convert _ frugal_bytes)) <|
    frugal_map _ (frugal_pair hpoint hpoint)

theorem frugal_scenario (order : Forest → List (NodeId × Node)) :
    Frugal (scenario order).read :=
  frugal_map _ <| frugal_pair frugal_text <|
    frugal_pair (frugal_map _ <|
      frugal_pair (frugal_list (frugal_pair frugal_nodeId frugal_node)) (frugal_nat 4)) <|
    frugal_pair (frugal_list frugal_trigger) <| frugal_pair (frugal_list frugal_region) <|
    frugal_pair (frugal_nat 4) (frugal_nat 4)

end Snapshot

namespace Scenario

variable {scenario : Scenario}

/-- The bytes hold the scenario, and all of them are needed. -/
structure HeldIn (scenario : Scenario) (bytes : List UInt8) : Prop where
  /-- The scenario is read from the bytes, whatever follows them. -/
  whole : ∀ rest, ofBytes? (bytes ++ rest) = some scenario
  /-- Nothing is read if the bytes end too soon. -/
  cut : ∀ front rest, bytes = front ++ rest → rest ≠ [] → ofBytes? front = none

/-- A script that is stored and loaded is the script. -/
theorem Reached.ofBytes?_toBytesBy (h : Reached scenario) (hstore : scenario.Storable)
    {order : Forest → List (NodeId × Node)}
    (ho : (order scenario.forest).Perm scenario.forest.nodes.toList) (rest : List UInt8) :
    ofBytes? (scenario.toBytesBy order ++ rest) = some scenario :=
  (Snapshot.restores_scenario h.owned h.surveyed h.inRange hstore ho).decode_append rest

/-- **A snapshot holds the script**, in whatever order the nodes were written. -/
theorem Reached.heldIn (h : Reached scenario) (hstore : scenario.Storable)
    {order : Forest → List (NodeId × Node)}
    (ho : (order scenario.forest).Perm scenario.forest.nodes.toList) :
    scenario.HeldIn (scenario.toBytesBy order) := by
  have hrestores := Snapshot.restores_scenario h.owned h.surveyed h.inRange hstore ho
  -- the order matters to the writer only
  exact ⟨h.ofBytes?_toBytesBy hstore ho, fun front rest hw hr =>
    hrestores.decode_front (Snapshot.frugal_scenario order) hw hr⟩

/-- The last node is written first. -/
theorem heldIn_greeting :
    Greeting.script.Storable ∧
      Greeting.script.HeldIn
        (Greeting.script.toBytesBy fun forest => forest.nodes.toList.reverse) := by
  have hstore : Greeting.script.Storable := by decide +kernel
  exact ⟨hstore, Greeting.script_reachable.reached.heldIn hstore (List.reverse_perm _)⟩

end Scenario

end Rulebook
