import Mathlib.Data.List.Perm.Basic
import Rulebook.Interchange.Encoding
import Rulebook.Proofs.Forest.Snapshot
import Rulebook.Proofs.Interchange.Entry
import Rulebook.Proofs.Interchange.LiteralText

/-!
# What is written of a node

The entries of a node are its own and those of its slots, in the order in which
the variant declares these. A node binds its slots in the order in which they
were filled, so the two orders are reconciled here: nothing that is bound is left
out, and the tree of the node does not depend on the order.

What is written depends on the tree of the node only, and on what its regions
are called.
-/

namespace Rulebook

open Scenario (Sound)

/-- The filled slots of a node, in the order in which the variant declares them. -/
def Node.filledSlots (node : Node) (variant : Variant) : List (String × NodeId) :=
  variant.params.filterMap fun param =>
    (node.argument? param.name).map fun child => (param.name, child)

namespace Node

variable {node : Node} {variant : Variant}

theorem mem_filledSlots {slot : String × NodeId} :
    slot ∈ node.filledSlots variant ↔
      slot.1 ∈ variant.params.map Param.name ∧ node.argument? slot.1 = some slot.2 := by
  obtain ⟨name, child⟩ := slot
  unfold filledSlots
  simp only [List.mem_filterMap, Option.map_eq_some_iff, Prod.mk.injEq, List.mem_map]
  constructor
  · intro h
    obtain ⟨param, hp, other, ha, rfl, rfl⟩ := h
    exact ⟨⟨param, hp, rfl⟩, ha⟩
  · intro h
    obtain ⟨⟨param, hp, rfl⟩, ha⟩ := h
    exact ⟨param, hp, child, ha, rfl, rfl⟩

theorem nodup_filledSlots (hs : variant.Sound) :
    ((node.filledSlots variant).map Prod.fst).Nodup := by
  have hsub : ∀ params : List Param,
      ((params.filterMap fun param =>
        (node.argument? param.name).map fun child => (param.name, child)).map Prod.fst).Sublist
          (params.map Param.name) := by
    intro params
    induction params with
    | nil => exact .slnil
    | cons param rest ih =>
        rw [List.filterMap_cons, List.map_cons]
        cases node.argument? param.name with
        | none => exact ih.cons _
        | some child => exact ih.cons_cons _
  exact hs.distinct.sublist (hsub _)

/-- What a node binds is what is declared and filled. -/
theorem filledSlots_perm (hs : variant.Sound) (hn : (node.arguments.map Binding.param).Nodup)
    (hd : ∀ binding ∈ node.arguments, binding.param ∈ variant.params.map Param.name) :
    (node.filledSlots variant).Perm
      (node.arguments.map fun binding => (binding.param, binding.child)) := by
  have hbound : (node.arguments.map fun binding => (binding.param, binding.child)).Nodup := by
    refine .of_map Prod.fst ?_
    rw [List.map_map]
    exact hn
  -- neither list names a slot twice, so it is enough that they have the same ones
  rw [List.perm_ext_iff_of_nodup (.of_map _ (nodup_filledSlots hs)) hbound]
  rintro ⟨name, child⟩
  rw [mem_filledSlots]
  simp only [List.mem_map]
  constructor
  · intro h
    obtain ⟨_, ha⟩ := h
    exact ⟨_, mem_of_argument? ha, rfl⟩
  · intro h
    obtain ⟨binding, hb, he⟩ := h
    cases he
    exact ⟨List.mem_map.mp (hd binding hb), argument?_of_mem hn hb⟩

/-- Nodes with the same trees in their slots have the same slots filled. -/
theorem argument?_rel {copy : Node} {S T : NodeId → NodeTree → Prop}
    {filled copied : List (String × NodeTree)} (hn : (node.arguments.map Binding.param).Nodup)
    (hc : (copy.arguments.map Binding.param).Nodup)
    (hf : List.Forall₂ (fun binding pair => binding.param = pair.1 ∧ S binding.child pair.2)
      node.arguments filled)
    (hfc : List.Forall₂ (fun binding pair => binding.param = pair.1 ∧ T binding.child pair.2)
      copy.arguments copied)
    (hS : ∀ {child tree other}, S child tree → S child other → tree = other)
    (hT : ∀ {child tree other}, T child tree → T child other → tree = other)
    (he : NodeTree.slots filled = NodeTree.slots copied) (name : String) :
    Option.Rel (fun child twin => ∃ tree, S child tree ∧ T twin tree) (node.argument? name)
      (copy.argument? name) := by
  cases hchild : node.argument? name with
  | some child =>
      obtain ⟨⟨_, tree⟩, _, hname, hs⟩ := SideBySide.exists_right hf (mem_of_argument? hchild)
      cases hname
      have hin : (name, tree) ∈ NodeTree.slots copied :=
        he ▸ (mem_slots hn hf hS).mpr ⟨child, hchild, hs⟩
      obtain ⟨twin, htwin, ht⟩ := (mem_slots hc hfc hT).mp hin
      rw [htwin]
      exact .some ⟨tree, hs, ht⟩
  | none =>
      cases htwin : copy.argument? name with
      | none => exact .none
      | some twin =>
          obtain ⟨⟨_, tree⟩, _, hname, ht⟩ := SideBySide.exists_right hfc (mem_of_argument? htwin)
          cases hname
          have hin : (name, tree) ∈ NodeTree.slots filled :=
            he ▸ (mem_slots hc hfc hT).mpr ⟨twin, htwin, ht⟩
          obtain ⟨child, hsome, _⟩ := (mem_slots hn hf hS).mp hin
          rw [hchild] at hsome
          exact absurd hsome (by simp)

/-- Slots that go with each other by name stand in the same places. -/
theorem filledSlots_rel {copy : Node} {Q : NodeId → NodeId → Prop}
    (h : ∀ name, Option.Rel Q (node.argument? name) (copy.argument? name)) :
    List.Forall₂ (fun slot twin : String × NodeId => slot.1 = twin.1 ∧ Q slot.2 twin.2)
      (node.filledSlots variant) (copy.filledSlots variant) := by
  refine List.rel_filterMap (R := Eq) ?_ (List.forall₂_refl _)
  rintro param _ rfl
  have hpair := h param.name
  dsimp only
  generalize node.argument? param.name = held, copy.argument? param.name = held' at hpair
  cases hpair with
  | none => exact .none
  | some hinner => exact .some ⟨rfl, hinner⟩

end Node

/-! ## In the order of the variant -/

namespace Scenario

variable {registry : Registry} {scenario other : Scenario} {path : Path} {id : NodeId} {node : Node}
  {variant : Variant} {tree : NodeTree} {fuel : Nat} {own entries : List Entry}

theorem declaredChildren_eq :
    declaredChildren variant path node =
      (node.filledSlots variant).map fun slot => (path ++ [slot.1], slot.2) := by
  unfold declaredChildren Node.filledSlots
  rw [List.map_filterMap]
  simp only [Option.map_map]
  rfl

/-- What the slots show, in the order in which the variant declares them. -/
theorem Sound.exists_slots (h : Sound registry scenario) (hn : scenario.forest.get? id = some node)
    (hv : registry.get? node.variant = some variant) (hs : scenario.forest.Shows id tree) :
    ∃ trees, tree = ⟨node.variant, node.literal, NodeTree.slots trees⟩ ∧
      (trees.map Prod.fst).Nodup ∧
      List.Forall₂ (fun slot pair => slot.1 = pair.1 ∧ scenario.forest.Shows slot.2 pair.2)
        (node.filledSlots variant) trees := by
  obtain ⟨node', filled, hn', hfilled, rfl⟩ := Forest.Shows.iff_slots.mp hs
  rw [hn] at hn'
  cases hn'
  have hsound := h.variants.get? hv
  have hd : ∀ binding ∈ node.arguments, binding.param ∈ variant.params.map Param.name := by
    intro binding hb
    obtain ⟨param, _, hp, _⟩ := h.conforms.forest.slots hn hv hb
    obtain ⟨hm, he⟩ := Variant.mem_of_param? hp
    exact List.mem_map.mpr ⟨param, hm, he⟩
  -- the order of the variant is another order of what the node binds
  have hperm := Node.filledSlots_perm hsound (h.owned.linked.names hn) hd
  have hbound : List.Forall₂
      (fun slot pair => slot.1 = pair.1 ∧ scenario.forest.Shows slot.2 pair.2)
      (node.arguments.map fun binding => (binding.param, binding.child)) filled :=
    List.forall₂_map_left_iff.mpr hfilled
  obtain ⟨trees, htrees, hp⟩ := List.perm_comp_forall₂ hperm hbound
  have hnames : (trees.map Prod.fst).Nodup := by
    have he : (node.filledSlots variant).map Prod.fst = trees.map Prod.fst :=
      SideBySide.map_eq (htrees.imp fun _ _ hpair => hpair.1)
    rw [← he]
    exact Node.nodup_filledSlots hsound
  exact ⟨trees, by rw [NodeTree.slots_perm hp hnames], hnames, htrees⟩

/-! ## Entries -/

theorem ownEntries_ok :
    scenario.ownEntries path node = .ok own ↔
      (node.literal = none ∧ own = [⟨path, .definition, node.variant.toList⟩]) ∨
        ∃ literal payload, node.literal = some literal ∧
          LiteralText.write scenario literal = .ok payload ∧
          own = [⟨path, .definition, node.variant.toList⟩, ⟨path, .value, payload⟩] := by
  unfold ownEntries
  cases node.literal with
  | none =>
      dsimp only
      rw [Check.pure_ok]
      simp [eq_comm]
  | some literal =>
      dsimp only
      rw [Check.bind_ok]
      simp only [Check.pure_ok]
      simp [eq_comm]

/-- The entries of a node are its own and those of its slots. -/
theorem entriesWithin_succ :
    scenario.entriesWithin registry (fuel + 1) path id = .ok entries ↔
      ∃ node variant own blocks, scenario.forest.get? id = some node ∧
        registry.get? node.variant = some variant ∧ scenario.ownEntries path node = .ok own ∧
        List.Forall₂ (fun slot block =>
          scenario.entriesWithin registry fuel (path ++ [slot.1]) slot.2 = .ok block)
          (node.filledSlots variant) blocks ∧
        entries = own ++ blocks.flatten := by
  rw [entriesWithin]
  cases hn : scenario.forest.get? id with
  | none => simp
  | some node =>
      cases hv : registry.get? node.variant with
      | none => simp [hv]
      | some variant =>
          -- the children of a node are its filled slots, in the order declared
          simp only [hv, Check.bind_ok, Check.pure_ok, Check.mapM_ok, declaredChildren_eq,
            List.forall₂_map_left_iff]
          constructor
          · intro h
            obtain ⟨own, hown, blocks, hblocks, rfl⟩ := h
            exact ⟨node, variant, own, blocks, rfl, hv, hown, hblocks, rfl⟩
          · intro h
            obtain ⟨node', variant', own, blocks, hn', hv', hown, hblocks, rfl⟩ := h
            cases hn'
            rw [hv] at hv'
            cases hv'
            exact ⟨own, hown, blocks, hblocks, rfl⟩

theorem encode_ok {lines : List String} :
    scenario.encode registry id = .ok lines ↔
      ∃ entries, scenario.entries registry id = .ok entries ∧ lines = entries.map Entry.text := by
  rw [encode, Check.bind_ok]
  simp only [Check.pure_ok]
  constructor
  · intro h
    obtain ⟨entries, he, rfl⟩ := h
    exact ⟨entries, he, rfl⟩
  · intro h
    obtain ⟨entries, he, rfl⟩ := h
    exact ⟨entries, he, rfl⟩

/-- What is written are entries: their paths are made of names, and none runs over its line. -/
theorem wellFormed_entries (h : Sound registry scenario) :
    ∀ {fuel : Nat} {path : Path} {id : NodeId} {entries : List Entry}, path.Named →
      scenario.entriesWithin registry fuel path id = .ok entries →
      ∀ entry ∈ entries, entry.path.Named ∧ '\n' ∉ entry.payload ∧ '\r' ∉ entry.payload := by
  intro fuel
  induction fuel with
  | zero => intro path id entries _ he; simp [entriesWithin] at he
  | succ fuel ih =>
      intro path id entries hpath he
      obtain ⟨node, variant, own, blocks, _, hv, hown, hblocks, rfl⟩ := entriesWithin_succ.mp he
      have hsound := h.variants.get? hv
      have hname : node.variant.toList = variant.id.toList := by rw [Registry.id_of_get? hv]
      have hvariant : '\n' ∉ node.variant.toList ∧ '\r' ∉ node.variant.toList :=
        hname ▸ (not_mem_of_isName hsound.name).2
      intro entry hentry
      rcases List.mem_append.mp hentry with hentry | hentry
      · rcases ownEntries_ok.mp hown with ⟨_, rfl⟩ | ⟨literal, payload, _, hwrite, rfl⟩
        · rw [List.mem_singleton.mp hentry]
          exact ⟨hpath, hvariant⟩
        · rcases List.mem_cons.mp hentry with rfl | hentry
          · exact ⟨hpath, hvariant⟩
          · rw [List.mem_singleton.mp hentry]
            exact ⟨hpath, LiteralText.not_mem_write hwrite⟩
      · -- the entry is in the block of a slot, whose path is longer by a declared name
        obtain ⟨block, hblock, hm⟩ := List.mem_flatten.mp hentry
        obtain ⟨slot, hslot, hinner⟩ := SideBySide.exists_left hblocks hblock
        obtain ⟨param, hp, hslotname⟩ := List.mem_map.mp (Node.mem_filledSlots.mp hslot).1
        exact ih (hpath.concat (hslotname ▸ hsound.params param hp)) hinner entry hm

/-- Every literal of a tree that was written can be written. -/
theorem writable_of_entries (h : Sound registry scenario) :
    ∀ {fuel : Nat} {path : Path} {id : NodeId} {entries : List Entry} {tree : NodeTree},
      scenario.entriesWithin registry fuel path id = .ok entries → scenario.forest.Shows id tree →
      ∀ literal ∈ tree.literals, ∃ text, LiteralText.write scenario literal = .ok text := by
  intro fuel
  induction fuel with
  | zero => intro path id entries tree he; simp [entriesWithin] at he
  | succ fuel ih =>
      intro path id entries tree he hs literal hl
      obtain ⟨node, variant, own, blocks, hn, hv, hown, hblocks, _⟩ := entriesWithin_succ.mp he
      obtain ⟨trees, rfl, hnames, htrees⟩ := h.exists_slots hn hv hs
      rcases (NodeTree.mem_literals_slots hnames).mp hl with hlit | ⟨pair, hp, hl⟩
      · rcases ownEntries_ok.mp hown with ⟨hnone, _⟩ | ⟨other, payload, hother, hwrite, _⟩
        · rw [hnone] at hlit
          exact absurd hlit (by simp)
        · rw [hother] at hlit
          cases hlit
          exact ⟨payload, hwrite⟩
      · -- the literal is somewhere in a slot, which was written too
        obtain ⟨slot, hslot, _, hshows⟩ := SideBySide.exists_left htrees hp
        obtain ⟨block, _, hblock⟩ := SideBySide.exists_right hblocks hslot
        exact ih hblock hshows literal hl

/-- **A node can be written if every literal of its tree can.** -/
theorem exists_entries (h : Sound registry scenario) :
    ∀ {fuel : Nat} {path : Path} {id : NodeId} {tree : NodeTree},
      scenario.forest.treeWithin fuel id = some tree →
      (∀ literal ∈ tree.literals, ∃ text, LiteralText.write scenario literal = .ok text) →
      ∃ entries, scenario.entriesWithin registry fuel path id = .ok entries := by
  intro fuel
  induction fuel with
  | zero => intro path id tree ht; simp [Forest.treeWithin] at ht
  | succ fuel ih =>
      intro path id tree ht hw
      obtain ⟨node, filled, hn, hf, rfl⟩ := Forest.treeWithin_succ.mp ht
      obtain ⟨variant, hv, _⟩ := h.conforms.forest.typed hn
      have hnames := h.owned.linked.names hn
      have he : node.arguments.map Binding.param = filled.map Prod.fst :=
        SideBySide.map_eq (hf.imp fun _ _ hpair => hpair.1)
      have hmem : ∀ literal, _ ↔ _ := fun literal =>
        @NodeTree.mem_literals_slots filled literal node.variant node.literal (he ▸ hnames)
      obtain ⟨own, hown⟩ : ∃ own, scenario.ownEntries path node = .ok own := by
        cases hl : node.literal with
        | none => exact ⟨_, ownEntries_ok.mpr (Or.inl ⟨hl, rfl⟩)⟩
        | some literal =>
            obtain ⟨text, htext⟩ := hw literal ((hmem literal).mpr (Or.inl hl))
            exact ⟨_, ownEntries_ok.mpr (Or.inr ⟨literal, text, hl, htext, rfl⟩)⟩
      obtain ⟨blocks, hblocks⟩ : ∃ blocks, List.Forall₂ (fun slot block =>
          scenario.entriesWithin registry fuel (path ++ [slot.1]) slot.2 = .ok block)
          (node.filledSlots variant) blocks := by
        -- every filled slot is a binding, and its tree has literals of the whole only
        refine SideBySide.exists_list fun slot hslot => ?_
        have hbound := Node.mem_of_argument? (Node.mem_filledSlots.mp hslot).2
        obtain ⟨pair, hp, _, hinner⟩ := SideBySide.exists_right hf hbound
        exact ih hinner fun literal hl => hw literal ((hmem literal).mpr (Or.inr ⟨pair, hp, hl⟩))
      exact ⟨_, entriesWithin_succ.mpr ⟨node, variant, own, blocks, hn, hv, hown, hblocks, rfl⟩⟩

/-! ## What keeps a tree from being written -/

/-- If a literal is not written, that is for a region that is not there. -/
theorem write_error {literal : Literal} {fault : InterchangeError}
    (h : LiteralText.write scenario literal = .error fault) :
    ∃ gone, scenario.region? gone = none ∧ fault = .unresolvedReference 0 gone.text := by
  cases literal with
  | region id =>
      rw [LiteralText.write] at h
      split at h
      · exact absurd h (by simp)
      · rename_i hgone
        cases h
        exact ⟨id, hgone, rfl⟩
  | _ => exact absurd h (by simp [LiteralText.write])

theorem ownEntries_error {path : Path} {node : Node} {fault : InterchangeError}
    (h : scenario.ownEntries path node = .error fault) :
    ∃ gone, scenario.region? gone = none ∧ fault = .unresolvedReference 0 gone.text := by
  unfold ownEntries at h
  cases hl : node.literal with
  | none =>
      rw [hl] at h
      exact absurd h (by simp [pure, Except.pure])
  | some literal =>
      rw [hl] at h
      rcases Check.bind_error.mp h with hw | ⟨_, _, hpure⟩
      · exact write_error hw
      · exact absurd hpure (by simp [pure, Except.pure])

/-- **Only a region that is not there keeps a tree from being written.** -/
theorem entriesWithin_error (h : Sound registry scenario) :
    ∀ {fuel : Nat} {path : Path} {id : NodeId} {tree : NodeTree} {fault : InterchangeError},
      scenario.forest.treeWithin fuel id = some tree →
      scenario.entriesWithin registry fuel path id = .error fault →
      ∃ gone, scenario.region? gone = none ∧ fault = .unresolvedReference 0 gone.text := by
  intro fuel
  induction fuel with
  | zero => intro path id tree fault ht; simp [Forest.treeWithin] at ht
  | succ fuel ih =>
      intro path id tree fault ht he
      obtain ⟨node, filled, hn, hf, rfl⟩ := Forest.treeWithin_succ.mp ht
      obtain ⟨variant, hv, _⟩ := h.conforms.forest.typed hn
      rw [entriesWithin, hn] at he
      simp only [hv] at he
      rcases Check.bind_error.mp he with hown | ⟨_, _, he⟩
      · exact ownEntries_error hown
      · rcases Check.bind_error.mp he with hbelow | ⟨_, _, hpure⟩
        · obtain ⟨⟨below, child⟩, hc, hchild⟩ := Check.exists_of_mapM_error hbelow
          rw [declaredChildren_eq] at hc
          obtain ⟨slot, hslot, heq⟩ := List.mem_map.mp hc
          cases heq
          have hbound := Node.mem_of_argument? (Node.mem_filledSlots.mp hslot).2
          obtain ⟨pair, _, _, hinner⟩ := SideBySide.exists_right hf hbound
          exact ih hinner hchild
        · exact absurd hpure (by simp [pure, Except.pure])

/-! ## The tree decides -/

theorem write_congr (hr : other.regions = scenario.regions) (literal : Literal) :
    LiteralText.write other literal = LiteralText.write scenario literal := by
  cases literal with
  | region id =>
      unfold LiteralText.write Scenario.region?
      rw [hr]
  | _ => rfl

theorem ownEntries_congr (hr : other.regions = scenario.regions) {twin : Node}
    (hv : twin.variant = node.variant) (hl : twin.literal = node.literal) :
    other.ownEntries path twin = scenario.ownEntries path node := by
  unfold ownEntries
  rw [hv, hl]
  cases node.literal with
  | none => rfl
  | some literal =>
      dsimp only
      rw [write_congr hr]

/-- **Nodes that show the same tree are written the same**, in one script or in two that have
the same regions. -/
theorem entriesWithin_congr (h : Sound registry scenario) (ho : Sound registry other)
    (hr : other.regions = scenario.regions) :
    ∀ {more fuel : Nat} {path : Path} {id twin : NodeId} {tree : NodeTree} {entries : List Entry},
      scenario.forest.Shows id tree → other.forest.treeWithin more twin = some tree →
      scenario.entriesWithin registry fuel path id = .ok entries →
      other.entriesWithin registry more path twin = .ok entries := by
  intro more
  induction more with
  | zero => intro fuel path id twin tree entries _ ht; simp [Forest.treeWithin] at ht
  | succ more ih =>
      intro fuel path id twin tree entries hs ht he
      obtain ⟨fuel, rfl⟩ : ∃ k, fuel = k + 1 := by
        cases fuel with
        | zero => simp [entriesWithin] at he
        | succ k => exact ⟨k, rfl⟩
      obtain ⟨node, variant, own, blocks, hn, hv, hown, hblocks, rfl⟩ := entriesWithin_succ.mp he
      obtain ⟨node', filled, hn', hf, rfl⟩ := Forest.Shows.iff_slots.mp hs
      rw [hn] at hn'
      cases hn'
      obtain ⟨copy, copied, hcopy, hfc, htree⟩ := Forest.treeWithin_succ.mp ht
      simp only [NodeTree.mk.injEq] at htree
      obtain ⟨hvar, hlit, hslots⟩ := htree
      -- a slot is filled in both or in neither, and then with the same tree
      have hslot : ∀ name, Option.Rel (fun child twin => ∃ tree, scenario.forest.Shows child tree ∧
          other.forest.treeWithin more twin = some tree) (node.argument? name)
          (copy.argument? name) :=
        Node.argument?_rel (h.owned.linked.names hn) (ho.owned.linked.names hcopy) hf hfc
          (fun ha hb => ha.unique hb) (fun ha hb => Option.some.inj (ha.symm.trans hb)) hslots
      have halign : List.Forall₂ (fun slot twin : String × NodeId => slot.1 = twin.1 ∧
          ∃ tree, scenario.forest.Shows slot.2 tree ∧
            other.forest.treeWithin more twin.2 = some tree)
          (node.filledSlots variant) (copy.filledSlots variant) := Node.filledSlots_rel hslot
      refine entriesWithin_succ.mpr ⟨copy, variant, own, blocks, hcopy, ?_, ?_, ?_, rfl⟩
      · rw [← hvar]
        exact hv
      · rw [ownEntries_congr hr hvar.symm hlit.symm]
        exact hown
      · refine (SideBySide.meet halign hblocks).imp ?_
        rintro ⟨_, twin⟩ block ⟨⟨name, child⟩, _, ⟨rfl, tree, hshows, hin⟩, hblock⟩
        exact ih hshows hin hblock

theorem entries_congr (h : Sound registry scenario) (ho : Sound registry other)
    (hr : other.regions = scenario.regions) {twin : NodeId}
    (hs : scenario.forest.Shows id tree) (ht : other.forest.Shows twin tree)
    (he : scenario.entries registry id = .ok entries) :
    other.entries registry twin = .ok entries := by
  have hsnap := ho.owned.linked.snapshot_iff.mpr ht
  exact entriesWithin_congr h ho hr hs (Forest.treeWithin_mono (Nat.le_succ _) hsnap) he

/-- Nodes that show the same tree are of the same kind and type. -/
theorem Sound.alike_of_shows (h : Sound registry scenario) (ho : Sound registry other)
    {twin : NodeId} {copy : Node} (hn : scenario.forest.get? id = some node)
    (hs : scenario.forest.Shows id tree) (hc : other.forest.get? twin = some copy)
    (ht : other.forest.Shows twin tree) : copy.kind = node.kind ∧ copy.result = node.result := by
  obtain ⟨node', _, hn', _, htree⟩ := Forest.Shows.iff_slots.mp hs
  obtain ⟨copy', _, hc', _, htree'⟩ := Forest.Shows.iff_slots.mp ht
  rw [hn] at hn'
  rw [hc] at hc'
  cases hn'
  cases hc'
  have hvariant : copy.variant = node.variant := by
    rw [htree] at htree'
    exact (congrArg NodeTree.variant htree').symm
  obtain ⟨variant, hv, hkind, hresult, _⟩ := h.conforms.forest.typed hn
  obtain ⟨variant', hv', hkind', hresult', _⟩ := ho.conforms.forest.typed hc
  rw [hvariant, hv] at hv'
  cases hv'
  exact ⟨hkind'.trans hkind.symm, hresult'.trans hresult.symm⟩

end Scenario

end Rulebook
