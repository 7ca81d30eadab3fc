import Rulebook.Proofs.Attempt
import Rulebook.Proofs.Forest.Changes

/-!
# What edits do

For every edit of a forest: when it succeeds, and what the forest is then. The
edits that check everything first leave the forest alone when they refuse.

From these follows that every edit, however it ends, is a run of changes. For
inserting a tree this is an induction on the tree, which also has to say that
what a failed attempt takes away again was the root of no trigger.
-/

namespace Rulebook

namespace Forest

open Attempt

variable {forest after : Forest} {parent child id : NodeId} {registry : Registry}
  {variant : Variant} {param : String}

/-! ## Checks -/

theorem isDetached_iff {node : Node} : node.isDetached = true ↔ node.owner = .detached := by
  rw [Node.isDetached, beq_iff_eq]

theorem checkLiteral_ok {literal : Option Literal} :
    checkLiteral variant literal = .ok () ↔ variant.literal = literal.map (·.type) := by
  unfold checkLiteral
  dsimp only
  split <;> simp_all

theorem checkBinding_ok :
    forest.checkBinding variant param child = .ok () ↔
      ∃ slot node, variant.param? param = some slot ∧ forest.get? child = some node ∧
        node.owner = .detached ∧ node.result = slot.type := by
  unfold checkBinding
  cases variant.param? param with
  | none => simp [Check.throw_ok]
  | some slot =>
      simp only [Check.bind_ok, Check.ite_ok, Check.throw_ok, Check.pure_ok, require_ok,
        isDetached_iff]
      simp

theorem checkArguments_cons {earlier rest : List (String × NodeId)} :
    forest.checkArguments variant earlier ((param, child) :: rest) = .ok () ↔
      param ∉ earlier.map Prod.fst ∧ child ∉ earlier.map Prod.snd ∧
        forest.checkBinding variant param child = .ok () ∧
        forest.checkArguments variant (earlier ++ [(param, child)]) rest = .ok () := by
  have hany : ∀ {α : Type} [BEq α] [LawfulBEq α] (f : String × NodeId → α) (a : α),
      (earlier.any fun known => f known == a) = true ↔ a ∈ earlier.map f := by
    intro α _ _ f a
    rw [List.any_eq_true, List.mem_map]
    simp
  rw [checkArguments, ← hany Prod.fst, ← hany Prod.snd]
  simp only [Check.then_ok, Check.ite_ok, Check.throw_ok]
  simp

/-! ## Successes and refusals -/

theorem createNode_ok {name : VariantId} {arguments : List (String × NodeId)}
    {literal : Option Literal} :
    (createNode registry name arguments literal).runOn forest = (.ok id, after) ↔
      ∃ variant, registry.get? name = some variant ∧ checkLiteral variant literal = .ok () ∧
        forest.checkArguments variant [] arguments = .ok () ∧
        checkComplete variant arguments = .ok () ∧ id = ⟨forest.nextId⟩ ∧
        after = (forest.plant variant literal).fillSlots id arguments := by
  simp only [createNode, bind_ok, runOn_get, check_ok, add, runOn_ofRun, runOn_modify, pure_ok]
  constructor
  · intro h
    obtain ⟨_, _, ⟨⟩, variant, _, ⟨hv, rfl⟩, _, _, ⟨hl, rfl⟩, _, _, ⟨ha, rfl⟩, _, _, ⟨hc, rfl⟩,
      _, _, ⟨⟩, _, _, ⟨⟩, rfl, rfl⟩ := h
    exact ⟨variant, Registry.require_ok.mp hv, hl, ha, hc, rfl, rfl⟩
  · intro h
    obtain ⟨variant, hv, hl, ha, hc, rfl, rfl⟩ := h
    exact ⟨_, _, rfl, variant, _, ⟨Registry.require_ok.mpr hv, rfl⟩, _, _, ⟨hl, rfl⟩, _, _,
      ⟨ha, rfl⟩, _, _, ⟨hc, rfl⟩, _, _, rfl, _, _, rfl, rfl, rfl⟩

theorem sure_add {literal : Option Literal} : Sure (add variant literal) :=
  fun forest => ⟨⟨forest.nextId⟩, forest.plant variant literal, rfl⟩

theorem createNode_spares {name : VariantId} {arguments : List (String × NodeId)}
    {literal : Option Literal} : Spares (createNode registry name arguments literal) := by
  unfold createNode
  refine .get fun forest => .checked fun variant _ => .checked fun _ _ => ?_
  refine .checked fun _ _ => .checked fun _ _ => Sure.spares ?_
  exact .bind sure_add fun id => .bind (.modify _) fun _ => .pure id

theorem createDraft_ok {name : VariantId} :
    (createDraft registry name).runOn forest = (.ok id, after) ↔
      ∃ variant literal, registry.get? name = some variant ∧
        draftLiteral variant = .ok literal ∧ id = ⟨forest.nextId⟩ ∧
        after = forest.plant variant literal := by
  simp only [createDraft, bind_ok, check_ok, add, runOn_ofRun]
  constructor
  · intro h
    obtain ⟨variant, _, ⟨hv, rfl⟩, literal, _, ⟨hl, rfl⟩, ⟨⟩⟩ := h
    exact ⟨variant, literal, Registry.require_ok.mp hv, hl, rfl, rfl⟩
  · intro h
    obtain ⟨variant, literal, hv, hl, rfl, rfl⟩ := h
    exact ⟨variant, _, ⟨Registry.require_ok.mpr hv, rfl⟩, literal, _, ⟨hl, rfl⟩, rfl⟩

theorem createDraft_spares {name : VariantId} : Spares (createDraft registry name) := by
  unfold createDraft
  exact .checked fun variant _ => .checked fun literal _ => sure_add.spares

/-- The literal of a draft is of the type that its variant carries. -/
theorem draftLiteral_ok {literal : Option Literal} (h : draftLiteral variant = .ok literal) :
    variant.literal = literal.map (·.type) := by
  unfold draftLiteral at h
  split at h
  · rename_i hv
    cases h
    exact hv
  · rename_i type hv
    rw [hv]
    cases type <;> simp [Literal.neutral?] at h <;> subst h <;> rfl

theorem setLiteral_ok {literal : Literal} :
    (setLiteral id literal).runOn forest = (.ok (), after) ↔
      ∃ node, forest.get? id = some node ∧ node.kind = .value ∧ literal.type = node.result ∧
        after = forest.update id fun node => { node with literal := some literal } := by
  simp only [setLiteral, bind_ok, runOn_get, check_ok]
  constructor
  · intro hx
    obtain ⟨_, _, ⟨⟩, node, _, ⟨hn, rfl⟩, h⟩ := hx
    rw [runOn_ite] at h
    split at h
    · rename_i hk
      cases h
      exact ⟨node, require_ok.mp hn, hk.1, hk.2, rfl⟩
    · simp at h
  · intro hx
    obtain ⟨node, hn, hk, ht, rfl⟩ := hx
    refine ⟨_, _, rfl, node, _, ⟨require_ok.mpr hn, rfl⟩, ?_⟩
    rw [runOn_ite, if_pos ⟨hk, ht⟩]
    rfl

theorem setLiteral_spares {literal : Literal} : Spares (setLiteral id literal) := by
  unfold setLiteral
  refine .get fun forest => .checked fun node _ => ?_
  exact .ite (Sure.modify _).spares (.throw_bind _ _)

theorem setArgument_ok :
    (setArgument registry id param child).runOn forest = (.ok (), after) ↔
      ∃ node variant, forest.get? id = some node ∧ registry.get? node.variant = some variant ∧
        forest.checkBinding variant param child = .ok () ∧ child ∉ forest.lineage id ∧
        after = (forest.vacate id param).fillSlot id param child := by
  simp only [setArgument, bind_ok, runOn_get, check_ok]
  constructor
  · intro hx
    obtain ⟨_, _, ⟨⟩, node, _, ⟨hn, rfl⟩, variant, _, ⟨hv, rfl⟩, _, _, ⟨hb, rfl⟩, h⟩ := hx
    rw [runOn_ite] at h
    split at h
    · simp at h
    · rename_i hl
      cases h
      exact ⟨node, variant, require_ok.mp hn, Registry.require_ok.mp hv, hb, hl, rfl⟩
  · intro hx
    obtain ⟨node, variant, hn, hv, hb, hl, rfl⟩ := hx
    refine ⟨_, _, rfl, node, _, ⟨require_ok.mpr hn, rfl⟩, variant, _,
      ⟨Registry.require_ok.mpr hv, rfl⟩, _, _, ⟨hb, rfl⟩, ?_⟩
    rw [runOn_ite, if_neg hl]
    rfl

theorem setArgument_spares : Spares (setArgument registry id param child) := by
  unfold setArgument
  refine .get fun forest => .checked fun node _ => .checked fun variant _ => ?_
  refine .checked fun _ _ => ?_
  exact .ite (.throw_bind _ _) (Sure.set _).spares

theorem clearArgument_ok {found : Bool} :
    (clearArgument registry id param).runOn forest = (.ok found, after) ↔
      ∃ node variant, forest.get? id = some node ∧ registry.get? node.variant = some variant ∧
        (variant.param? param).isSome = true ∧
        ((node.argument? param = none ∧ found = false ∧ after = forest) ∨
          ∃ child, node.argument? param = some child ∧ found = true ∧
            after = forest.removeSubtree child) := by
  simp only [clearArgument, bind_ok, runOn_get, check_ok]
  constructor
  · intro hx
    obtain ⟨_, _, ⟨⟩, node, _, ⟨hn, rfl⟩, variant, _, ⟨hv, rfl⟩, h⟩ := hx
    rw [runOn_ite] at h
    split at h
    · rename_i hs
      refine ⟨node, variant, require_ok.mp hn, Registry.require_ok.mp hv, hs, ?_⟩
      -- an empty slot is left alone, and a filled one loses its subtree
      split at h
      · rename_i ha
        cases h
        exact Or.inl ⟨ha, rfl, rfl⟩
      · rename_i child ha
        cases h
        exact Or.inr ⟨child, ha, rfl, rfl⟩
    · simp at h
  · intro hx
    obtain ⟨node, variant, hn, hv, hs, h⟩ := hx
    refine ⟨_, _, rfl, node, _, ⟨require_ok.mpr hn, rfl⟩, variant, _,
      ⟨Registry.require_ok.mpr hv, rfl⟩, ?_⟩
    rw [runOn_ite, if_pos hs]
    rcases h with ⟨ha, rfl, rfl⟩ | ⟨child, ha, rfl, rfl⟩
    · rw [ha]
      rfl
    · rw [ha]
      rfl

theorem clearArgument_spares : Spares (clearArgument registry id param) := by
  unfold clearArgument
  refine .get fun forest => .checked fun node _ => .checked fun variant _ => ?_
  refine .ite ?_ (.throw_bind _ _)
  split
  · exact (Sure.pure false).spares
  · exact (Sure.bind (.set _) fun _ => .pure true).spares

/-! ## Edits are runs of changes -/

theorem change_plant {name : VariantId} {literal : Option Literal}
    (hv : registry.get? name = some variant) (hl : variant.literal = literal.map (·.type)) :
    Change registry forest (forest.plant variant literal) :=
  .plant (Registry.get?_id hv) hl

/-- What is left holds nothing that it did not hold before. -/
theorem holds_of_removeSubtree (h : Linked forest) {gone x y : NodeId}
    (hh : (forest.removeSubtree gone).Holds x y) : forest.Holds x y := by
  obtain ⟨left, hl, hc⟩ := hh
  obtain ⟨_, node, hn, rfl⟩ := (get?_removeSubtree h).mp hl
  exact ⟨node, hn, (Node.mem_children_release.mp hc).1⟩

theorem below_of_removeSubtree (h : Linked forest) {gone x y : NodeId}
    (hb : (forest.removeSubtree gone).Below x y) : forest.Below x y :=
  Relation.ReflTransGen.mono (fun _ _ => holds_of_removeSubtree h) x y hb

theorem setArgument_changes (h : Linked forest) :
    Changes registry forest ((setArgument registry id param child).runOn forest).2 := by
  refine setArgument_spares.after (P := Changes registry forest) .refl fun _ after hs => ?_
  obtain ⟨node, variant, hn, hv, hb, hl, rfl⟩ := setArgument_ok.mp hs
  obtain ⟨slot, inner, hp, hi, hd, ht⟩ := checkBinding_ok.mp hb
  have hnb : ¬ forest.Below child id := fun hb => hl ((mem_lineage h hn).mpr hb)
  cases ha : node.argument? param with
  | none =>
      rw [vacate_of_empty hn ha]
      exact .single (.fill hn hv hp ha hi hd ht hnb)
  | some old =>
      have hm := Node.mem_of_argument? ha
      have hold : forest.Holds id old := ⟨node, hn, Node.mem_children.mpr ⟨_, hm, rfl⟩⟩
      obtain ⟨previous, hprev, hown⟩ := h.holds_iff.mp hold
      rw [vacate_eq_removeSubtree h hn ha]
      -- the old child goes first, which leaves the slot empty and the new child free
      have hid : (forest.removeSubtree old).get? id = some (node.release old) :=
        (get?_removeSubtree h).mpr ⟨h.not_below_of_holds hold, node, hn, rfl⟩
      have hempty : (node.release old).argument? param = none := by
        rw [Node.argument?_eq_none]
        intro hmem
        obtain ⟨b, hb, he⟩ := List.mem_map.mp hmem
        obtain ⟨hb, hne⟩ := Node.mem_release.mp hb
        rw [List.inj_on_of_nodup_map (h.names hn) hb hm he] at hne
        exact hne rfl
      have hchild : (forest.removeSubtree old).get? child = some (inner.release old) := by
        refine (get?_removeSubtree h).mpr ⟨fun hb => ?_, inner, hi, rfl⟩
        have he := h.eq_of_below_root hi (by simp [hd]) hb
        rw [he, hi] at hprev
        cases hprev
        exact absurd hown (by simp [hd])
      refine Relation.ReflTransGen.tail (.single (.remove ?_))
        (.fill hid hv hp hempty hchild hd ht ?_)
      · intro n t hn' ho
        rw [hprev] at hn'
        cases hn'
        exact absurd hown (by simp [ho])
      · exact fun hb => hnb (below_of_removeSubtree h hb)

theorem clearArgument_changes (h : Linked forest) :
    Changes registry forest ((clearArgument registry id param).runOn forest).2 := by
  refine clearArgument_spares.after (P := Changes registry forest) .refl fun _ after hs => ?_
  obtain ⟨node, variant, hn, hv, _, ⟨_, _, rfl⟩ | ⟨child, ha, _, rfl⟩⟩ := clearArgument_ok.mp hs
  · exact .refl
  · refine .single (.remove fun n t hn' ho => ?_)
    have hm := Node.mem_of_argument? ha
    obtain ⟨inner, hi, hown⟩ := h.down hn (Node.mem_children.mpr ⟨_, hm, rfl⟩)
    rw [hi] at hn'
    cases hn'
    exact absurd hown (by simp [ho])

theorem setLiteral_changes {literal : Literal} :
    Changes registry forest ((setLiteral id literal).runOn forest).2 := by
  refine setLiteral_spares.after (P := Changes registry forest) .refl fun _ after hs => ?_
  obtain ⟨node, hn, hk, ht, rfl⟩ := setLiteral_ok.mp hs
  exact .single (.relabel hn hk ht)

theorem createDraft_changes {name : VariantId} :
    Changes registry forest ((createDraft registry name).runOn forest).2 := by
  refine createDraft_spares.after (P := Changes registry forest) .refl fun _ after hs => ?_
  obtain ⟨variant, literal, hv, hl, _, rfl⟩ := createDraft_ok.mp hs
  exact .single (change_plant hv (draftLiteral_ok hl))

/-- A fresh node has some of its slots filled. What is not in one of them is still what it was in
the forest in which the arguments were checked. -/
structure Partway (before : Forest) (variant : Variant) (id : NodeId)
    (earlier : List (String × NodeId)) (grown : Forest) : Prop where
  linked : Linked grown
  fresh : before.get? id = none
  node : ∃ node, grown.get? id = some node ∧ node.variant = variant.id ∧ node.owner = .detached ∧
    node.arguments = earlier.map fun given => ⟨given.1, given.2⟩
  same : ∀ x, x ≠ id → x ∉ earlier.map Prod.snd → grown.get? x = before.get? x

namespace Partway

variable {before grown : Forest} {earlier : List (String × NodeId)}

theorem plant (h : Linked forest) (variant : Variant) (literal : Option Literal) :
    Partway forest variant ⟨forest.nextId⟩ [] (forest.plant variant literal) where
  linked := linked_plant h _ _
  fresh := h.get?_next
  node := ⟨_, (get?_plant_iff h).mpr (Or.inl ⟨rfl, rfl⟩), rfl, rfl, rfl⟩
  same x hx _ := by rw [get?_plant, if_neg hx]

/-- A slot whose name has not come yet is empty. -/
theorem empty (h : Partway before variant id earlier grown) (hname : param ∉ earlier.map Prod.fst)
    {node : Node} (hid : grown.get? id = some node) : node.argument? param = none := by
  obtain ⟨found, hf, _, _, hargs⟩ := h.node
  cases hid.symm.trans hf
  rw [Node.argument?_eq_none, hargs, List.map_map]
  exact hname

/-- What was checked may be put in. -/
theorem fillable (h : Partway before variant id earlier grown)
    (hname : param ∉ earlier.map Prod.fst) (hchild : child ∉ earlier.map Prod.snd)
    (hbind : before.checkBinding variant param child = .ok ()) :
    ∃ node inner slot, Fillable grown id param child node inner ∧ node.variant = variant.id ∧
      variant.param? param = some slot ∧ inner.result = slot.type := by
  obtain ⟨slot, inner, hp, hi, hd, ht⟩ := checkBinding_ok.mp hbind
  obtain ⟨node, hid, hvar, hdet, _⟩ := h.node
  have hne : child ≠ id := by
    rintro rfl
    exact absurd (h.fresh.symm.trans hi) (by simp)
  refine ⟨node, inner, slot, ⟨hid, h.empty hname hid, ?_, hd, fun hb => hne ?_⟩, hvar, hp, ht⟩
  · rw [h.same child hne hchild, hi]
  · -- the node is free, so nothing else lies above it
    exact h.linked.eq_of_below_root hid (by simp [hdet]) hb

/-- And then one more slot is filled. -/
theorem fill (h : Partway before variant id earlier grown)
    (hname : param ∉ earlier.map Prod.fst) (hchild : child ∉ earlier.map Prod.snd)
    (hbind : before.checkBinding variant param child = .ok ()) :
    Partway before variant id (earlier ++ [(param, child)]) (grown.fillSlot id param child) := by
  obtain ⟨node, inner, _, hfill, hvar, _, _⟩ := h.fillable hname hchild hbind
  obtain ⟨found, hf, _, hdet, hargs⟩ := h.node
  cases hfill.holder.symm.trans hf
  refine ⟨linked_fillSlot h.linked hfill, h.fresh, ?_, ?_⟩
  · refine ⟨_, (get?_fillSlot_iff hfill.ne).mpr ⟨node, hf, if_pos rfl⟩, hvar, hdet, ?_⟩
    rw [Node.fill, hargs, List.map_append]
    rfl
  · intro x hx hnot
    rw [List.map_append, List.mem_append, not_or] at hnot
    have hxc : x ≠ child := fun he => hnot.2 (by simp [he])
    rw [get?_fillSlot param hfill.ne, if_neg hx, if_neg hxc, h.same x hx hnot.1]

end Partway

/-- Slots of a fresh node may be filled one after the other. -/
theorem fillSlots_changes {before : Forest} (hv : registry.get? variant.id = some variant) :
    ∀ (rest earlier : List (String × NodeId)) {grown : Forest},
      Partway before variant id earlier grown →
      before.checkArguments variant earlier rest = .ok () →
      Changes registry grown (grown.fillSlots id rest) := by
  intro rest
  induction rest with
  | nil => intros; exact .refl
  | cons given rest ih =>
      intro earlier grown h hcheck
      obtain ⟨param, child⟩ := given
      obtain ⟨hname, hchild, hbind, hrest⟩ := checkArguments_cons.mp hcheck
      obtain ⟨node, inner, slot, hf, hvar, hp, ht⟩ := h.fillable hname hchild hbind
      have hfill : Change registry grown (grown.fillSlot id param child) :=
        .fill hf.holder (hvar ▸ hv) hp hf.empty hf.there hf.free ht hf.apart
      exact .head hfill (ih _ (h.fill hname hchild hbind) hrest)

theorem createNode_changes (h : Linked forest) {name : VariantId}
    {arguments : List (String × NodeId)} {literal : Option Literal} :
    Changes registry forest ((createNode registry name arguments literal).runOn forest).2 := by
  refine createNode_spares.after (P := Changes registry forest) .refl fun _ after hs => ?_
  obtain ⟨variant, hv, hl, ha, _, rfl, rfl⟩ := createNode_ok.mp hs
  refine Relation.ReflTransGen.head (change_plant hv (checkLiteral_ok.mp hl)) ?_
  exact fillSlots_changes (Registry.get?_id hv) arguments [] (.plant h variant literal) ha

/-! ## How a tree is inserted -/

theorem insertTree_ok {name : VariantId} {literal : Option Literal}
    {arguments : List (String × NodeTree)} :
    (insertTree registry ⟨name, literal, arguments⟩).runOn forest = (.ok id, after) ↔
      ∃ variant, registry.get? name = some variant ∧
        variant.literal = literal.map (·.type) ∧ id = ⟨forest.nextId⟩ ∧
        (insertArguments registry id arguments).runOn (forest.plant variant literal)
          = (.ok (), after) := by
  rw [insertTree]
  simp only [bind_ok, check_ok, add, runOn_ofRun, pure_ok]
  constructor
  · intro h
    obtain ⟨variant, _, ⟨hv, rfl⟩, _, _, ⟨hl, rfl⟩, _, _, hid, _, _, hargs, rfl, rfl⟩ := h
    cases hid
    exact ⟨variant, Registry.require_ok.mp hv, checkLiteral_ok.mp hl, rfl,
      onFailure_ok.mp hargs⟩
  · intro h
    obtain ⟨variant, hv, hl, rfl, hargs⟩ := h
    exact ⟨variant, _, ⟨Registry.require_ok.mpr hv, rfl⟩, (), _, ⟨checkLiteral_ok.mpr hl, rfl⟩,
      _, _, rfl, (), _, onFailure_ok.mpr hargs, rfl, rfl⟩

theorem insertArguments_nil_ok {root : NodeId} :
    (insertArguments registry root []).runOn forest = (.ok (), after) ↔ after = forest := by
  rw [insertArguments, pure_ok]
  exact ⟨fun h => h.2.symm, fun h => ⟨rfl, h.symm⟩⟩

theorem insertArguments_cons_ok {root : NodeId} {tree : NodeTree}
    {rest : List (String × NodeTree)} :
    (insertArguments registry root ((param, tree) :: rest)).runOn forest = (.ok (), after) ↔
      ∃ child grown filled, (insertTree registry tree).runOn forest = (.ok child, grown) ∧
        (setArgument registry root param child).runOn grown = (.ok (), filled) ∧
        (insertArguments registry root rest).runOn filled = (.ok (), after) := by
  rw [insertArguments]
  simp only [bind_ok, onFailure_ok]
  constructor
  · intro h
    obtain ⟨child, grown, htree, _, filled, hset, hrest⟩ := h
    exact ⟨child, grown, filled, htree, hset, hrest⟩
  · intro h
    obtain ⟨child, grown, filled, htree, hset, hrest⟩ := h
    exact ⟨child, grown, htree, (), filled, hset, hrest⟩

/-- What inserting a tree yields was not there before. -/
theorem insertTree_ok_id {tree : NodeTree}
    (h : (insertTree registry tree).runOn forest = (.ok id, after)) : id = ⟨forest.nextId⟩ := by
  obtain ⟨name, literal, arguments⟩ := tree
  obtain ⟨_, _, _, hid, _⟩ := insertTree_ok.mp h
  exact hid

mutual

/-- Inserting a tree is a run of changes, whether it succeeds or takes back what it has built. -/
theorem insertTree_changes : ∀ (tree : NodeTree) {forest : Forest}, Linked forest →
    Changes registry forest ((insertTree registry tree).runOn forest).2
  | ⟨name, literal, arguments⟩, forest, h => by
      rw [insertTree]
      refine checked_after .refl fun variant hv => checked_after .refl fun _ hl => ?_
      refine bind_after (fun root planted hadd => ?_) fun e t hadd => ?_
      · cases hadd
        have hplant : Change registry forest (forest.plant variant literal) :=
          change_plant (Registry.require_ok.mp hv) (checkLiteral_ok.mp hl)
        have hargs := insertArguments_changes ⟨forest.nextId⟩ arguments (hplant.linked h)
        refine Keeps.after (onFailure_after (fun _ t hr => ?_) fun e t hr => ?_) fun _ => .pure _
        · rw [hr] at hargs
          exact .head hplant hargs
        · -- what was built so far goes again, together with its root
          rw [hr] at hargs
          have hall : Changes registry forest t := .head hplant hargs
          exact hall.remove_new h (Nat.le_refl _)
      · exact absurd (congrArg Prod.fst hadd) (by simp [add])

theorem insertArguments_changes (root : NodeId) : ∀ (arguments : List (String × NodeTree))
    {forest : Forest}, Linked forest →
    Changes registry forest ((insertArguments registry root arguments).runOn forest).2
  | [], forest, _ => by
      rw [insertArguments]
      exact .refl
  | (param, tree) :: rest, forest, h => by
      have htree : Changes registry forest ((insertTree registry tree).runOn forest).2 :=
        insertTree_changes tree h
      rw [insertArguments]
      refine bind_after (fun child grown hr => ?_) fun e t hr => ?_
      · rw [hr] at htree
        have hset : Changes registry grown
            ((setArgument registry root param child).runOn grown).2 :=
          setArgument_changes (htree.linked h)
        refine bind_after (fun _ filled hf => ?_) fun e t hf => ?_
        · rw [onFailure_ok.mp hf] at hset
          have hall : Changes registry forest filled := htree.trans hset
          exact hall.trans (insertArguments_changes root rest (hall.linked h))
        · -- the child was not taken, so it is still free
          obtain ⟨u, hs, rfl⟩ := onFailure_error.mp hf
          rw [setArgument_spares _ _ _ hs]
          rw [insertTree_ok_id hr]
          exact htree.remove_new h (Nat.le_refl _)
      · rw [hr] at htree
        exact htree

end

end Forest

end Rulebook
