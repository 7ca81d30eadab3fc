import Rulebook.Proofs.Scenario.Reachable

/-!
# A node made at once or step by step

A complete node can be made in one go, from a list of arguments, or as a draft
whose slots are filled one after the other. The first way checks the whole list
in the forest as it is, before it changes anything. The second checks each
argument in what the steps before it have made of the forest.

Where the two differ in what they look at, they agree in what they find. An
argument that came up before is held by then, the draft itself lies above
itself, and the other nodes are as they were. What only the first way asks for
is that no slot is filled twice and that no required one is left out.
-/

namespace Rulebook

open Attempt

namespace Forest

variable {before grown after forest : Forest} {variant : Variant} {id child : NodeId}
  {param : String} {registry : Registry} {earlier : List (String × NodeId)}

theorem checkComplete_ok {arguments : List (String × NodeId)} :
    checkComplete variant arguments = .ok () ↔
      ∀ param ∈ variant.params, param.isRequired = true → param.name ∈ arguments.map Prod.fst := by
  have hmem : ∀ name, (arguments.any fun given => given.1 == name) = true ↔
      name ∈ arguments.map Prod.fst := by simp
  unfold checkComplete
  split
  · rename_i missing hfound
    have hm := List.mem_of_find?_eq_some hfound
    have hp := List.find?_some hfound
    rw [Bool.and_eq_true, Bool.not_eq_true', Bool.eq_false_iff, ne_eq, hmem] at hp
    exact ⟨fun h => absurd h (by simp), fun h => absurd (h missing hm hp.1) hp.2⟩
  · rename_i hnone
    refine iff_of_true rfl fun param hm hreq => ?_
    have hp := List.find?_eq_none.mp hnone param hm
    rw [← hmem]
    simpa [hreq] using hp

/-- A list that passes fills no slot twice. -/
theorem nodup_of_checkArguments {rest : List (String × NodeId)} :
    ∀ earlier : List (String × NodeId), (earlier.map Prod.fst).Nodup →
      forest.checkArguments variant earlier rest = .ok () →
      ((earlier ++ rest).map Prod.fst).Nodup := by
  induction rest with
  | nil =>
      intro earlier hn _
      rw [List.append_nil]
      exact hn
  | cons given rest ih =>
      intro earlier hn hcheck
      obtain ⟨param, child⟩ := given
      obtain ⟨hname, _, _, hrest⟩ := checkArguments_cons.mp hcheck
      -- the name was not given earlier, so the names so far stay distinct
      have hmore : ((earlier ++ [(param, child)]).map Prod.fst).Nodup := by
        rw [List.map_append]
        refine List.nodup_append.mpr ⟨hn, List.nodup_singleton _, fun x hx y hy he => hname ?_⟩
        rw [he, List.mem_singleton.mp hy] at hx
        exact hx
      have hall := ih _ hmore hrest
      rwa [List.append_assoc] at hall

/-- **In a node that is being made a slot is filled exactly if the argument would have passed
before**, and is none of those that were put in since. -/
theorem Partway.setArgument_ok (h : Partway before variant id earlier grown)
    (hv : registry.get? variant.id = some variant) (hname : param ∉ earlier.map Prod.fst) :
    (setArgument registry id param child).runOn grown = (.ok (), after) ↔
      (child ∉ earlier.map Prod.snd ∧ before.checkBinding variant param child = .ok ()) ∧
        after = grown.fillSlot id param child := by
  obtain ⟨node, hid, hvar, hdet, hargs⟩ := h.node
  have hvacate : grown.vacate id param = grown := vacate_of_empty hid (h.empty hname hid)
  -- nothing lies above the node but the node
  have htop : ∀ {x}, x ∈ grown.lineage id → x = id := fun hx =>
    h.linked.eq_of_below_root hid (by simp [hdet]) ((mem_lineage h.linked hid).mp hx)
  rw [Forest.setArgument_ok]
  constructor
  · intro hx
    obtain ⟨found, definition, hf, hd, hbind, hlineage, rfl⟩ := hx
    cases hid.symm.trans hf
    cases hv.symm.trans (hvar ▸ hd)
    obtain ⟨slot, inner, hp, hi, hfree, ht⟩ := checkBinding_ok.mp hbind
    have hne : child ≠ id := (ne_of_not_mem_lineage h.linked hid hlineage).symm
    -- a child that was put in is held
    have hchild : child ∉ earlier.map Prod.snd := by
      intro hm
      have hc : child ∈ node.children := by
        rw [Node.children, hargs, List.map_map]
        exact hm
      obtain ⟨held, hheld, ho⟩ := h.linked.down hid hc
      cases hi.symm.trans hheld
      exact absurd (hfree.symm.trans ho) (by simp)
    have hold : before.get? child = some inner := (h.same child hne hchild).symm.trans hi
    exact ⟨⟨hchild, checkBinding_ok.mpr ⟨slot, inner, hp, hold, hfree, ht⟩⟩, by rw [hvacate]⟩
  · intro hx
    obtain ⟨⟨hchild, hbind⟩, rfl⟩ := hx
    obtain ⟨found, inner, slot, hf, _, hp, ht⟩ := h.fillable hname hchild hbind
    refine ⟨node, variant, hid, hvar ▸ hv, ?_, fun hm => hf.ne (htop hm).symm, by rw [hvacate]⟩
    exact checkBinding_ok.mpr ⟨slot, inner, hp, hf.there, hf.free, ht⟩

/-- A draft that is given another literal is what the literal makes from the start. -/
theorem update_plant (literal other : Option Literal) :
    (forest.plant variant literal).update ⟨forest.nextId⟩
        (fun node => { node with literal := other })
      = forest.plant variant other := by
  refine ext_get? (fun x => ?_) rfl
  rw [get?_update, get?_plant, get?_plant]
  split
  · rfl
  · rfl

end Forest

namespace Scenario

open Forest (Linked Partway)

variable {registry : Registry} {scenario grown after : Scenario} {id : NodeId} {name : VariantId}
  {variant : Variant}

/-- Fills slots of a node, one after the other. -/
def setArguments (registry : Registry) (id : NodeId) : List (String × NodeId) → Edit Unit
  | [] => return ()
  | (param, child) :: rest => do
    setArgument registry id param child
    setArguments registry id rest

/-- Drafts a node and fills its slots, one after the other. -/
def createFilled (registry : Registry) (name : VariantId) (arguments : List (String × NodeId)) :
    Edit NodeId := do
  let id ← createDraft registry name
  setArguments registry id arguments
  return id

/-- Drafts a node and gives it a literal. -/
def createLabelled (registry : Registry) (name : VariantId) (literal : Literal) : Edit NodeId := do
  let id ← createDraft registry name
  setLiteral id literal
  return id

/-- The slots of a node that is being made can be filled in turn exactly if the arguments would
have passed all together. -/
theorem setArguments_ok {before : Forest} (hv : registry.get? variant.id = some variant)
    (rest : List (String × NodeId)) : ∀ (earlier : List (String × NodeId)) {grown : Scenario},
    Partway before variant id earlier grown.forest → ((earlier ++ rest).map Prod.fst).Nodup →
    ((setArguments registry id rest).runOn grown = (.ok (), after) ↔
      before.checkArguments variant earlier rest = .ok () ∧
        after = { grown with forest := grown.forest.fillSlots id rest }) := by
  induction rest with
  | nil =>
      intro earlier grown _ _
      rw [setArguments, pure_ok]
      exact ⟨fun h => ⟨rfl, h.2.symm⟩, fun h => ⟨rfl, h.2.symm⟩⟩
  | cons given rest ih =>
      intro earlier grown h hn
      obtain ⟨param, child⟩ := given
      have hname : param ∉ earlier.map Prod.fst := by
        rw [List.map_append, List.map_cons, List.nodup_middle] at hn
        exact fun hm => (List.nodup_cons.mp hn).1 (List.mem_append_left _ hm)
      have hmore : (((earlier ++ [(param, child)]) ++ rest).map Prod.fst).Nodup := by
        rwa [List.append_assoc]
      rw [setArguments, bind_ok, Forest.checkArguments_cons]
      constructor
      · intro hx
        obtain ⟨_, middle, hfirst, hrest⟩ := hx
        obtain ⟨forest, hset, rfl⟩ := onForest_ok.mp hfirst
        -- the binding is checked against the forest as it was before any slot was filled
        obtain ⟨⟨hchild, hbind⟩, rfl⟩ := (h.setArgument_ok hv hname).mp hset
        obtain ⟨hcheck, rfl⟩ := (ih _ (h.fill hname hchild hbind) hmore).mp hrest
        exact ⟨⟨hname, hchild, hbind, hcheck⟩, rfl⟩
      · intro hx
        obtain ⟨⟨_, hchild, hbind, hcheck⟩, rfl⟩ := hx
        refine ⟨(), _, onForest_ok.mpr ⟨_, (h.setArgument_ok hv hname).mpr ⟨⟨hchild, hbind⟩, rfl⟩,
          rfl⟩, ?_⟩
        exact (ih _ (h.fill hname hchild hbind) hmore).mpr ⟨hcheck, rfl⟩

/-! ## Both ways -/

/-- A variant without literal is drafted without one. -/
theorem createDraft_plain (hv : registry.get? name = some variant) (hl : variant.literal = none) :
    (createDraft registry name).runOn scenario = (.ok ⟨scenario.forest.nextId⟩,
      { scenario with forest := scenario.forest.plant variant none }) := by
  refine onForest_ok.mpr ⟨_, Forest.createDraft_ok.mpr ⟨variant, none, hv, ?_, rfl, rfl⟩, rfl⟩
  rw [Forest.draftLiteral, hl]

theorem createFilled_iff (h : Linked scenario.forest) (hv : registry.get? name = some variant)
    (hl : variant.literal = none) {arguments : List (String × NodeId)} :
    (createNode registry name arguments none).runOn scenario = (.ok id, after) ↔
      (arguments.map Prod.fst).Nodup ∧
        (∀ param ∈ variant.params, param.isRequired = true →
          param.name ∈ arguments.map Prod.fst) ∧
        (createFilled registry name arguments).runOn scenario = (.ok id, after) := by
  have hpartway : Partway scenario.forest variant ⟨scenario.forest.nextId⟩ []
      (scenario.forest.plant variant none) := .plant h variant none
  have hid := Registry.get?_id hv
  rw [← Forest.checkComplete_ok]
  constructor
  · intro hcreated
    obtain ⟨forest, hcreate, rfl⟩ := onForest_ok.mp hcreated
    obtain ⟨found, hf, _, hcheck, hcomplete, rfl, rfl⟩ := Forest.createNode_ok.mp hcreate
    cases hv.symm.trans hf
    have hn : (arguments.map Prod.fst).Nodup :=
      Forest.nodup_of_checkArguments [] List.nodup_nil hcheck
    refine ⟨hn, hcomplete, ?_⟩
    rw [createFilled, bind_ok]
    refine ⟨_, _, createDraft_plain hv hl, bind_ok.mpr ⟨(), _, ?_, rfl⟩⟩
    exact (setArguments_ok hid arguments [] hpartway hn).mpr ⟨hcheck, rfl⟩
  · intro hx
    obtain ⟨hn, hcomplete, hfilled⟩ := hx
    rw [createFilled, bind_ok] at hfilled
    obtain ⟨_, middle, hdraft, hfilled⟩ := hfilled
    -- the draft is the same plant that the node would start from
    cases (createDraft_plain hv hl).symm.trans hdraft
    obtain ⟨_, last, hset, hend⟩ := bind_ok.mp hfilled
    obtain ⟨rfl, rfl⟩ := pure_ok.mp hend
    obtain ⟨hcheck, rfl⟩ := (setArguments_ok hid arguments [] hpartway hn).mp hset
    refine onForest_ok.mpr ⟨_, Forest.createNode_ok.mpr ⟨variant, hv, ?_, hcheck, hcomplete, rfl,
      rfl⟩, rfl⟩
    exact Forest.checkLiteral_ok.mpr hl

section Literal

variable {type : ValueType} {neutral literal : Literal}

/-- A value can be made with any literal of its type, and it has no arguments. -/
theorem createNode_literal (hv : registry.get? name = some variant) (hs : variant.Sound)
    (ht : variant.literal = some type) :
    (createNode registry name [] (some literal)).runOn scenario = (.ok id, after) ↔
      literal.type = type ∧ id = ⟨scenario.forest.nextId⟩ ∧
        after = { scenario with forest := scenario.forest.plant variant (some literal) } := by
  constructor
  · intro hcreated
    obtain ⟨forest, hcreate, rfl⟩ := onForest_ok.mp hcreated
    obtain ⟨found, hf, hliteral, _, _, rfl, rfl⟩ := Forest.createNode_ok.mp hcreate
    cases hv.symm.trans hf
    have htype := Forest.checkLiteral_ok.mp hliteral
    exact ⟨(Option.some.inj (ht.symm.trans htype)).symm, rfl, rfl⟩
  · intro hx
    obtain ⟨hliteral, rfl, rfl⟩ := hx
    refine onForest_ok.mpr ⟨_, Forest.createNode_ok.mpr ⟨variant, hv, ?_, rfl, ?_, rfl, rfl⟩, rfl⟩
    · exact Forest.checkLiteral_ok.mpr (by rw [ht, ← hliteral]; rfl)
    · refine Forest.checkComplete_ok.mpr fun param hp => ?_
      rw [hs.params_of_literal ht] at hp
      exact absurd hp (by simp)

/-- So can a draft of it be given any literal of its type. -/
theorem createLabelled_ok (hv : registry.get? name = some variant) (hs : variant.Sound)
    (ht : variant.literal = some type) (hneutral : Literal.neutral? type = some neutral) :
    (createLabelled registry name literal).runOn scenario = (.ok id, after) ↔
      literal.type = type ∧ id = ⟨scenario.forest.nextId⟩ ∧
        after = { scenario with forest := scenario.forest.plant variant (some literal) } := by
  have hkind := hs.kind_of_literal ht
  have hresult : variant.result = type :=
    Option.some.inj ((hs.literal_of_value hkind).symm.trans ht)
  -- a draft starts with the neutral literal of its type
  have hdraft : (createDraft registry name).runOn scenario = (.ok ⟨scenario.forest.nextId⟩,
      { scenario with forest := scenario.forest.plant variant (some neutral) }) := by
    refine onForest_ok.mpr ⟨_, Forest.createDraft_ok.mpr ⟨variant, some neutral, hv, ?_, rfl, rfl⟩,
      rfl⟩
    rw [Forest.draftLiteral, ht]
    dsimp only
    rw [hneutral]
  have hplanted : (scenario.forest.plant variant (some neutral)).get? ⟨scenario.forest.nextId⟩
      = some (scenario.forest.planted variant (some neutral)) := by
    rw [Forest.get?_plant, if_pos rfl]
  rw [createLabelled, bind_ok]
  constructor
  · intro hx
    obtain ⟨_, middle, hdrafted, hlabelled⟩ := hx
    cases hdraft.symm.trans hdrafted
    obtain ⟨_, last, hgiven, hend⟩ := bind_ok.mp hlabelled
    obtain ⟨rfl, rfl⟩ := pure_ok.mp hend
    obtain ⟨forest, hset, rfl⟩ := onForest_ok.mp hgiven
    obtain ⟨node, hn, _, hliteral, rfl⟩ := Forest.setLiteral_ok.mp hset
    cases hplanted.symm.trans hn
    refine ⟨hliteral.trans hresult, rfl, ?_⟩
    rw [← Forest.update_plant (some neutral) (some literal)]
  · intro hx
    obtain ⟨hliteral, rfl, rfl⟩ := hx
    refine ⟨_, _, hdraft, bind_ok.mpr ⟨(), _, onForest_ok.mpr ⟨_, Forest.setLiteral_ok.mpr
      ⟨_, hplanted, hkind, hliteral.trans hresult.symm, rfl⟩, rfl⟩, ?_⟩⟩
    rw [pure_ok, Forest.update_plant]
    exact ⟨rfl, rfl⟩

end Literal

/-- A node is made at once exactly if it can be made step by step. -/
structure Construction (registry : Registry) (scenario : Scenario) : Prop where
  /-- From a list of arguments, if no slot is filled twice and none that is required is left out.
  Node and script are the same then. -/
  filled : ∀ {name variant}, registry.get? name = some variant → variant.literal = none →
    ∀ arguments id after,
      (createNode registry name arguments none).runOn scenario = (.ok id, after) ↔
        (arguments.map Prod.fst).Nodup ∧
          (∀ param ∈ variant.params, param.isRequired = true →
            param.name ∈ arguments.map Prod.fst) ∧
          (createFilled registry name arguments).runOn scenario = (.ok id, after)
  /-- From a literal, of whatever type, if the variant can be drafted. -/
  labelled : ∀ {name variant type}, registry.get? name = some variant →
    variant.literal = some type → (Literal.neutral? type).isSome = true →
    ∀ literal id after,
      (createNode registry name [] (some literal)).runOn scenario = (.ok id, after) ↔
        (createLabelled registry name literal).runOn scenario = (.ok id, after)

/-- **Making a node at once and making it step by step agree** in every reachable script, for all
variants that were registered. -/
theorem Reached.construction (h : Reached scenario) (hr : Registry.Grows .empty registry) :
    Construction registry scenario where
  filled hv hl _ _ _ := createFilled_iff h.owned.linked hv hl
  labelled hv ht hneutral _ _ _ := by
    obtain ⟨neutral, hneutral⟩ := Option.isSome_iff_exists.mp hneutral
    have hs := hr.sound.get? hv
    exact (createNode_literal hv hs ht).trans (createLabelled_ok hv hs ht hneutral).symm

/-- In the greeting no text is free, so an action that says one can be drafted but not made. A text
can be made and then be said. -/
theorem construction_greeting :
    Construction Greeting.variants Greeting.script ∧
      ((createFilled Greeting.variants "Say" []).runOn Greeting.script).1 = .ok ⟨2⟩ ∧
      ((createNode Greeting.variants "Say" [] none).runOn Greeting.script).1
        = .error (.missingParameter "Say" "text") ∧
      ((createLabelled Greeting.variants "Word" (.text "ho")).runOn Greeting.script).1
        = .ok ⟨2⟩ := by
  exact ⟨Greeting.script_reachable.reached.construction Greeting.variants_grow,
    by decide +kernel, by decide +kernel, by decide +kernel⟩

end Scenario

end Rulebook
