import Rulebook.Proofs.Forest.Snapshot
import Rulebook.Proofs.ResourceKey
import Rulebook.Snapshot

/-!
# Keys are checked wherever they are read

A snapshot comes from anywhere. To see what its reader checks, it is compared with one
that takes any text for a key: the reader accepts what that one does, if every such text
is a key, and then both read the same. So there is no place in a snapshot, however deep,
where a text gets into a script as a key that is none.

That a reader *tightens* another in this way is kept by every way of putting formats
together. Only at the keys themselves there is something to see.
-/

namespace Rulebook

open Format

namespace Format

variable {α β γ δ : Type}

/-- What the strict reader reads is what the loose one does, if it passes the check. -/
def Tightens (check : α → Option β) (loose : List UInt8 → Option (α × List UInt8))
    (strict : List UInt8 → Option (β × List UInt8)) : Prop :=
  ∀ bytes, strict bytes = (loose bytes).bind fun read => (check read.1).map (·, read.2)

namespace Tightens

variable {check : α → Option β} {check' : γ → Option δ}

/-- Where nothing is checked, both readers are the same. -/
theorem refl (read : List UInt8 → Option (α × List UInt8)) : Tightens some read read := by
  intro bytes
  cases read bytes <;> rfl

/-- What comes first is not checked. -/
theorem after (first : List UInt8 → Option (γ × List UInt8))
    {loose : γ → List UInt8 → Option (α × List UInt8)}
    {strict : γ → List UInt8 → Option (β × List UInt8)}
    (h : ∀ c, Tightens check (loose c) (strict c)) :
    Tightens check (fun bytes => (first bytes).bind fun read => loose read.1 read.2)
      fun bytes => (first bytes).bind fun read => strict read.1 read.2 := by
  intro bytes
  dsimp only
  cases first bytes with
  | none => rfl
  | some read => exact h read.1 read.2

variable {loose : List UInt8 → Option (α × List UInt8)}
  {strict : List UInt8 → Option (β × List UInt8)}

/-- Two values after each other make one. -/
theorem both {ε ζ : Type} {loose' : List UInt8 → Option (γ × List UInt8)}
    {strict' : List UInt8 → Option (δ × List UInt8)} {into : α → γ → ε} {into' : β → δ → ζ}
    {whole : ε → Option ζ} (h : Tightens check loose strict) (h' : Tightens check' loose' strict')
    (hmade : ∀ a c, whole (into a c) = (check a).bind fun b => (check' c).map (into' b)) :
    Tightens whole
      (fun bytes => (loose bytes).bind fun read =>
        (loose' read.2).bind fun next => some (into read.1 next.1, next.2))
      fun bytes => (strict bytes).bind fun read =>
        (strict' read.2).bind fun next => some (into' read.1 next.1, next.2) := by
  intro bytes
  dsimp only
  rw [h bytes]
  cases loose bytes with
  | none => rfl
  | some read =>
      rw [Option.bind_some, Option.bind_some]
      cases hcheck : check read.1 with
      | none =>
          -- the strict reader has ended here; the loose one goes on, but the whole does not pass
          cases loose' read.2 <;> simp [hmade, hcheck]
      | some b =>
          rw [Option.map_some, Option.bind_some, h' read.2]
          cases loose' read.2 with
          | none => rfl
          | some next => cases hnext : check' next.1 <;> simp [hmade, hcheck, hnext]

/-- The same of values that are made of those. -/
theorem made {into : α → γ} {into' : β → δ} (h : Tightens check loose strict)
    (hmade : ∀ a, check' (into a) = (check a).map into') :
    Tightens check' (fun bytes => (loose bytes).bind fun read => some (into read.1, read.2))
      fun bytes => (strict bytes).bind fun read => some (into' read.1, read.2) := by
  intro bytes
  dsimp only
  rw [h bytes]
  cases loose bytes with
  | none => rfl
  | some read =>
      rw [Option.bind_some, Option.bind_some, Option.bind_some, hmade]
      cases check read.1 <;> rfl

end Tightens

section Combining

variable {check : α → Option β} {check' : γ → Option δ} {loose : Format α} {strict : Format β}

theorem tightens_convert (format : Format α) (into : α → Option β) (back : β → α) :
    Tightens into format.read (format.convert into back).read := by
  intro bytes
  show (format.read bytes).bind (fun read => (into read.1).bind fun b => some (b, read.2)) = _
  cases format.read bytes with
  | none => rfl
  | some read => cases h : into read.1 <;> simp [h]

theorem tightens_map {into : α → γ} {back : γ → α} {into' : β → δ} {back' : δ → β}
    (h : Tightens check loose.read strict.read)
    (hmade : ∀ a, check' (into a) = (check a).map into') :
    Tightens check' (loose.map into back).read (strict.map into' back').read :=
  h.made hmade

theorem tightens_pair {loose' : Format γ} {strict' : Format δ}
    (h : Tightens check loose.read strict.read) (h' : Tightens check' loose'.read strict'.read) :
    Tightens (fun ac : α × γ => (check ac.1).bind fun b => (check' ac.2).map (b, ·))
      (loose.pair loose').read (strict.pair strict').read :=
  h.both h' fun _ _ => rfl

theorem tightens_readMany (h : Tightens check loose.read strict.read) (count : Nat) :
    Tightens (List.mapM check) (readMany loose.read count) (readMany strict.read count) := by
  induction count with
  | zero => exact fun bytes => rfl
  | succ count ih =>
      refine h.both ih fun a others => ?_
      rw [List.mapM_cons]
      cases check a with
      | none => rfl
      | some b => cases List.mapM check others <;> rfl

theorem tightens_list (h : Tightens check loose.read strict.read) :
    Tightens (List.mapM check) loose.list.read strict.list.read :=
  .after nat64.read fun count => tightens_readMany h count

theorem tightens_option (h : Tightens check loose.read strict.read) :
    Tightens (Option.mapM check) loose.option.read strict.option.read := by
  have hvalue : ∀ there : Bool, Tightens (Option.mapM check)
      (fun rest => if there then (loose.read rest).bind fun read => some (some read.1, read.2)
        else some (none, rest))
      fun rest => if there then (strict.read rest).bind fun read => some (some read.1, read.2)
        else some (none, rest) := by
    intro there
    cases there with
    | false => exact fun rest => rfl
    | true => exact h.made fun a => by simp
  exact .after bool.read hvalue

theorem tightens_branch {wrap : α → γ} {unwrap? : γ → Option α} {wrap' : β → δ}
    {unwrap'? : δ → Option β} (h : Tightens check loose.read strict.read)
    (hmade : ∀ a, check' (wrap a) = (check a).map wrap') :
    Tightens check' (Branch.of loose wrap unwrap?).read (Branch.of strict wrap' unwrap'?).read :=
  h.made hmade

theorem tightens_branches {all : List (Branch α)} {all' : List (Branch β)}
    (h : List.Forall₂ (fun branch branch' => Tightens check branch.read branch'.read) all all') :
    Tightens check (branches all).read (branches all').read := by
  have hpayload : ∀ index : Nat, Tightens check
      (fun rest => all[index]?.bind fun branch : Branch α => branch.read rest)
      fun rest => all'[index]?.bind fun branch : Branch β => branch.read rest := by
    intro index
    induction h generalizing index with
    | nil => exact fun rest => rfl
    | cons hfirst _ ih =>
        cases index with
        | zero => exact hfirst
        | succ index => exact ih index
  exact .after nat32.read hpayload

end Combining

end Format

/-- The key that a literal holds. -/
def Literal.key? : Literal → Option ResourceKey
  | block key | item key => some key
  | _ => none

/-- The key that the literal of a node holds. -/
def Node.key? (node : Node) : Option ResourceKey := node.literal.bind Literal.key?

namespace Snapshot

/-! ## Snapshots as they come -/

/-- A literal of which it is not known whether the text in it is a key. -/
inductive RawLiteral where
  | int (value : Int64)
  | text (value : String)
  | bool (value : Bool)
  | comparator (value : Comparator)
  | damageType (value : DamageType)
  | block (key : String)
  | item (key : String)
  | region (id : RegionId)

/-- A node with such a literal. -/
structure RawNode where
  id : NodeId
  variant : VariantId
  kind : NodeKind
  result : ValueType
  literal : Option RawLiteral
  arguments : List Binding
  owner : Owner

/-- Such nodes, in the order in which they were written. -/
structure RawForest where
  rows : List (NodeId × RawNode)
  nextId : Nat

/-- A script of such nodes. -/
structure RawScenario where
  name : String
  forest : RawForest
  triggers : List Trigger
  regions : List Region
  nextTrigger : Nat
  nextRegion : Nat

/-- A literal with any text for a key. -/
def rawLiteral : Format RawLiteral :=
  branches
    [.of integer .int fun | .int value => some value | _ => none,
     .of text .text fun | .text value => some value | _ => none,
     .of bool .bool fun | .bool value => some value | _ => none,
     .of (among Comparator.all) .comparator fun | .comparator value => some value | _ => none,
     .of (among DamageType.all) .damageType fun | .damageType value => some value | _ => none,
     .of text .block fun | .block key => some key | _ => none,
     .of text .item fun | .item key => some key | _ => none,
     .of regionId .region fun | .region id => some id | _ => none]

/-- A node with any text for a key. -/
def rawNode : Format RawNode :=
  (nodeId.pair <| text.pair <| (among NodeKind.all).pair <| (among ValueType.all).pair <|
    (option rawLiteral).pair <| (list binding).pair owner).map
    (fun (id, variant, kind, result, literal, arguments, owner) =>
      ⟨id, variant, kind, result, literal, arguments, owner⟩)
    (fun node =>
      (node.id, node.variant, node.kind, node.result, node.literal, node.arguments, node.owner))

/-- Nodes with any texts for keys. -/
def rawForest : Format RawForest :=
  ((list (nodeId.pair rawNode)).pair nat32).map (fun (rows, nextId) => ⟨rows, nextId⟩)
    (fun raw => (raw.rows, raw.nextId))

/-- A script with any texts for keys. -/
def rawScenario : Format RawScenario :=
  (text.pair <| rawForest.pair <| (list trigger).pair <| (list region).pair <|
    nat32.pair nat32).map
    (fun (name, forest, triggers, regions, nextTrigger, nextRegion) =>
      ⟨name, forest, triggers, regions, nextTrigger, nextRegion⟩)
    (fun raw =>
      (raw.name, raw.forest, raw.triggers, raw.regions, raw.nextTrigger, raw.nextRegion))

/-! ## Checking the keys -/

namespace RawLiteral

/-- The text that must be a key. -/
def key? : RawLiteral → Option String
  | block key | item key => some key
  | _ => none

/-- The literal, if that text is a key. -/
def check? : RawLiteral → Option Literal
  | int value => some (.int value)
  | text value => some (.text value)
  | bool value => some (.bool value)
  | comparator value => some (.comparator value)
  | damageType value => some (.damageType value)
  | block key => (ResourceKey.parse? key).map .block
  | item key => (ResourceKey.parse? key).map .item
  | region id => some (.region id)

end RawLiteral

namespace RawNode

/-- The text in the literal that must be a key. -/
def key? (raw : RawNode) : Option String := raw.literal.bind RawLiteral.key?

/-- The node, if that text is a key. -/
def check? (raw : RawNode) : Option Node :=
  (raw.literal.mapM RawLiteral.check?).map fun literal =>
    ⟨raw.id, raw.variant, raw.kind, raw.result, literal, raw.arguments, raw.owner⟩

end RawNode

/-- A node with its number, if the text in it is a key. -/
def checkRow? (row : NodeId × RawNode) : Option (NodeId × Node) := row.2.check?.map (row.1, ·)

/-- The nodes, if all texts in them are keys. -/
def RawForest.check? (raw : RawForest) : Option Forest :=
  (raw.rows.mapM checkRow?).map fun rows => ⟨.ofList rows, raw.nextId⟩

namespace RawScenario

/-- All texts that must be keys. -/
def keys (raw : RawScenario) : List String := raw.forest.rows.filterMap fun row => row.2.key?

/-- The script, if all those texts are keys. -/
def check? (raw : RawScenario) : Option Scenario :=
  raw.forest.check?.map fun forest =>
    ⟨raw.name, forest, raw.triggers, raw.regions, raw.nextTrigger, raw.nextRegion⟩

end RawScenario

theorem tightens_literal : Tightens RawLiteral.check? rawLiteral.read literal.read := by
  have hkey : Tightens ResourceKey.parse? text.read key.read :=
    tightens_convert text ResourceKey.parse? ResourceKey.text
  have hsame : ∀ {α : Type} {format : Format α} {wrap : α → RawLiteral} {wrap' : α → Literal}
      {unwrap? : RawLiteral → Option α} {unwrap'? : Literal → Option α},
      (∀ a, (wrap a).check? = some (wrap' a)) →
      Tightens RawLiteral.check? (Branch.of format wrap unwrap?).read
        (Branch.of format wrap' unwrap'?).read := fun h => tightens_branch (.refl _) h
  exact tightens_branches <|
    .cons (hsame fun _ => rfl) <| .cons (hsame fun _ => rfl) <| .cons (hsame fun _ => rfl) <|
    .cons (hsame fun _ => rfl) <| .cons (hsame fun _ => rfl) <|
    .cons (tightens_branch hkey fun _ => rfl) <| .cons (tightens_branch hkey fun _ => rfl) <|
    .cons (hsame fun _ => rfl) .nil

theorem tightens_node : Tightens RawNode.check? rawNode.read node.read := by
  refine tightens_map (tightens_pair (.refl _) <| tightens_pair (.refl _) <|
    tightens_pair (.refl _) <| tightens_pair (.refl _) <|
    tightens_pair (tightens_option tightens_literal) <|
    tightens_pair (.refl _) (.refl _)) ?_
  rintro ⟨id, variant, kind, result, literal, arguments, owner⟩
  show (literal.mapM RawLiteral.check?).map _ = _
  cases literal.mapM RawLiteral.check? <;> rfl

theorem tightens_forest (order : Forest → List (NodeId × Node)) :
    Tightens RawForest.check? rawForest.read (forest order).read := by
  have hrow : Tightens checkRow? (nodeId.pair rawNode).read (nodeId.pair node).read :=
    tightens_pair (.refl _) tightens_node
  refine tightens_map (tightens_pair (tightens_list hrow) (.refl _)) ?_
  rintro ⟨rows, nextId⟩
  show (rows.mapM checkRow?).map _ = _
  cases rows.mapM checkRow? <;> rfl

/-- **Every key in a script is checked**, and nothing else is. -/
theorem tightens_scenario (order : Forest → List (NodeId × Node)) :
    Tightens RawScenario.check? rawScenario.read (scenario order).read := by
  refine tightens_map (tightens_pair (.refl _) <| tightens_pair (tightens_forest order) <|
    tightens_pair (.refl _) <| tightens_pair (.refl _) <| tightens_pair (.refl _) (.refl _)) ?_
  rintro ⟨name, forest, triggers, regions, nextTrigger, nextRegion⟩
  show forest.check?.map _ = _
  cases forest.check? <;> rfl

/-! ## What passes -/

theorem RawLiteral.exists_check?_iff {raw : RawLiteral} :
    (∃ literal, raw.check? = some literal) ↔
      ∀ text ∈ raw.key?, ∃ key, ResourceKey.parse? text = some key := by
  cases raw <;> simp [check?, key?]

theorem RawNode.exists_check?_iff {raw : RawNode} :
    (∃ node, raw.check? = some node) ↔
      ∀ text ∈ raw.key?, ∃ key, ResourceKey.parse? text = some key := by
  have hliteral : (∃ node, raw.check? = some node) ↔
      ∀ literal ∈ raw.literal, ∃ checked, literal.check? = some checked := by
    rw [check?]
    cases raw.literal <;> simp
  rw [hliteral, key?]
  cases raw.literal with
  | none => simp
  | some literal => simpa using literal.exists_check?_iff

theorem RawForest.check?_eq_some {raw : RawForest} {forest : Forest} :
    raw.check? = some forest ↔ ∃ rows, List.Forall₂ (fun row checked => row.1 = checked.1 ∧
      row.2.check? = some checked.2) raw.rows rows ∧ ⟨.ofList rows, raw.nextId⟩ = forest := by
  have hrow : ∀ row checked, checkRow? row = some checked ↔
      row.1 = checked.1 ∧ row.2.check? = some checked.2 := by
    rintro ⟨id, raw⟩ ⟨id', node⟩
    rw [checkRow?, Option.map_eq_some_iff]
    simp [and_comm]
  rw [check?, Option.map_eq_some_iff]
  simp only [Forest.mapM_eq_some, hrow]

theorem RawForest.exists_check?_iff {raw : RawForest} :
    (∃ forest, raw.check? = some forest) ↔ ∀ row ∈ raw.rows, ∃ node, row.2.check? = some node := by
  constructor
  · intro ⟨forest, h⟩ row hrow
    obtain ⟨rows, hrows, _⟩ := check?_eq_some.mp h
    obtain ⟨checked, _, _, hchecked⟩ := SideBySide.exists_right hrows hrow
    exact ⟨checked.2, hchecked⟩
  · intro h
    have hall : ∀ row ∈ raw.rows, ∃ checked : NodeId × Node,
        row.1 = checked.1 ∧ row.2.check? = some checked.2 := by
      intro row hrow
      obtain ⟨node, hnode⟩ := h row hrow
      exact ⟨(row.1, node), rfl, hnode⟩
    obtain ⟨rows, hrows⟩ := SideBySide.exists_list hall
    exact ⟨_, check?_eq_some.mpr ⟨rows, hrows, rfl⟩⟩

/-- A script passes exactly if all texts in the place of keys are keys. -/
theorem RawScenario.exists_check?_iff {raw : RawScenario} :
    (∃ scenario, raw.check? = some scenario) ↔
      ∀ text ∈ raw.keys, ∃ key, ResourceKey.parse? text = some key := by
  have hforest : (∃ scenario, raw.check? = some scenario) ↔
      ∃ forest, raw.forest.check? = some forest := by
    rw [check?]
    cases raw.forest.check? <;> simp
  simp only [hforest, RawForest.exists_check?_iff, RawNode.exists_check?_iff, keys,
    List.mem_filterMap]
  exact ⟨fun h text ⟨row, hrow, htext⟩ => h row hrow text htext,
    fun h row hrow text htext => h text ⟨row, hrow, htext⟩⟩

/-! ## What is in a script that passed -/

/-- A row that counts is one of those that were written. -/
theorem mem_of_getElem?_insertMany {rows : List (NodeId × Node)} {id : NodeId} {node : Node} :
    ∀ {nodes : Std.ExtTreeMap NodeId Node}, (nodes.insertMany rows)[id]? = some node →
      nodes[id]? = some node ∨ (id, node) ∈ rows := by
  induction rows with
  | nil =>
      intro nodes h
      rw [Std.ExtTreeMap.insertMany_nil] at h
      exact .inl h
  | cons row rows ih =>
      intro nodes h
      rw [Std.ExtTreeMap.insertMany_cons] at h
      -- a later row may have the same key, and then it is the one that is found
      rcases ih h with h | h
      · rw [Std.ExtTreeMap.getElem?_insert] at h
        split at h
        next heq =>
          cases h
          rw [← Std.LawfulEqOrd.eq_of_compare heq]
          exact .inr List.mem_cons_self
        next => exact .inl h
      · exact .inr (List.mem_cons_of_mem _ h)

theorem RawLiteral.key?_of_check? {raw : RawLiteral} {literal : Literal}
    (h : raw.check? = some literal) : raw.key? = literal.key?.map ResourceKey.text := by
  cases raw with
  | block written | item written =>
      obtain ⟨key, hkey, rfl⟩ := Option.map_eq_some_iff.mp h
      exact congrArg some (ResourceKey.parse?_eq_some.mp hkey).symm
  | _ =>
      cases h
      rfl

theorem RawNode.key?_of_check? {raw : RawNode} {node : Node} (h : raw.check? = some node) :
    raw.key? = node.key?.map ResourceKey.text := by
  obtain ⟨literal, hliteral, rfl⟩ := Option.map_eq_some_iff.mp h
  rw [key?, Node.key?]
  cases hraw : raw.literal with
  | none =>
      rw [hraw] at hliteral
      cases hliteral
      rfl
  | some written =>
      rw [hraw] at hliteral
      obtain ⟨checked, hchecked, rfl⟩ := Option.map_eq_some_iff.mp hliteral
      exact written.key?_of_check? hchecked

/-- **The keys of a script are the texts** that were written in their place. -/
theorem RawScenario.text_mem_keys {raw : RawScenario} {scenario : Scenario}
    (h : raw.check? = some scenario) {id : NodeId} {node : Node}
    (hn : scenario.forest.get? id = some node) {key : ResourceKey} (hk : node.key? = some key) :
    key.text ∈ raw.keys := by
  obtain ⟨forest, hforest, rfl⟩ := Option.map_eq_some_iff.mp h
  obtain ⟨rows, hrows, rfl⟩ := RawForest.check?_eq_some.mp hforest
  -- of rows with one number only the last counts, but that is a row too
  have hmem : (id, node) ∈ rows := by
    rw [Forest.get?, Std.ExtTreeMap.ofList_eq_insertMany_empty] at hn
    exact (mem_of_getElem?_insertMany hn).resolve_left (by simp)
  obtain ⟨row, hrow, _, hchecked⟩ := SideBySide.exists_left hrows hmem
  have htext : row.2.key? = some key.text := by
    rw [row.2.key?_of_check? hchecked, hk, Option.map_some]
  exact List.mem_filterMap.mpr ⟨row, hrow, htext⟩

end Snapshot

/-- Reading a script comes to reading it with any texts for keys, and then checking them. -/
theorem Scenario.ofBytes?_eq (bytes : List UInt8) :
    ofBytes? bytes = (Snapshot.rawScenario.decode bytes).bind Snapshot.RawScenario.check? := by
  rw [ofBytes?, decode, Snapshot.tightens_scenario Snapshot.byNumber bytes, decode]
  cases Snapshot.rawScenario.read bytes with
  | none => rfl
  | some read => cases h : read.1.check? <;> simp [h]

namespace ResourceKey

/-- What is known of every key, whether it was written, put together or stored. -/
structure Reliable : Prop where
  /-- A text is read as a key exactly if it is two halves with a colon between them. -/
  accepted : ∀ text, (∃ key, parse? text = some key) ↔
    ∃ space path, text = space ++ ":" ++ path ∧ IsKeyHalf space ∧ IsKeyHalf path
  /-- The key has those halves. -/
  halves : ∀ {space path}, IsKeyHalf space → IsKeyHalf path →
    ∃ key, parse? (space ++ ":" ++ path) = some key ∧ key.space = space ∧ key.path = path
  /-- The text cannot be cut at a colon in any other way. -/
  unique : ∀ {text key space path}, parse? text = some key → text = space ++ ":" ++ path →
    space = key.space ∧ path = key.path
  /-- The key is written as the text, and read from it again. -/
  written : ∀ {text key}, parse? text = some key → key.text = text ∧ parse? key.text = some key
  /-- Two texts are made a key exactly if each may be one half. -/
  made : ∀ space path, (∃ key, ofParts? space path = some key) ↔ IsKeyHalf space ∧ IsKeyHalf path
  /-- They are the halves then. -/
  parts : ∀ {space path key}, ofParts? space path = some key → key.space = space ∧ key.path = path
  /-- One may as well put them together and read the text. -/
  joined : ∀ space path, ofParts? space path = parse? (space ++ ":" ++ path)
  /-- A script is read from bytes exactly if it could be read with any texts for keys, and all of
  these are keys. -/
  stored : ∀ bytes, (∃ scenario, Scenario.ofBytes? bytes = some scenario) ↔
    ∃ raw, Snapshot.rawScenario.decode bytes = some raw ∧
      ∀ text ∈ raw.keys, ∃ key, parse? text = some key
  /-- Every key in the script is one of those texts, and it is read from that. -/
  loaded : ∀ {bytes scenario id node key}, Scenario.ofBytes? bytes = some scenario →
    scenario.forest.get? id = some node → node.key? = some key →
    parse? key.text = some key ∧
      ∃ raw, Snapshot.rawScenario.decode bytes = some raw ∧ key.text ∈ raw.keys

/-- **A key is a key wherever it comes from.** -/
theorem reliable : Reliable := by
  refine ⟨fun _ => exists_parse?_iff, ?halves, ?unique, ?written, fun _ _ => exists_ofParts?_iff,
    ?parts, fun space path => (parse?_joined space path).symm, ?stored, ?loaded⟩
  case halves =>
    intro space path hspace hpath
    obtain ⟨key, hkey⟩ := exists_ofParts?_iff.mpr ⟨hspace, hpath⟩
    obtain ⟨_, _, hparts⟩ := ofParts?_eq_some.mp hkey
    exact ⟨key, (parse?_joined space path).trans hkey, hparts⟩
  case unique =>
    intro text key space path h htext
    exact eq_of_text_eq ((parse?_eq_some.mp h).trans htext)
  case written =>
    intro text key h
    exact ⟨parse?_eq_some.mp h, parse?_text key⟩
  case parts =>
    intro space path key h
    exact (ofParts?_eq_some.mp h).2.2
  case stored =>
    intro bytes
    rw [Scenario.ofBytes?_eq]
    simp only [Option.bind_eq_some_iff, ← Snapshot.RawScenario.exists_check?_iff]
    exact exists_comm.trans (exists_congr fun raw => by simp)
  case loaded =>
    intro bytes scenario id node key h hn hk
    rw [Scenario.ofBytes?_eq] at h
    obtain ⟨raw, hraw, hcheck⟩ := Option.bind_eq_some_iff.mp h
    exact ⟨parse?_text key, raw, hraw, raw.text_mem_keys hcheck hn hk⟩

end ResourceKey

/-! ## A larder

Two nodes were written under one number, so the later one counts. -/

namespace Larder

/-- An item, whose key may be any text. -/
def item (key : String) : Snapshot.RawNode :=
  ⟨⟨0⟩, "ItemValue", .value, .item, some (.item key), [], .detached⟩

/-- The script with any text for the key that does not count. -/
def bytes (key : String) : List UInt8 :=
  Snapshot.rawScenario.write
    ⟨"larder", ⟨[(⟨0⟩, item key), (⟨0⟩, item "core:apple")], 1⟩, [], [], 0, 0⟩

end Larder

namespace ResourceKey

/-- A line feed is refused in it all the same. -/
theorem reliable_larder : Reliable ∧
    (parse? "mod-a:ores/copper.raw").map (fun key => (key.space, key.path))
      = some ("mod-a", "ores/copper.raw") ∧
    parse? "core:a:b" = none ∧ ofParts? "core:a" "b" = none ∧
    ((Scenario.ofBytes? (Larder.bytes "core:pear")).bind fun script =>
      (script.forest.get? ⟨0⟩).bind Node.key?).map text = some "core:apple" ∧
    Scenario.ofBytes? (Larder.bytes "core:pe\nar") = none :=
  ⟨reliable, by decide +kernel, by decide +kernel, by decide +kernel, by decide +kernel,
    by decide +kernel⟩

end ResourceKey

end Rulebook
