import Mathlib.Data.List.Infix
import Rulebook.Proofs.Interchange.Building
import Rulebook.Proofs.Interchange.Entry
import Rulebook.Proofs.Registry

/-!
# Reading entry by entry

A node is read from its definition, or from that and the value line after it.
Where a place is *open* for a node of some type, reading the node succeeds and
grows the forest by exactly that node: `Progress.grow` is what comes out. What
came before and what comes after does not matter, so lines can be read piece by
piece, `Reads` being what one piece does.
-/

namespace Rulebook

open Attempt

theorem Path.split?_nil : Path.split? [] = none := rfl

theorem Path.split?_concat (above : Path) (param : String) :
    Path.split? (above ++ [param]) = some (above, param) := by
  unfold Path.split?
  rw [List.getLast?_concat, List.dropLast_concat]
  rfl

theorem Path.split?_eq_some {path above : Path} {param : String} :
    path.split? = some (above, param) ↔ path = above ++ [param] := by
  constructor
  · intro h
    obtain ⟨name, hl, he⟩ := Option.map_eq_some_iff.mp h
    obtain ⟨rfl, rfl⟩ := Prod.mk.inj he
    exact (List.dropLast_append_getLast? name hl).symm
  · rintro rfl
    exact Path.split?_concat above param

/-- A node of the type may be put at the path: nothing is there or below it yet, and the path is
the root's or leads to an empty slot of that type. -/
structure Open (registry : Registry) (progress : Progress) (path : Path) (result : ValueType) :
    Prop where
  linked : Forest.Linked progress.forest
  idle : progress.pending = none
  vacant : ∀ other, path <+: other → progress.placed.find? other = none
  slot : ∀ above param, path.split? = some (above, param) →
    ∃ parent node variant slot, progress.placed.find? above = some parent ∧
      progress.forest.get? parent = some node ∧ registry.get? node.variant = some variant ∧
      variant.param? param = some slot ∧ slot.type = result ∧ node.argument? param = none

namespace Progress

/-- The forest with one more node, in the slot that the path leads to. -/
def grownForest (progress : Progress) (path : Path) (variant : Variant) (literal : Option Literal) :
    Forest :=
  let planted := progress.forest.plant variant literal
  match path.split? with
  | none => planted
  | some (above, param) =>
    match progress.placed.find? above with
    | none => planted
    | some parent => planted.fillSlot parent param ⟨progress.forest.nextId⟩

/-- Reading after one more node. -/
def grow (progress : Progress) (path : Path) (variant : Variant) (literal : Option Literal) :
    Progress :=
  { forest := progress.grownForest path variant literal
    placed := progress.placed.put ⟨progress.forest.nextId⟩ path
    created := ⟨progress.forest.nextId⟩ :: progress.created
    root := if path.isEmpty then some ⟨progress.forest.nextId⟩ else progress.root
    pending := none }

end Progress

namespace Reading

variable {registry : Registry} {progress : Progress} {path : Path} {result : ValueType}
  {variant : Variant} {literal : Option Literal} {line : Nat}

/-- A new node fits every slot of its type, and nothing can lie below it. -/
theorem setArgument_planted {forest : Forest} (h : Forest.Linked forest) {parent : NodeId}
    {node : Node} {holder : Variant} {slot : Param} {param : String}
    (hp : forest.get? parent = some node) (hv : registry.get? node.variant = some holder)
    (hs : holder.param? param = some slot) (ht : slot.type = variant.result)
    (ha : node.argument? param = none) :
    (Forest.setArgument registry parent param ⟨forest.nextId⟩).runOn
        (forest.plant variant literal) =
      (.ok (), (forest.plant variant literal).fillSlot parent param ⟨forest.nextId⟩) := by
  have hlinked := Forest.linked_plant h variant literal
  have hparent : (forest.plant variant literal).get? parent = some node :=
    Forest.get?_plant_old h hp
  have hnew : (forest.plant variant literal).get? ⟨forest.nextId⟩
      = some (forest.planted variant literal) :=
    (Forest.get?_plant_iff h).mpr (Or.inl ⟨rfl, rfl⟩)
  rw [Forest.setArgument_ok]
  refine ⟨node, holder, hparent, hv, ?_, ?_, ?_⟩
  · exact Forest.checkBinding_ok.mpr ⟨slot, _, hs, hnew, rfl, ht.symm⟩
  · -- the new node holds nothing, so only itself is below it
    rw [Forest.mem_lineage hlinked hparent]
    intro hb
    rcases Relation.ReflTransGen.cases_head hb with he | ⟨c, ⟨n, hn, hc⟩, _⟩
    · rw [← he, h.get?_next] at hp
      exact absurd hp (by simp)
    · rw [hnew] at hn
      cases hn
      exact absurd hc (by simp [Forest.planted, Node.children])
  · rw [Forest.vacate_of_empty hparent ha]

/-- Placing the new node where there is room for it. -/
theorem place_planted (ho : Open registry progress path variant.result) :
    (place registry line path ⟨progress.forest.nextId⟩).runOn
        { progress with
          forest := progress.forest.plant variant literal
          created := ⟨progress.forest.nextId⟩ :: progress.created } =
      (.ok (), progress.grow path variant literal) := by
  unfold place Progress.grow Progress.grownForest
  have hidle := ho.idle
  cases hs : path.split? with
  | none =>
      have hnil : path = [] := by
        unfold Path.split? at hs
        rwa [Option.map_eq_none_iff, List.getLast?_eq_none_iff] at hs
      subst hnil
      rw [← hidle]
      rfl
  | some place =>
      obtain ⟨above, param⟩ := place
      obtain ⟨parent, node, holder, slot, hf, hp, hv, hsl, ht, ha⟩ := ho.slot above param hs
      -- the path ends in a name, so it is not the root that is placed
      have hne : path.isEmpty = false := by
        cases path with
        | nil => simp [Path.split?] at hs
        | cons _ _ => rfl
      dsimp only
      rw [runOn_bind, runOn_get]
      dsimp only
      rw [hf]
      dsimp only
      rw [runOn_bind, edit_runOn, setArgument_planted ho.linked hp hv hsl ht ha, hne, ← hidle]
      rfl

theorem define_open {name : VariantId} (ho : Open registry progress path result)
    (hv : registry.get? name = some variant) :
    (define registry line path name).runOn progress = (.ok variant, progress) := by
  have habove : ∀ above param, path.split? = some (above, param) →
      (progress.placed.find? above).isSome = true := by
    intro above param hs
    obtain ⟨parent, _, _, _, hf, _⟩ := ho.slot above param hs
    rw [hf]
    rfl
  unfold define
  rw [runOn_bind, runOn_get]
  dsimp only
  rw [ho.vacant path List.prefix_rfl, hv]
  cases hs : path.split? with
  | none => rfl
  | some place =>
      dsimp only
      rw [if_neg (by simp), if_pos (habove _ _ hs)]
      rfl

/-- A definition without a literal is read as a node. -/
theorem readDefinition_open {name : VariantId} (ho : Open registry progress path variant.result)
    (hv : registry.get? name = some variant) (hl : variant.literal = none) :
    (readDefinition registry line ⟨path, .definition, name.toList⟩).runOn progress =
      (.ok (), progress.grow path variant none) := by
  have hdraft : (Forest.createDraft registry variant.id).runOn progress.forest =
      (.ok ⟨progress.forest.nextId⟩, progress.forest.plant variant none) := by
    refine Forest.createDraft_ok.mpr ⟨variant, none, Registry.get?_id hv, ?_, rfl, rfl⟩
    unfold Forest.draftLiteral
    rw [hl]
  unfold readDefinition
  rw [runOn_bind, runOn_get]
  dsimp only
  rw [ho.idle]
  dsimp only
  rw [String.ofList_toList, runOn_bind, define_open ho hv]
  dsimp only
  rw [hl]
  dsimp only
  rw [make, runOn_bind, runOn_bind, edit_runOn, hdraft]
  exact place_planted ho

/-- A definition with a literal waits for its value line. -/
theorem readDefinition_waits {name : VariantId} {type : ValueType}
    (ho : Open registry progress path result) (hv : registry.get? name = some variant)
    (hl : variant.literal = some type) :
    (readDefinition registry line ⟨path, .definition, name.toList⟩).runOn progress =
      (.ok (), { progress with pending := some ⟨line, path, variant, type⟩ }) := by
  unfold readDefinition
  rw [runOn_bind, runOn_get]
  dsimp only
  rw [ho.idle]
  dsimp only
  rw [String.ofList_toList, runOn_bind, define_open ho hv]
  dsimp only
  rw [hl]
  rfl

variable {σ : Type} [Services σ] {scene : ReadingScene σ}

/-- The value line makes the node that was waited for. -/
theorem readValue_open {literal : Literal} {first : Nat} {payload : List Char}
    (ho : Open scene.registry progress path variant.result)
    (hv : scene.registry.get? variant.id = some variant) (hs : variant.Sound)
    (hl : variant.literal = some literal.type)
    (hr : LiteralText.read scene.scenario scene.services literal.type payload = .ok literal) :
    (readValue scene line ⟨path, .value, payload⟩).runOn
        { progress with pending := some ⟨first, path, variant, literal.type⟩ } =
      (.ok (), progress.grow path variant (some literal)) := by
  have hcreate : (Forest.createNode scene.registry variant.id [] (some literal)).runOn
      progress.forest =
      (.ok ⟨progress.forest.nextId⟩, progress.forest.plant variant (some literal)) := by
    refine Forest.createNode_ok.mpr ⟨variant, hv, ?_, rfl, ?_, rfl, rfl⟩
    · exact Forest.checkLiteral_ok.mpr hl
    · unfold Forest.checkComplete
      rw [hs.params_of_literal hl]
      rfl
  -- nothing but the waiting has changed since the definition was read
  have hidle : { progress with pending := none } = progress := by rw [← ho.idle]
  unfold readValue
  rw [runOn_bind, runOn_get]
  dsimp only
  rw [runOn_ite, if_pos rfl, runOn_bind, runOn_modify]
  dsimp only
  rw [hidle, runOn_bind, runOn_check, hr]
  dsimp only [Except.mapError]
  rw [make, runOn_bind, runOn_bind, edit_runOn, hcreate]
  exact place_planted ho

theorem readLine_chars {entry : Entry} (hn : Path.Named entry.path) :
    (readLine scene line entry.chars).runOn progress =
      (match entry.marker with
        | .definition => readDefinition scene.registry line entry
        | .value => readValue scene line entry).runOn progress := by
  unfold readLine
  rw [runOn_bind, runOn_check, Entry.parse_chars hn]
  rfl

/-! ## Pieces of a text -/

/-- Reads lines without asking whether anything is missing at the end. -/
def readPart (scene : ReadingScene σ) : List (Nat × List Char) → Reading Unit
  | [] => return ()
  | (line, text) :: rest => do
    readLine scene line text
    readPart scene rest

/-- Empty lines are skipped, and what is missing shows at the end. -/
theorem readLines_runOn (lines : List (Nat × List Char)) :
    (readLines scene lines).runOn progress =
      (readPart scene (lines.filter fun line => !line.2.isEmpty) >>= fun _ =>
        readLines scene []).runOn progress := by
  induction lines generalizing progress with
  | nil => rfl
  | cons line rest ih =>
      obtain ⟨number, text⟩ := line
      conv => lhs; rw [readLines]
      cases he : text.isEmpty with
      | true =>
          rw [List.filter_cons_of_neg (by simp [he])]
          exact ih
      | false =>
          rw [List.filter_cons_of_pos (by simp [he]), readPart]
          simp only [Bool.false_eq_true, if_false, runOn_bind]
          cases (readLine scene number text).runOn progress with
          | mk outcome after =>
              cases outcome with
              | error e => rfl
              | ok _ =>
                  dsimp only
                  rw [ih, runOn_bind]

theorem readPart_append (front back : List (Nat × List Char)) :
    (readPart scene (front ++ back)).runOn progress =
      (readPart scene front >>= fun _ => readPart scene back).runOn progress := by
  induction front generalizing progress with
  | nil => rfl
  | cons line rest ih =>
      obtain ⟨number, text⟩ := line
      rw [List.cons_append, readPart, readPart]
      simp only [runOn_bind]
      cases (readLine scene number text).runOn progress with
      | mk outcome after =>
          cases outcome with
          | error e => rfl
          | ok _ =>
              dsimp only
              rw [ih, runOn_bind]

/-- Reading the lines, whatever their numbers, leads from one state to the other. -/
def Reads (scene : ReadingScene σ) (progress : Progress) (lines : List (List Char))
    (after : Progress) : Prop :=
  ∀ numbered : List (Nat × List Char), numbered.map Prod.snd = lines →
    (readPart scene numbered).runOn progress = (.ok (), after)

namespace Reads

variable {after mid : Progress} {lines others : List (List Char)}

theorem nil : Reads scene progress [] progress := by
  intro numbered hn
  rw [List.map_eq_nil_iff.mp hn]
  rfl

theorem append (h : Reads scene progress lines mid) (ho : Reads scene mid others after) :
    Reads scene progress (lines ++ others) after := by
  intro numbered hn
  obtain ⟨front, back, rfl, hf, hb⟩ := List.map_eq_append_iff.mp hn
  rw [readPart_append, runOn_bind, h front hf]
  exact ho back hb

theorem single {text : List Char}
    (h : ∀ line, (readLine scene line text).runOn progress = (.ok (), after)) :
    Reads scene progress [text] after := by
  intro numbered hn
  obtain ⟨line, rest, rfl, hl, hr⟩ := List.map_eq_cons_iff.mp hn
  obtain ⟨number, other⟩ := line
  cases hl
  rw [List.map_eq_nil_iff.mp hr, readPart, runOn_bind, h]
  rfl

/-- A text whose lines lead to a state with a root, and with nothing waited for, is read. -/
theorem decodeLines {registry : Registry} {scenario : Scenario} {services : σ} {root : NodeId}
    (h : Reads ⟨registry, scenario, services⟩ { forest := scenario.forest } lines after)
    (hidle : after.pending = none) (hroot : after.root = some root)
    {numbered : List (Nat × List Char)}
    (hn : (numbered.filter fun line => !line.2.isEmpty).map Prod.snd = lines) :
    (Scenario.decodeLines registry services numbered).runOn scenario
      = (.ok root, { scenario with forest := after.forest }) := by
  refine Scenario.decodeLines_ok.mpr ⟨after, ?_, rfl⟩
  rw [readLines_runOn, runOn_bind, h _ hn]
  exact readLines_nil_ok.mpr ⟨hidle, hroot, rfl⟩

/-- **A node is read from its entries** where a place is open for it. -/
theorem entries {name : VariantId} {own : List Entry}
    (ho : Open scene.registry progress path variant.result)
    (hv : scene.registry.get? name = some variant) (hs : variant.Sound) (hn : path.Named)
    (hl : variant.literal = literal.map (·.type))
    (hown : (literal = none ∧ own = [⟨path, .definition, name.toList⟩]) ∨
      ∃ value payload, literal = some value ∧
        own = [⟨path, .definition, name.toList⟩, ⟨path, .value, payload⟩] ∧
        LiteralText.read scene.scenario scene.services value.type payload = .ok value) :
    Reads scene progress (own.map Entry.chars) (progress.grow path variant literal) := by
  rcases hown with ⟨rfl, rfl⟩ | ⟨value, payload, rfl, rfl, hread⟩
  · refine single fun line => ?_
    rw [readLine_chars hn]
    exact readDefinition_open ho hv hl
  · have hid := Registry.id_of_get? hv
    intro numbered hmap
    -- the line of the definition is remembered, so the two lines are read together
    obtain ⟨first, others, rfl, hf, hothers⟩ := List.map_eq_cons_iff.mp hmap
    obtain ⟨second, rest, rfl, hsec, hr⟩ := List.map_eq_cons_iff.mp hothers
    obtain ⟨n, text⟩ := first
    obtain ⟨m, other⟩ := second
    have hfirst : text = Entry.chars ⟨path, .definition, name.toList⟩ := hf
    have hsecond : other = Entry.chars ⟨path, .value, payload⟩ := hsec
    rw [hfirst, hsecond, List.map_eq_nil_iff.mp hr, readPart, runOn_bind, readLine_chars hn,
      readDefinition_waits ho hv hl]
    dsimp only
    rw [readPart, runOn_bind, readLine_chars hn]
    dsimp only
    rw [readValue_open ho (hid ▸ hv) hs hl hread]
    rfl

end Reads

end Reading

end Rulebook
