import Rulebook.Proofs.Interchange.RoundTrip
import Rulebook.Proofs.Scenario.Insertion
import Rulebook.Proofs.TreeWalk

/-!
# The lines of an encoding

The lines that are written of a node follow the walk through its tree: a line for
the definition of each part, and directly after it a line for its literal if it
has one. So there are as many lines as the tree has nodes and literals, and a node
is defined before anything below it.

The lines are a name for the tree. What was written can be read back by a host
that knows all it could refer to, so of two nodes of a script that are written in
the same lines neither looks different from the other.
-/

namespace Rulebook

open Scenario (Sound Reachable)

namespace Entry

theorem text_definition (path : Path) (variant : VariantId) :
    Entry.text ⟨path, .definition, variant.toList⟩ = path.text ++ "#" ++ variant := by
  rw [← String.toList_inj]
  simp [text, chars, Path.text, Marker.char]

theorem text_value (path : Path) (payload : List Char) :
    Entry.text ⟨path, .value, payload⟩ = path.text ++ "$" ++ String.ofList payload := by
  rw [← String.toList_inj]
  simp [text, chars, Path.text, Marker.char]

/-- By its first sign a line is told from what is no entry. -/
theorem exists_first (entry : Entry) :
    ∃ c rest, entry.chars = c :: rest ∧ c ∈ ['{', '#', '$'] := by
  obtain ⟨path, marker, payload⟩ := entry
  cases path with
  | nil => exact ⟨marker.char, payload, rfl, by cases marker <;> decide⟩
  | cons name rest => exact ⟨'{', _, rfl, by decide⟩

end Entry

/-- A path is known by how it is written. -/
theorem Path.text_inj {path other : Path} (hn : path.Named) (ho : other.Named)
    (h : path.text = other.text) : path = other := by
  have hchars : Path.chars path = Path.chars other := String.ofList_injective h
  have hentry : Entry.chars ⟨path, .definition, []⟩ = Entry.chars ⟨other, .definition, []⟩ := by
    rw [Entry.chars, Entry.chars, hchars]
  exact congrArg Entry.path (Entry.chars_inj hn ho hentry)

/-! ## Along the walk -/

/-- The lines of a part of a tree: its definition, and its literal if it has one. -/
inductive Scenario.PartLines (scenario : Scenario) : Path × NodeTree → List String → Prop where
  | bare {path : Path} {part : NodeTree} : part.literal = none →
      PartLines scenario (path, part) [path.text ++ "#" ++ part.variant]
  | valued {path : Path} {part : NodeTree} {literal : Literal} {payload : List Char} :
      part.literal = some literal → LiteralText.write scenario literal = .ok payload →
      PartLines scenario (path, part)
        [path.text ++ "#" ++ part.variant, path.text ++ "$" ++ String.ofList payload]

namespace SideBySide

variable {α β γ : Type} {R : β → List γ → Prop} {f : α → List β} {as : List α}
  {rows : List (List γ)}

/-- Rows that are made of smaller ones, row by row. -/
theorem flatten_rows
    (h : List.Forall₂ (fun a row => ∃ parts, List.Forall₂ R (f a) parts ∧ row = parts.flatten) as
      rows) :
    ∃ parts, List.Forall₂ R (as.flatMap f) parts ∧ rows.flatten = parts.flatten := by
  induction h with
  | nil => exact ⟨[], .nil, rfl⟩
  | cons hfirst _ ih =>
      obtain ⟨parts, hparts, rfl⟩ := hfirst
      obtain ⟨more, hmore, he⟩ := ih
      refine ⟨parts ++ more, ?_, ?_⟩
      · rw [List.flatMap_cons]
        exact List.rel_append hparts hmore
      · rw [List.flatten_cons, he, List.flatten_append]

end SideBySide

namespace Scenario

variable {registry : Registry} {scenario : Scenario} {id : NodeId} {node : Node}
  {variant : Variant} {tree : NodeTree} {path : Path}

/-- What a node has in its slots shows what its tree has in them, in the order of the variant. -/
theorem declaredSlots_rel (hl : Forest.Linked scenario.forest)
    (hn : scenario.forest.get? id = some node) (hv : registry.get? node.variant = some variant)
    (hs : scenario.forest.Shows id tree) :
    List.Forall₂
      (fun slot pair : String × _ => slot.1 = pair.1 ∧ scenario.forest.Shows slot.2 pair.2)
      (node.filledSlots variant) (tree.declaredSlots registry) := by
  obtain ⟨hvariant, _⟩ := Prod.mk.inj (hs.top hn)
  rw [NodeTree.declaredSlots, NodeTree.declaredNames, hvariant, hv, Option.map_some,
    Option.getD_some, List.filterMap_map]
  refine List.rel_filterMap (R := Eq) ?_ (List.forall₂_refl _)
  rintro param _ rfl
  dsimp only [Function.comp_apply]
  -- a declared slot is filled in the node just when it is in the tree
  cases hheld : node.argument? param.name with
  | none =>
      rw [(hs.lookup_eq_none hl hn).mpr hheld]
      exact .none
  | some child =>
      obtain ⟨inner, hlookup, hinner⟩ := hs.exists_inner hl hn hheld
      rw [hlookup]
      exact .some ⟨rfl, hinner⟩

theorem ownEntries_partLines {own : List Entry} (ht : (tree.variant, tree.literal)
      = (node.variant, node.literal)) (h : scenario.ownEntries path node = .ok own) :
    scenario.PartLines (path, tree) (own.map Entry.text) := by
  obtain ⟨hvariant, hliteral⟩ := Prod.mk.inj ht
  rcases ownEntries_ok.mp h with ⟨hnone, rfl⟩ | ⟨literal, payload, hsome, hwrite, rfl⟩
  · rw [List.map_singleton, Entry.text_definition, ← hvariant]
    exact .bare (hliteral.trans hnone)
  · rw [List.map_cons, List.map_singleton, Entry.text_definition, Entry.text_value, ← hvariant]
    exact .valued (hliteral.trans hsome) hwrite

/-- **The entries of a node follow the walk through its tree.** -/
theorem partLines_walk (h : Sound registry scenario) :
    ∀ {fuel : Nat} {path : Path} {id : NodeId} {entries : List Entry} {tree : NodeTree},
      scenario.entriesWithin registry fuel path id = .ok entries → scenario.forest.Shows id tree →
      ∃ blocks, List.Forall₂ scenario.PartLines (tree.walk registry path) blocks ∧
        entries.map Entry.text = blocks.flatten := by
  intro fuel
  induction fuel with
  | zero => intro path id entries tree he; simp [entriesWithin] at he
  | succ fuel ih =>
      intro path id entries tree he hs
      obtain ⟨node, variant, own, inner, hn, hv, hown, hinner, rfl⟩ := entriesWithin_succ.mp he
      have hslots := declaredSlots_rel h.owned.linked hn hv hs
      -- slot by slot, the lines that are written below the node follow the walk below it
      have hrows : List.Forall₂ (fun slot row => ∃ parts,
          List.Forall₂ scenario.PartLines (slot.2.walk registry (path ++ [slot.1])) parts ∧
            row = parts.flatten)
          (tree.declaredSlots registry) (inner.map (List.map Entry.text)) := by
        rw [List.forall₂_map_right_iff]
        refine (SideBySide.meet hslots hinner).imp ?_
        rintro ⟨_, part⟩ block ⟨⟨name, child⟩, _, ⟨rfl, hshows⟩, hblock⟩
        exact ih hblock hshows
      obtain ⟨parts, hparts, hflat⟩ := SideBySide.flatten_rows hrows
      refine ⟨own.map Entry.text :: parts, ?_, ?_⟩
      · rw [NodeTree.walk_eq]
        exact .cons (ownEntries_partLines (hs.top hn) hown) hparts
      · rw [List.map_append, List.map_flatten, hflat, List.flatten_cons]

/-- As many lines as there are parts, and literals on the way. -/
theorem length_flatten_partLines {parts : List (Path × NodeTree)} {blocks : List (List String)}
    (h : List.Forall₂ scenario.PartLines parts blocks) :
    blocks.flatten.length
      = parts.length + (parts.filterMap fun part => part.2.literal).length := by
  induction h with
  | nil => rfl
  | @cons part block parts blocks hpart _ ih =>
      rw [List.flatten_cons, List.length_append, ih, List.filterMap_cons, List.length_cons]
      cases hpart with
      | bare hnone =>
          rw [hnone, List.length_singleton]
          dsimp only
          omega
      | valued hsome _ =>
          rw [hsome]
          simp only [List.length_cons, List.length_nil]
          omega

/-- The walk takes paths that are made of names. -/
theorem named_walk (hr : registry.Sound) (hf : tree.Fits registry) (ho : tree.Ordered) :
    ∀ path : Path, path.Named → ∀ part ∈ tree.walk registry path, part.1.Named := by
  refine NodeTree.walk_induction (motive := fun tree => ∀ path : Path, path.Named →
    ∀ part ∈ tree.walk registry path, part.1.Named) hr
    (fun tree _ _ _ ih path hpath part hpart => ?_) tree hf ho
  rw [NodeTree.walk_eq, List.mem_cons, List.mem_flatMap] at hpart
  rcases hpart with rfl | ⟨⟨name, inner⟩, hs, hpart⟩
  · exact hpath
  · refine ih _ hs _ (hpath.concat ?_) part hpart
    obtain ⟨hdeclared, _⟩ := NodeTree.mem_declaredSlots.mp hs
    obtain ⟨definition, hv, param, hp, rfl⟩ := NodeTree.mem_declaredNames.mp hdeclared
    exact (hr.get? hv).params param hp

/-- The lines are those of the tree. -/
structure Transcribes (registry : Registry) (scenario : Scenario) (tree : NodeTree)
    (lines : List String) : Prop where
  /-- They follow the walk through the tree. -/
  follow : ∃ blocks, List.Forall₂ scenario.PartLines (tree.walk registry []) blocks ∧
    lines = blocks.flatten
  /-- The walk comes to every part of the tree. -/
  everywhere : ∀ path part, (path, part) ∈ tree.walk registry [] ↔ tree.sub? path = some part
  /-- No two parts have the same path, nor paths that are written the same. -/
  distinct : ((tree.walk registry []).map fun part => part.1.text).Nodup
  /-- Every part but the first was led to from one before it. -/
  led : ∀ part ∈ tree.walk registry [], part.1 = [] ∨
    ∃ holder, [holder, part].Sublist (tree.walk registry []) ∧
      NodeTree.Leads registry holder part
  count : lines.length = tree.size + tree.literals.length
  /-- Each line is one line, and by its first sign it is told from what is none of these. -/
  oneLine : ∀ line ∈ lines, Text.OneLine line.toList ∧
    ∃ c rest, line.toList = c :: rest ∧ c ∈ ['{', '#', '$']

/-- What is written of nodes is written in their own lines. -/
structure Canonical (registry : Registry) (scenario : Scenario) : Prop where
  /-- The lines of a node are those of its tree. -/
  transcribes : ∀ {id lines}, scenario.encode registry id = .ok lines →
    ∃ tree, scenario.forest.snapshot id = some tree ∧ Transcribes registry scenario tree lines
  /-- Nodes are written the same exactly if they look the same. -/
  same : ∀ {a b one two}, scenario.encode registry a = .ok one →
    scenario.encode registry b = .ok two →
    (one = two ↔ scenario.forest.snapshot a = scenario.forest.snapshot b)

theorem Sound.transcribes (h : Sound registry scenario) {entries : List Entry}
    (he : scenario.entries registry id = .ok entries) (hs : scenario.forest.Shows id tree) :
    Transcribes registry scenario tree (entries.map Entry.text) := by
  have hfits := h.conforms.forest.fits h.owned.linked hs
  have hord := hs.ordered h.owned.linked
  obtain ⟨blocks, hblocks, hlines⟩ := partLines_walk h he hs
  refine ⟨⟨blocks, hblocks, hlines⟩, fun path part => ?_, ?_, ?_, ?_, fun line hline => ?_⟩
  · rw [NodeTree.mem_walk h.variants hfits hord]
    simp
  · -- paths differ, and as their names are well formed so do their texts
    have hnodup := (NodeTree.nodup_walk h.variants hfits hord []).map_on (f := Path.text)
      fun one hone two htwo he => ?_
    · rwa [List.map_map] at hnodup
    · obtain ⟨part, hpart, rfl⟩ := List.mem_map.mp hone
      obtain ⟨other, hother, rfl⟩ := List.mem_map.mp htwo
      have hnamed := named_walk h.variants hfits hord [] Path.named_nil
      exact Path.text_inj (hnamed part hpart) (hnamed other hother) he
  · exact NodeTree.led_walk h.variants hfits hord []
  · rw [hlines, length_flatten_partLines hblocks, NodeTree.length_walk h.variants hfits hord,
      (NodeTree.literals_walk h.variants hfits hord []).length_eq]
  · obtain ⟨entry, hentry, rfl⟩ := List.mem_map.mp hline
    obtain ⟨hnamed, hpayload⟩ := wellFormed_entries h Path.named_nil he entry hentry
    rw [Entry.text, String.toList_ofList]
    exact ⟨Entry.oneLine_chars hnamed hpayload, entry.exists_first⟩

end Scenario

/-! ## Back from the lines -/

/-- A host that knows every block and every item, and cares for nothing else. -/
inductive Scholar where
  | scholar

instance : Services Scholar where
  hasBlock _ _ := true
  hasItem _ _ := true
  answer
    | .playerName _, host => (none, host)
    | .countBlocks _ _, host => (0, host)
    | .countItems _ _, host => (0, host)
    | .isInRegion _ _, host => (false, host)
  perform _ host := (.ok (), host)

theorem Literal.knownTo_scholar (literal : Literal) : literal.KnownTo Scholar.scholar := by
  cases literal with
  | block | item => rfl
  | _ => trivial

namespace Scenario

variable {registry : Registry} {scenario : Scenario}

/-- A scholar reads the tree from its lines. -/
theorem Sound.exists_reading (h : Sound registry scenario) {id : NodeId} {tree : NodeTree}
    {entries : List Entry} (he : scenario.entries registry id = .ok entries)
    (hs : scenario.forest.Shows id tree) :
    ∃ forest, (decodeLines registry Scholar.scholar
        ((entries.map Entry.chars).map fun line => (1, line))).runOn scenario
          = (.ok ⟨scenario.forest.nextId⟩, { scenario with forest }) ∧
      scenario.forest.Gained tree forest := by
  refine decodeLines_same h h.owned.linked rfl hs he
    (fun literal _ => literal.knownTo_scholar) ?_
  have hfilled : ∀ line ∈ (entries.map Entry.chars).map fun line => (1, line),
      (!line.2.isEmpty) = true := by
    intro line hline
    obtain ⟨_, hchars, rfl⟩ := List.mem_map.mp hline
    obtain ⟨entry, _, rfl⟩ := List.mem_map.mp hchars
    simp [Entry.chars]
  rw [List.filter_eq_self.mpr hfilled, List.map_map]
  exact List.map_id' _

/-- **Nodes that are written in the same lines show the same tree**: both show what is read from
the lines. -/
theorem Sound.eq_of_text (h : Sound registry scenario) {a b : NodeId} {tree other : NodeTree}
    {one two : List Entry} (ha : scenario.entries registry a = .ok one)
    (hb : scenario.entries registry b = .ok two) (hs : scenario.forest.Shows a tree)
    (ho : scenario.forest.Shows b other) (he : one.map Entry.text = two.map Entry.text) :
    tree = other := by
  have hchars : one.map Entry.chars = two.map Entry.chars := by
    have hlists := congrArg (List.map String.toList) he
    simpa [List.map_map, Function.comp_def, Entry.text] using hlists
  obtain ⟨forest, hrun, hgained⟩ := h.exists_reading ha hs
  obtain ⟨forest', hrun', hgained'⟩ := h.exists_reading hb ho
  rw [hchars, hrun'] at hrun
  have hforest : forest' = forest := congrArg Scenario.forest (Prod.mk.inj hrun).2
  rw [hforest] at hgained'
  exact hgained.shows.unique hgained'.shows

/-- **Encodings are transcripts of trees, one for each tree**, in a reachable script. -/
theorem Reachable.canonical (h : Reachable registry scenario) : Canonical registry scenario := by
  have hsound := h.isSound
  have hshown : ∀ {id entries}, scenario.entries registry id = .ok entries →
      ∃ tree, scenario.forest.Shows id tree := by
    intro id entries he
    obtain ⟨_, _, _, _, hn, _⟩ := entriesWithin_succ.mp he
    obtain ⟨tree, hsnap⟩ := hsound.owned.linked.exists_shows hn
    exact ⟨tree, hsound.owned.linked.snapshot_iff.mp hsnap⟩
  refine ⟨fun {id lines} he => ?_, fun {a b one two} ha hb => ?_⟩
  · obtain ⟨entries, hentries, rfl⟩ := encode_ok.mp he
    obtain ⟨tree, hs⟩ := hshown hentries
    exact ⟨tree, hsound.owned.linked.snapshot_iff.mpr hs, hsound.transcribes hentries hs⟩
  · obtain ⟨ones, hones, rfl⟩ := encode_ok.mp ha
    obtain ⟨twos, htwos, rfl⟩ := encode_ok.mp hb
    obtain ⟨tree, hs⟩ := hshown hones
    obtain ⟨other, ho⟩ := hshown htwos
    rw [hsound.owned.linked.snapshot_iff.mpr hs, hsound.owned.linked.snapshot_iff.mpr ho,
      Option.some.injEq]
    constructor
    · exact hsound.eq_of_text hones htwos hs ho
    · -- of one tree there is one list of entries
      rintro rfl
      have hsame := entries_congr hsound hsound rfl hs ho hones
      rw [htwos] at hsame
      rw [Except.ok.inj hsame]

end Scenario

/-! ## Two greetings

What was said once is said again, this time by a node that is made with its text. -/

namespace Greeting

def repeated : List Request :=
  [.createNode "Word" [] (some (.text "hi")), .createNode "Say" [("text", ⟨2⟩)] none]

/-- The script that greets twice. -/
def echo : Scenario :=
  repeated.foldl (fun scenario request => request.after variants scenario) script

theorem echo_reachable : Scenario.Reachable variants echo :=
  script_reachable.requests repeated (by decide)

def lines : List String := ["#Say", "\x7btext\x7d#Word", "\x7btext\x7d$hi"]

end Greeting

namespace Scenario

/-- Both greetings are written in the same three lines, so they look the same. -/
theorem canonical_greeting :
    Canonical Greeting.variants Greeting.echo ∧
      Greeting.echo.encode Greeting.variants ⟨0⟩ = .ok Greeting.lines ∧
      Greeting.echo.encode Greeting.variants ⟨3⟩ = .ok Greeting.lines ∧
      Greeting.echo.forest.snapshot ⟨0⟩ = Greeting.echo.forest.snapshot ⟨3⟩ := by
  have hcanonical := Greeting.echo_reachable.canonical
  have hfirst : Greeting.echo.encode Greeting.variants ⟨0⟩ = .ok Greeting.lines := by
    decide +kernel
  have hsecond : Greeting.echo.encode Greeting.variants ⟨3⟩ = .ok Greeting.lines := by
    decide +kernel
  exact ⟨hcanonical, hfirst, hsecond, (hcanonical.same hfirst hsecond).mp rfl⟩

end Scenario

end Rulebook
