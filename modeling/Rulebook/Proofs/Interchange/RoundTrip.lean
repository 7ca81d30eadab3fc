import Rulebook.Interchange.Decoding
import Rulebook.Proofs.Interchange.Encoding
import Rulebook.Proofs.Interchange.Grafting
import Rulebook.World

/-!
# Writing a tree and reading it back

The lines that are written of a node spell its tree, in whichever script they are
read: there every region of the tree is its counterpart, and everything else is
what it was. How the lines are laid out as a text does not matter.

In the script that the node belongs to nothing is replaced, so reading yields a
second node that looks just like the first.
-/

namespace Rulebook

open Attempt
open Reading (Spells Reads)
open Scenario (Sound Reachable)

/-- A forest has gained a tree, which no one holds; all that was there is as it was. -/
structure Forest.Gained (forest : Forest) (tree : NodeTree) (after : Forest) : Prop where
  linked : Forest.Linked after
  shows : after.Shows ⟨forest.nextId⟩ tree
  detached : ∃ node, after.get? ⟨forest.nextId⟩ = some node ∧ node.owner = .detached
  old : ∀ x node, forest.get? x = some node → after.get? x = some node

/-- What was there shows what it showed before. -/
theorem Forest.Gained.shows_old {forest after : Forest} {tree seen : NodeTree} {id : NodeId}
    (h : forest.Gained tree after) (hs : forest.Shows id seen) : after.Shows id seen :=
  hs.frame fun x node _ hx => ⟨node, h.old x node hx, ⟨rfl, rfl, rfl⟩⟩

variable {registry : Registry} {scenario other : Scenario} {σ : Type} [Services σ] {services : σ}
  {id : NodeId} {tree : NodeTree} {entries : List Entry}

/-- **The entries of a node spell its tree.** -/
theorem spells_entries (h : Sound registry scenario) :
    ∀ {fuel : Nat} {path : Path} {id : NodeId} {node : Node} {entries : List Entry}
      {tree : NodeTree}, path.Named → scenario.forest.get? id = some node →
      scenario.forest.Shows id tree → scenario.entriesWithin registry fuel path id = .ok entries →
      (∀ literal ∈ tree.literals, literal.KnownTo services) →
      (∀ literal ∈ tree.literals, literal.ResolvesIn scenario other) →
      Spells ⟨registry, other, services⟩ path node.result (entries.map Entry.chars)
        (tree.mapLiterals (Literal.transfer scenario other)) := by
  intro fuel
  induction fuel with
  | zero => intro path id node entries tree _ _ _ he; simp [Scenario.entriesWithin] at he
  | succ fuel ih =>
      intro path id node entries tree hpath hn hs he hk hr
      obtain ⟨node', variant, own, blocks, hn', hv, hown, hblocks, rfl⟩ :=
        Scenario.entriesWithin_succ.mp he
      rw [hn] at hn'
      cases hn'
      obtain ⟨trees, rfl, hnames, htrees⟩ := h.exists_slots hn hv hs
      obtain ⟨variant', hv', _, hresult, hlit⟩ := h.conforms.forest.typed hn
      rw [hv] at hv'
      cases hv'
      have hsound := h.variants.get? hv
      have hmem : ∀ literal, _ ↔ _ := fun literal =>
        @NodeTree.mem_literals_slots trees literal node.variant node.literal hnames
      have hlines : (own ++ blocks.flatten).map Entry.chars
          = own.map Entry.chars ++ (blocks.map (List.map Entry.chars)).flatten := by
        rw [List.map_append, List.map_flatten]
      rw [hresult, hlines, NodeTree.mapLiterals, NodeTree.mapSlots_slots]
      refine Spells.of_slots hv hsound hpath ?_ ?_ ?_ ?_
      · -- a literal has the same type wherever it is read
        rw [hlit]
        cases node.literal <;> simp
      · -- the value line, if there is one, is read as the literal
        rcases Scenario.ownEntries_ok.mp hown with ⟨hnone, rfl⟩ | ⟨literal, payload, hl, hw, rfl⟩
        · rw [hnone]
          exact Or.inl ⟨rfl, rfl⟩
        · have hin := (hmem literal).mpr (Or.inl hl)
          rw [hl]
          refine Or.inr ⟨_, payload, rfl, rfl, ?_⟩
          rw [Literal.type_transfer]
          exact LiteralText.read_write h.surveyed h.numbered hw (hk _ hin) (hr _ hin)
      · -- slot by slot, each below its own name
        rw [List.forall₂_map_left_iff, List.forall₂_map_right_iff]
        refine (SideBySide.meet (SideBySide.with_mem htrees) hblocks).imp ?_
        rintro ⟨_, inner⟩ block ⟨⟨name, child⟩, hslot, ⟨hp, rfl, hshows⟩, hblock⟩
        have hbound := Node.mem_of_argument? (Node.mem_filledSlots.mp hslot).2
        obtain ⟨param, held, hparam, hheld, htype⟩ := h.conforms.forest.slots hn hv hbound
        obtain ⟨hm, hname⟩ : param ∈ variant.params ∧ param.name = name :=
          Variant.mem_of_param? hparam
        have hbelow : (path ++ [name]).Named := hpath.concat (hname ▸ hsound.params param hm)
        refine ⟨param, hparam, ?_⟩
        rw [← htype]
        refine ih hbelow hheld hshows hblock ?_ ?_
        · exact fun literal hl => hk literal ((hmem literal).mpr (Or.inr ⟨_, hp, hl⟩))
        · exact fun literal hl => hr literal ((hmem literal).mpr (Or.inr ⟨_, hp, hl⟩))
      · rw [List.map_map]
        exact hnames

/-- Nothing is there yet when reading begins. -/
theorem open_start (ho : Forest.Linked other.forest) (result : ValueType) :
    Open registry { forest := other.forest } [] result := by
  refine ⟨ho, rfl, fun path _ => Places.find?_empty path, ?_⟩
  intro above param hs
  exact absurd hs (by simp [Path.split?_nil])

/-- Lines that spell a tree add it to the script that they are read in. -/
theorem decodeLines_of_spells (ho : Forest.Linked other.forest) {result : ValueType}
    {lines : List (List Char)} (hs : Spells ⟨registry, other, services⟩ [] result lines tree)
    {numbered : List (Nat × List Char)}
    (hn : (numbered.filter fun line => !line.2.isEmpty).map Prod.snd = lines) :
    ∃ forest, (Scenario.decodeLines registry services numbered).runOn other
        = (.ok ⟨other.forest.nextId⟩, { other with forest }) ∧
      other.forest.Gained tree forest := by
  obtain ⟨after, hreads, hg⟩ := hs _ (open_start ho result)
  refine ⟨after.forest, hreads.decodeLines hg.idle hg.root hn, hg.linked, hg.shows, hg.detached rfl,
    fun x node hx => ?_⟩
  refine hg.old x node hx fun above param hsplit => ?_
  exact absurd hsplit (by simp [Path.split?_nil])

/-- **What was written of a node is read as its tree.** -/
theorem decodeLines_entries (h : Sound registry scenario) (ho : Forest.Linked other.forest)
    (hs : scenario.forest.Shows id tree) (he : scenario.entries registry id = .ok entries)
    (hk : ∀ literal ∈ tree.literals, literal.KnownTo services)
    (hr : ∀ literal ∈ tree.literals, literal.ResolvesIn scenario other)
    {numbered : List (Nat × List Char)}
    (hn : (numbered.filter fun line => !line.2.isEmpty).map Prod.snd = entries.map Entry.chars) :
    ∃ forest, (Scenario.decodeLines registry services numbered).runOn other
        = (.ok ⟨other.forest.nextId⟩, { other with forest }) ∧
      other.forest.Gained (tree.mapLiterals (Literal.transfer scenario other)) forest := by
  obtain ⟨node, hnode⟩ := hs.exists_node
  exact decodeLines_of_spells ho (spells_entries h Path.named_nil hnode hs he hk hr) hn

/-- Where the regions are the same, nothing is replaced. -/
theorem decodeLines_same (h : Sound registry scenario) (ho : Forest.Linked other.forest)
    (hsame : other.regions = scenario.regions) (hs : scenario.forest.Shows id tree)
    (he : scenario.entries registry id = .ok entries)
    (hk : ∀ literal ∈ tree.literals, literal.KnownTo services)
    {numbered : List (Nat × List Char)}
    (hn : (numbered.filter fun line => !line.2.isEmpty).map Prod.snd = entries.map Entry.chars) :
    ∃ forest, (Scenario.decodeLines registry services numbered).runOn other
        = (.ok ⟨other.forest.nextId⟩, { other with forest }) ∧
      other.forest.Gained tree forest := by
  have hwritable := Scenario.writable_of_entries h he hs
  -- regions of its own are transferred to themselves
  have htree : tree.mapLiterals (Literal.transfer scenario other) = tree := by
    refine NodeTree.mapLiterals_eq_self fun literal hl => ?_
    obtain ⟨_, hw⟩ := hwritable literal hl
    exact LiteralText.transfer_self h.surveyed hsame hw
  have hresolves : ∀ literal ∈ tree.literals, literal.ResolvesIn scenario other := by
    intro literal hl
    obtain ⟨_, hw⟩ := hwritable literal hl
    exact LiteralText.resolvesIn_self h.surveyed hsame hw
  have hdecode := decodeLines_entries h ho hs he hk hresolves hn
  rw [htree] at hdecode
  exact hdecode

namespace Scenario

/-! ## Texts -/

/-- Reading the text yields a node that no one holds and whose snapshot is the tree. -/
def Decodes (registry : Registry) (services : σ) (scenario : Scenario) (text : String)
    (tree : NodeTree) : Prop :=
  ∃ root after node, (decode registry services text).runOn scenario = (.ok root, after) ∧
    after.forest.get? root = some node ∧ node.owner = .detached ∧
    after.forest.snapshot root = some tree

/-- The lines of an encoding, however they are laid out, are those of its entries. -/
theorem lines_of_encode (h : Sound registry scenario)
    (he : scenario.entries registry id = .ok entries) {text : String}
    (hl : Text.Laid ((entries.map Entry.text).map String.toList) text.toList) :
    ((Text.numberedLines text.toList).filter fun line => !line.2.isEmpty).map Prod.snd
      = entries.map Entry.chars := by
  have hlines : (entries.map Entry.text).map String.toList = entries.map Entry.chars := by
    rw [List.map_map]
    exact List.map_congr_left fun entry _ => String.toList_ofList
  rw [hlines] at hl
  rw [Text.filter_numberedLines, Text.filter_lines_of_laid hl]
  intro line hm
  obtain ⟨entry, hentry, rfl⟩ := List.mem_map.mp hm
  obtain ⟨hpath, hpayload⟩ := wellFormed_entries h Path.named_nil he entry hentry
  exact Entry.oneLine_chars hpath hpayload

/-- **What was written of a node is read back**, in the script it belongs to as the same tree, and
in another script over the same variants as the tree in which every region is its counterpart
there. Lines may end in either way, and empty lines may stand between them. -/
theorem Reachable.encode_decode (hs : Reachable registry scenario)
    (ht : Reachable registry other) (services : σ) {lines : List String}
    (he : scenario.encode registry id = .ok lines) :
    ∃ tree, scenario.forest.snapshot id = some tree ∧
      ∀ text : String, Text.Laid (lines.map String.toList) text.toList →
        (∀ literal ∈ tree.literals, literal.KnownTo services) →
        Decodes registry services scenario text tree ∧
          ((∀ literal ∈ tree.literals, literal.ResolvesIn scenario other) →
            Decodes registry services other text
              (tree.mapLiterals (Literal.transfer scenario other))) := by
  have hsound := hs.isSound
  obtain ⟨entries, hentries, rfl⟩ := encode_ok.mp he
  obtain ⟨node, _, _, _, hn, _⟩ := entriesWithin_succ.mp hentries
  obtain ⟨tree, hsnap⟩ := hsound.owned.linked.exists_shows hn
  have hshows := hsound.owned.linked.snapshot_iff.mp hsnap
  refine ⟨tree, hsnap, fun text hlaid hk => ?_⟩
  have hlines := lines_of_encode hsound hentries hlaid
  -- what the reader has gained is what decoding gives
  have hyield : ∀ {target : Scenario} {gained : NodeTree} {forest : Forest},
      (decode registry services text).runOn target
        = (.ok ⟨target.forest.nextId⟩, { target with forest }) →
      target.forest.Gained gained forest → Decodes registry services target text gained := by
    intro target gained forest hrun hg
    obtain ⟨root, hroot, hd⟩ := hg.detached
    exact ⟨_, _, root, hrun, hroot, hd, hg.linked.snapshot_iff.mpr hg.shows⟩
  refine ⟨?_, fun hr => ?_⟩
  · obtain ⟨forest, hrun, hg⟩ :=
      decodeLines_same hsound hsound.owned.linked rfl hshows hentries hk hlines
    exact hyield hrun hg
  · obtain ⟨forest, hrun, hg⟩ :=
      decodeLines_entries hsound ht.owned.linked hshows hentries hk hr hlines
    exact hyield hrun hg

end Scenario

/-! ## A region that two scripts share

One script has a node that names the shared region; in the other the region has another name and
another number. -/

namespace Survey

/-- A region. -/
def area : Variant :=
  { id := "Area", kind := .value, result := .region, literal := some .region
    rule := .literal fun literal =>
      match literal with
      | some literal => .resolve literal .done
      | none => .fail (.missingArgument "literal") }

def variants : Registry := ⟨[area]⟩

/-- The identifier of the region that is shared. -/
def shared : Uuid := ⟨7⟩

/-- The script after requests. -/
def after (requests : List Request) : Scenario :=
  requests.foldl (fun scenario request => request.after variants scenario) (.empty "survey")

def source : Scenario :=
  after [.addSharedRegion "yard" shared ⟨default, default⟩,
    .createNode "Area" [] (some (.region ⟨0⟩))]

def target : Scenario :=
  after [.addRegion "shed" ⟨default, default⟩, .addSharedRegion "court" shared ⟨default, default⟩]

theorem empty_reachable : Scenario.Reachable variants (.empty "survey") :=
  .register (.empty _) (show Registry.empty.register area = .ok variants from rfl)

theorem source_reachable : Scenario.Reachable variants source := by
  have h1 := empty_reachable.request (.addSharedRegion "yard" shared ⟨default, default⟩) trivial
    ⟨by decide, by decide, by decide⟩
  exact h1.request (.createNode "Area" [] (some (.region ⟨0⟩))) trivial
    ⟨by decide, by decide, by decide⟩

theorem target_reachable : Scenario.Reachable variants target := by
  have h1 := empty_reachable.request (.addRegion "shed" ⟨default, default⟩) trivial
    ⟨by decide, by decide, by decide⟩
  exact h1.request (.addSharedRegion "court" shared ⟨default, default⟩) trivial
    ⟨by decide, by decide, by decide⟩

end Survey

namespace Scenario

/-- The first region of one script is read as the second of the other. -/
theorem encode_decode_survey :
    Decodes Survey.variants World.empty Survey.target
      "\r\n#Area\n$uuid:00000000-0000-0000-0000-000000000007\r\n\n"
      ⟨"Area", some (.region ⟨1⟩), []⟩ := by
  have hlines : Survey.source.encode Survey.variants ⟨0⟩
      = .ok ["#Area", "$uuid:00000000-0000-0000-0000-000000000007"] := rfl
  obtain ⟨tree, hsnap, hall⟩ :=
    Survey.source_reachable.encode_decode Survey.target_reachable World.empty hlines
  have htree : some tree = some ⟨"Area", some (.region ⟨0⟩), []⟩ := hsnap.symm.trans rfl
  cases htree
  have hliterals : ∀ literal ∈ NodeTree.literals ⟨"Area", some (.region ⟨0⟩), []⟩,
      literal = .region ⟨0⟩ := by simp [NodeTree.literals, NodeTree.slotLiterals]
  have hfeed : ['\n'] ∈ Text.lineEnds := by decide
  have hreturn : ['\r', '\n'] ∈ Text.lineEnds := by decide
  have hlast := Text.Laid.line "$uuid:00000000-0000-0000-0000-000000000007".toList hreturn
    (.blank hfeed .nil)
  have hlaid := Text.Laid.blank hreturn (.line "#Area".toList hfeed hlast)
  have htext : "\r\n#Area\n$uuid:00000000-0000-0000-0000-000000000007\r\n\n".toList
      = ['\r', '\n'] ++ ("#Area".toList ++ ['\n']
        ++ ("$uuid:00000000-0000-0000-0000-000000000007".toList ++ ['\r', '\n'] ++ ['\n'])) := rfl
  refine (hall _ (htext ▸ hlaid) fun literal hl => ?_).2 fun literal hl => ?_
  · rw [hliterals literal hl]
    trivial
  · rw [hliterals literal hl]
    rfl

end Scenario

end Rulebook
