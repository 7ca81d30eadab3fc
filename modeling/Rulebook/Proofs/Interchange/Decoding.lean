import Rulebook.Proofs.Interchange.Format
import Rulebook.Proofs.Interchange.Rollback
import Rulebook.Proofs.TreePaths

/-!
# What a text is read as

A text is read as a tree if and only if its lines spell nodes that make up a tree:
the first is the root, no path comes twice, and every other node stands in a slot
of its type of one that came before it. Then there is one new node for each, all
of them below the new root, and the tree that the root shows has at each path the
node that was spelled for it. So it does not matter in which order the nodes come,
as long as what holds comes before what it holds.
-/

namespace Rulebook

/-- The nodes make up a tree, each after the one that holds it. -/
structure TreeShaped (placings : List Placing) : Prop where
  root : ∃ first, placings.head? = some first ∧ first.path = []
  distinct : (placings.map Placing.path).Nodup
  held : ∀ earlier placing later, placings = earlier ++ placing :: later → earlier ≠ [] →
    ∃ holder ∈ earlier, ∃ param slot, placing.path = holder.path ++ [param] ∧
      holder.variant.param? param = some slot ∧ slot.type = placing.variant.result

theorem fitting_iff {placings : List Placing} :
    ∀ {before : List Placing}, Fitting before placings ↔
      ∀ earlier placing later, placings = earlier ++ placing :: later →
        placing.Fits (before ++ earlier) := by
  induction placings with
  | nil => simp [Fitting]
  | cons first rest ih =>
      intro before
      rw [Fitting, ih]
      constructor
      · intro h earlier placing later he
        obtain ⟨hfirst, hrest⟩ := h
        cases earlier with
        | nil =>
            obtain ⟨rfl, _⟩ := List.cons.inj he
            rw [List.append_nil]
            exact hfirst
        | cons _ earlier =>
            obtain ⟨rfl, rfl⟩ := List.cons.inj he
            rw [List.append_cons]
            exact hrest earlier placing later rfl
      · intro h
        refine ⟨?_, fun earlier placing later he => ?_⟩
        · have hfirst := h [] first rest rfl
          rw [List.append_nil] at hfirst
          exact hfirst
        · rw [← List.append_cons]
          exact h (first :: earlier) placing later (by rw [he]; rfl)

namespace TreeShaped

variable {placings : List Placing}

/-- In a tree each node fits after those before it. -/
theorem fitting (h : TreeShaped placings) : Fitting [] placings := by
  refine fitting_iff.mpr fun earlier placing later he => ⟨fun other ho hpath => ?_, ?_⟩
  · have hn := h.distinct
    rw [he, List.map_append, List.map_cons, List.nodup_append] at hn
    exact hn.2.2 _ (List.mem_map_of_mem ho) _ List.mem_cons_self hpath
  · intro above param hpath
    cases earlier with
    | nil =>
        obtain ⟨first, hhead, hnil⟩ := h.root
        rw [he] at hhead
        cases hhead
        rw [hnil] at hpath
        exact absurd hpath (by simp)
    | cons first rest =>
        obtain ⟨holder, hm, name, slot, hp, hslot, ht⟩ :=
          h.held (first :: rest) placing later he (by simp)
        -- a path has one holder and one name, so it is the one that was asked for
        obtain ⟨rfl, hname⟩ := List.append_inj' (hpath.symm.trans hp) rfl
        cases hname
        exact ⟨holder, hm, rfl, slot, hslot, ht⟩

theorem of_fitting (hf : Fitting [] placings) (hne : placings ≠ [])
    (hn : (placings.map Placing.path).Nodup) : TreeShaped placings where
  root := by
    cases placings with
    | nil => exact absurd rfl hne
    | cons first rest => exact ⟨first, rfl, hf.root⟩
  distinct := hn
  held := by
    intro earlier placing later he hearlier
    have hfits := fitting_iff.mp hf earlier placing later he
    cases earlier with
    | nil => exact absurd rfl hearlier
    | cons first rest =>
        rw [he] at hf
        -- the root is taken, so the path has a last step
        have hpath : placing.path ≠ [] := fun hnil =>
          hfits.vacant first List.mem_cons_self (hf.root.trans hnil.symm)
        obtain ⟨above, param, hp⟩ := (List.eq_nil_or_concat placing.path).resolve_left hpath
        rw [List.concat_eq_append] at hp
        obtain ⟨holder, hm, rfl, slot, hslot, ht⟩ := hfits.slot above param hp
        exact ⟨holder, hm, param, slot, hp, hslot, ht⟩

end TreeShaped

/-! ## What was built, read along paths -/

namespace Built

variable {registry : Registry} {start : Forest} {placings : List Placing} {progress : Progress}
  {path : Path} {id root : NodeId} {tree : NodeTree}

/-- Where a path leads, the node is the one that was described for it. -/
theorem embodied (h : Built registry start placings progress)
    (hf : progress.placed.find? path = some id) :
    ∃ placing ∈ placings, placing.path = path ∧
      ∃ node, progress.forest.get? id = some node ∧ node.Embodies placing progress.placed := by
  rw [h.placed] at hf
  obtain ⟨index, placing, hi, hp, rfl⟩ := numberAt_some hf
  exact ⟨placing, List.mem_of_getElem? hi, hp, h.node hi⟩

/-- What is on the way to a node was built as well. -/
theorem exists_above (h : Built registry start placings progress) {rest : Path}
    (hf : progress.placed.find? (path ++ rest) = some id) :
    ∃ above, progress.placed.find? path = some above := by
  refine Option.ne_none_iff_exists'.mp fun hnone => ?_
  rw [h.placed, numberAt_eq_none] at hnone
  rw [h.vacant_below hnone _ (List.prefix_append path rest)] at hf
  exact absurd hf (by simp)

/-- **A path leads to the same node in the tree** as in the table of places. -/
theorem sub?_iff (h : Built registry start placings progress) {rest : Path} {sub : NodeTree}
    (hf : progress.placed.find? path = some id) (ht : progress.forest.Shows id tree) :
    NodeTree.sub? rest tree = some sub ↔
      ∃ child, progress.placed.find? (path ++ rest) = some child ∧
        progress.forest.Shows child sub := by
  have hlinked := h.beside.linked
  induction rest generalizing path id tree with
  | nil =>
      rw [List.append_nil, NodeTree.sub?, Option.some.injEq, hf]
      constructor
      · rintro rfl
        exact ⟨id, rfl, ht⟩
      · intro hx
        obtain ⟨child, he, hs⟩ := hx
        cases he
        exact ht.unique hs
  | cons name rest ih =>
      obtain ⟨placing, _, hp, node, hn, he⟩ := h.embodied hf
      have hslot : node.argument? name = progress.placed.find? (path ++ [name]) := by
        rw [he.slots, hp]
      rw [NodeTree.sub?, Option.bind_eq_some_iff, List.append_cons]
      constructor
      · intro hx
        obtain ⟨inner, hi, hs⟩ := hx
        obtain ⟨child, ha, hc⟩ := (ht.lookup hlinked hn).mp hi
        exact (ih (hslot.symm.trans ha) hc).mp hs
      · intro hx
        obtain ⟨child, hc, hs⟩ := hx
        -- whatever is placed hangs on a node that was placed before it
        obtain ⟨step, hstep⟩ := h.exists_above hc
        obtain ⟨_, _, _, below, hbelow, _⟩ := h.embodied hstep
        obtain ⟨inner, hi⟩ := hlinked.exists_shows hbelow
        have hshows := hlinked.snapshot_iff.mp hi
        exact ⟨inner, (ht.lookup hlinked hn).mpr ⟨step, hslot.trans hstep, hshows⟩,
          (ih hstep hshows).mpr ⟨child, hc, hs⟩⟩

/-- **The tree has at each path the node that was described for it.** -/
theorem at?_iff (h : Built registry start placings progress) (hr : progress.root = some root)
    (ht : progress.forest.Shows root tree) {what : VariantId × Option Literal} :
    tree.at? path = some what ↔
      ∃ placing ∈ placings, placing.path = path ∧ (placing.variant.id, placing.literal) = what := by
  rw [h.root] at hr
  have hsub : ∀ {sub}, NodeTree.sub? path tree = some sub ↔
      ∃ child, progress.placed.find? path = some child ∧ progress.forest.Shows child sub :=
    h.sub?_iff hr ht
  rw [NodeTree.at?, Option.map_eq_some_iff]
  constructor
  · intro hx
    obtain ⟨sub, hs, rfl⟩ := hx
    obtain ⟨child, hc, hshows⟩ := hsub.mp hs
    obtain ⟨placing, hm, hp, node, hn, he⟩ := h.embodied hc
    exact ⟨placing, hm, hp, by rw [hshows.top hn, he.variant, he.literal]⟩
  · intro hx
    obtain ⟨placing, hm, rfl, rfl⟩ := hx
    -- the node of a placing is found by its number
    obtain ⟨index, hi⟩ := List.mem_iff_getElem?.mp hm
    obtain ⟨node, hn, he⟩ := h.node hi
    obtain ⟨sub, hs⟩ := h.beside.linked.exists_shows hn
    have hshows := h.beside.linked.snapshot_iff.mp hs
    refine ⟨sub, hsub.mpr ⟨_, ?_, hshows⟩, ?_⟩
    · rw [h.placed, numberAt_getElem? h.distinct hi]
    · rw [hshows.top hn, he.variant, he.literal]

/-- Every node that was built is below the root. -/
theorem below_root (h : Built registry start placings progress) (hr : progress.root = some root)
    (hf : progress.placed.find? path = some id) : progress.forest.Below root id := by
  induction path using List.reverseRecOn generalizing id with
  | nil =>
      rw [h.root, hf] at hr
      cases hr
      exact .refl
  | append_singleton above param ih =>
      obtain ⟨parent, hparent⟩ := h.exists_above hf
      obtain ⟨placing, _, hp, node, hn, he⟩ := h.embodied hparent
      have harg : node.argument? param = some id := by rw [he.slots, hp, hf]
      have hchild := Node.mem_children.mpr ⟨_, Node.mem_of_argument? harg, rfl⟩
      exact (ih hparent).tail ⟨node, hn, hchild⟩

end Built

/-- The lines of a text that are not empty. -/
def Text.content (text : String) : List (List Char) :=
  (Text.lines text.toList).filter fun line => !line.isEmpty

namespace Scenario

/-- What reading has made of the nodes that a text describes. -/
structure Sprouted (before : Scenario) (placings : List Placing) (root : NodeId)
    (after : Scenario) : Prop where
  /-- Nothing but nodes has changed. -/
  rest : after = { before with forest := after.forest }
  old : ∀ id node, before.forest.get? id = some node → after.forest.get? id = some node
  /-- Each description has one new node. -/
  node : ∀ index placing, placings[index]? = some placing →
    before.forest.get? ⟨before.forest.nextId + index⟩ = none ∧
      ∃ node, after.forest.get? ⟨before.forest.nextId + index⟩ = some node ∧
        node.variant = placing.variant.id ∧ node.literal = placing.literal
  /-- There are no others, and all are below the root. -/
  new : ∀ id node, before.forest.get? id = none → after.forest.get? id = some node →
    after.forest.Below root id ∧
      ∃ index, index < placings.length ∧ id = ⟨before.forest.nextId + index⟩
  fresh : root = ⟨before.forest.nextId⟩
  detached : ∃ node, after.forest.get? root = some node ∧ node.owner = .detached
  snapshot : ∃ tree, after.forest.snapshot root = some tree ∧ tree.Ordered ∧
    ∀ path what, tree.at? path = some what ↔
      ∃ placing ∈ placings, placing.path = path ∧ (placing.variant.id, placing.literal) = what

variable {scenario : Scenario} {registry : Registry} {σ : Type} [Services σ] {services : σ}

/-- What was built is what the descriptions say. -/
theorem sprouted_of_built (hs : Forest.Linked scenario.forest) {placings : List Placing}
    {progress : Progress} {root : NodeId} (h : Built registry scenario.forest placings progress)
    (hf : Fitting [] placings) (hr : progress.root = some root) :
    Sprouted scenario placings root { scenario with forest := progress.forest } := by
  have hlinked := h.beside.linked
  have hfind := hr
  rw [h.root] at hfind
  -- the first placing is the root, and it got the first number
  have hroot : root = ⟨scenario.forest.nextId⟩ := by
    cases placings with
    | nil =>
        rw [h.placed] at hfind
        exact absurd hfind (by simp [numberAt])
    | cons first rest =>
        have hfirst : numberAt scenario.forest.nextId (first :: rest) first.path
            = some ⟨scenario.forest.nextId + 0⟩ := numberAt_getElem? h.distinct rfl
        rw [hf.root, ← h.placed, hfind] at hfirst
        exact Option.some.inj hfirst
  obtain ⟨placing, _, hnil, node, hn, he⟩ := h.embodied hfind
  refine ⟨rfl, fun id node hn => ?_, fun index placing hi => ?_, fun id node hnone hn => ?_, hroot,
    ⟨node, hn, he.free hnil⟩, ?_⟩
  · exact (h.beside.old (hs.used hn)).trans hn
  · obtain ⟨node, hn, he⟩ := h.node hi
    refine ⟨?_, node, hn, he.variant, he.literal⟩
    cases hold : scenario.forest.get? ⟨scenario.forest.nextId + index⟩ with
    | none => rfl
    | some old => exact absurd (hs.used hold) (by simp)
  · have hnew : scenario.forest.nextId ≤ id.raw := by
      by_contra hlt
      rw [h.beside.old (not_le.mp hlt), hnone] at hn
      exact absurd hn (by simp)
    have hlt := hlinked.used hn
    rw [h.next] at hlt
    obtain ⟨index, hindex⟩ := Nat.exists_eq_add_of_le hnew
    have hid : id = ⟨scenario.forest.nextId + index⟩ := by
      rw [← hindex]
    have hlength : index < placings.length := by omega
    have hfound : progress.placed.find? placings[index].path = some id := by
      rw [h.placed, numberAt_getElem? h.distinct (List.getElem?_eq_getElem hlength), hid]
    exact ⟨h.below_root hr hfound, index, hlength, hid⟩
  · obtain ⟨tree, ht⟩ := hlinked.exists_shows hn
    have hshows := hlinked.snapshot_iff.mp ht
    exact ⟨tree, ht, hshows.ordered hlinked, fun _ _ => h.at?_iff hr hshows⟩

/-- **In what order the nodes come does not matter** to the tree that they become. -/
theorem Sprouted.snapshot_eq {placings others : List Placing} {before other after twin : Scenario}
    {root clone : NodeId} (h : Sprouted before placings root after)
    (ho : Sprouted other others clone twin)
    (hsame : ∀ placing, placing ∈ placings ↔ placing ∈ others) :
    after.forest.snapshot root = twin.forest.snapshot clone := by
  obtain ⟨tree, ht, hordered, hat⟩ := h.snapshot
  obtain ⟨copy, hc, hordered', hat'⟩ := ho.snapshot
  have heq : tree = copy := by
    refine NodeTree.eq_of_at? hordered hordered' fun path => Option.ext fun what => ?_
    rw [hat, hat']
    simp only [hsame]
  rw [ht, hc, heq]

/-- How a text is read as a tree. -/
structure DecodesFormat {σ : Type} [Services σ] (registry : Registry) (services : σ)
    (scenario : Scenario) (text : String) : Prop where
  accepts : (∃ root after, (decode registry services text).runOn scenario = (.ok root, after)) ↔
    ∃ placings, Spelled ⟨registry, scenario, services⟩ (Text.content text) placings ∧
      TreeShaped placings
  builds : ∀ root after, (decode registry services text).runOn scenario = (.ok root, after) →
    ∀ placings, Spelled ⟨registry, scenario, services⟩ (Text.content text) placings →
      Sprouted scenario placings root after
  /-- A text that describes the same nodes in another order, what holds before what it holds, is
  read as the same tree. -/
  order : ∀ root after, (decode registry services text).runOn scenario = (.ok root, after) →
    ∀ placings, Spelled ⟨registry, scenario, services⟩ (Text.content text) placings →
      ∀ other others, Spelled ⟨registry, scenario, services⟩ (Text.content other) others →
        others.Perm placings → TreeShaped others →
        ∃ clone twin, (decode registry services other).runOn scenario = (.ok clone, twin) ∧
          twin.forest.snapshot clone = after.forest.snapshot root

/-- A text that was read is of the format, and this is what came of it. -/
theorem sprouted_of_decode (hs : Forest.Linked scenario.forest) {text : String} {root : NodeId}
    {after : Scenario}
    (hrun : (decode registry services text).runOn scenario = (.ok root, after)) :
    ∃ placings, Spelled ⟨registry, scenario, services⟩ (Text.content text) placings ∧
      TreeShaped placings ∧ Sprouted scenario placings root after := by
  obtain ⟨placings, progress, hspelled, hfitting, hbuilt, hroot, rfl⟩ :=
    Reading.built_of_decodeLines hs hrun
  have hne : placings ≠ [] := by
    rintro rfl
    rw [hbuilt.root, hbuilt.placed] at hroot
    exact absurd hroot (by simp [numberAt])
  rw [Text.filter_numberedLines] at hspelled
  exact ⟨placings, hspelled, .of_fitting hfitting hne hbuilt.distinct,
    sprouted_of_built hs hbuilt hfitting hroot⟩

/-- A text that describes a tree is read. -/
theorem exists_decode (hs : Forest.Linked scenario.forest) (hr : registry.Sound) {text : String}
    {placings : List Placing}
    (hspelled : Spelled ⟨registry, scenario, services⟩ (Text.content text) placings)
    (hshaped : TreeShaped placings) :
    ∃ root after, (decode registry services text).runOn scenario = (.ok root, after) := by
  obtain ⟨first, hhead, _⟩ := hshaped.root
  have hne : placings ≠ [] := by
    rintro rfl
    exact absurd hhead (by simp)
  refine Reading.exists_decodeLines hs hr ?_ hshaped.fitting hne
  rw [Text.filter_numberedLines]
  exact hspelled

/-- **A text is read as a tree exactly if it describes one**, and then that is what is built, beside
everything that was there. -/
theorem Reached.decodesFormat (h : Reached scenario) (hr : Registry.Grows .empty registry)
    (services : σ) (text : String) : DecodesFormat registry services scenario text := by
  have hs := h.owned.linked
  have hbuilds : ∀ {text root after},
      (decode registry services text).runOn scenario = (.ok root, after) →
      ∀ placings, Spelled ⟨registry, scenario, services⟩ (Text.content text) placings →
        Sprouted scenario placings root after := by
    intro text root after hrun placings hspelled
    obtain ⟨found, hfound, _, hsprouted⟩ := sprouted_of_decode hs hrun
    rw [hspelled.unique hfound]
    exact hsprouted
  refine ⟨⟨fun hx => ?_, fun hx => ?_⟩, fun _ _ => hbuilds, ?_⟩
  · obtain ⟨root, after, hrun⟩ := hx
    obtain ⟨placings, hspelled, hshaped, _⟩ := sprouted_of_decode hs hrun
    exact ⟨placings, hspelled, hshaped⟩
  · obtain ⟨placings, hspelled, hshaped⟩ := hx
    exact exists_decode hs hr.sound hspelled hshaped
  · intro root after hrun placings hspelled other others ho hperm hshaped
    obtain ⟨clone, twin, hother⟩ := exists_decode hs hr.sound ho hshaped
    exact ⟨clone, twin, hother,
      (hbuilds hother others ho).snapshot_eq (hbuilds hrun placings hspelled)
        fun _ => hperm.mem_iff⟩

end Scenario

/-- A greeting as a text, with an empty line in it. -/
def Greeting.text : String := "#Say\n\x7btext\x7d#Word\n\n\x7btext\x7d$hello"

namespace Scenario

/-- The greeting, read into the script of another, and the tree that it is. -/
theorem decodesFormat_greeting :
    ((decode Greeting.variants World.empty Greeting.text).runOn Greeting.script).1 = .ok ⟨2⟩ ∧
      ((decode Greeting.variants World.empty Greeting.text).runOn
          Greeting.script).2.forest.snapshot ⟨2⟩
        = some ⟨"Say", none, [("text", ⟨"Word", some (.text "hello"), []⟩)]⟩ ∧
      DecodesFormat Greeting.variants World.empty Greeting.script Greeting.text := by
  exact ⟨by decide +kernel, by decide +kernel,
    Greeting.script_reachable.reached.decodesFormat Greeting.variants_grow _ _⟩

end Scenario

end Rulebook
