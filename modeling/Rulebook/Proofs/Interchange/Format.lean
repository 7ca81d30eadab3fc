import Rulebook.Proofs.Interchange.Denotation
import Rulebook.Proofs.Interchange.Planting

/-!
# The texts that are trees

A tree is written as a definition for each of its nodes, a value line after each
definition that calls for one. `Spelled` lists the nodes that such lines describe,
and `Fitting` says that each of them fits where it stands.

Reading follows the lines one by one, with a definition that may wait for its
value line. From a state in which the nodes so far are built, a line that is read
is a line of the format, and the node that it completes fits; the other way round,
a node that fits is read from its lines. So a text is read to the end if and only
if it is of the format.
-/

namespace Rulebook

open Attempt
open Reading (Reads)

/-- The lines describe the nodes: a definition for each, and a value line exactly where the variant
carries a literal. -/
inductive Spelled {σ : Type} [Services σ] (scene : ReadingScene σ) :
    List (List Char) → List Placing → Prop where
  | nil : Spelled scene [] []
  | bare {path : Path} {variant : Variant} {lines : List (List Char)} {placings : List Placing} :
      path.Named → scene.registry.get? variant.id = some variant → variant.literal = none →
      Spelled scene lines placings →
      Spelled scene (Entry.chars ⟨path, .definition, variant.id.toList⟩ :: lines)
        (⟨path, variant, none⟩ :: placings)
  | valued {path : Path} {variant : Variant} {type : ValueType} {payload : List Char}
      {literal : Literal} {lines : List (List Char)} {placings : List Placing} :
      path.Named → scene.registry.get? variant.id = some variant → variant.literal = some type →
      LiteralText.Denotes scene.scenario scene.services type payload literal →
      Spelled scene lines placings →
      Spelled scene (Entry.chars ⟨path, .definition, variant.id.toList⟩ ::
          Entry.chars ⟨path, .value, payload⟩ :: lines)
        (⟨path, variant, some literal⟩ :: placings)

/-- A definition says which variant it is of. -/
theorem Registry.definition_inj {registry : Registry} {path other : Path}
    {variant found : Variant} (hn : path.Named) (ho : other.Named)
    (hv : registry.get? variant.id = some variant)
    (hf : registry.get? found.id = some found)
    (h : Entry.chars ⟨path, .definition, variant.id.toList⟩
      = Entry.chars ⟨other, .definition, found.id.toList⟩) : path = other ∧ variant = found := by
  obtain ⟨rfl, _, hname⟩ := Entry.mk.inj (Entry.chars_inj hn ho h)
  rw [String.toList_inj.mp hname, hf] at hv
  exact ⟨rfl, (Option.some.inj hv).symm⟩

namespace Spelled

variable {σ : Type} [Services σ] {scene : ReadingScene σ} {lines : List (List Char)}
  {placings others : List Placing}

/-- **Lines describe their nodes in one way only.** -/
theorem unique (h : Spelled scene lines placings) (ho : Spelled scene lines others) :
    placings = others := by
  induction h generalizing others with
  | nil =>
      cases ho
      rfl
  | bare hn hv hl _ ih =>
      generalize he : _ :: _ = all at ho
      cases ho with
      | nil => exact absurd he (by simp)
      | bare hn' hv' _ hrest =>
          obtain ⟨hline, rfl⟩ := List.cons.inj he
          obtain ⟨rfl, rfl⟩ := Registry.definition_inj hn hn' hv hv' hline
          rw [ih hrest]
      | valued hn' hv' hl' =>
          obtain ⟨rfl, rfl⟩ := Registry.definition_inj hn hn' hv hv' (List.cons.inj he).1
          exact absurd (hl.symm.trans hl') (by simp)
  | valued hn hv hl hd _ ih =>
      generalize he : _ :: _ :: _ = all at ho
      cases ho with
      | nil => exact absurd he (by simp)
      | bare hn' hv' hl' =>
          obtain ⟨rfl, rfl⟩ := Registry.definition_inj hn hn' hv hv' (List.cons.inj he).1
          exact absurd (hl'.symm.trans hl) (by simp)
      | valued hn' hv' hl' hd' hrest =>
          obtain ⟨hline, htail⟩ := List.cons.inj he
          obtain ⟨hvalue, rfl⟩ := List.cons.inj htail
          obtain ⟨rfl, rfl⟩ := Registry.definition_inj hn hn' hv hv' hline
          cases hl.symm.trans hl'
          cases Entry.chars_inj hn hn' hvalue
          -- a payload stands for one literal of the type only
          have hsame := LiteralText.read_ok.mpr hd
          rw [LiteralText.read_ok.mpr hd'] at hsame
          cases hsame
          rw [ih hrest]

end Spelled

variable {registry : Registry} {start : Forest} {placings : List Placing}
  {progress after : Progress} {path : Path} {variant : Variant} {literal : Option Literal}
  {line : Nat}

namespace Built

/-- A new node that was placed has found its place open. -/
theorem open_of_place (h : Built registry start placings progress)
    (hfree : progress.placed.find? path = none)
    (hrun : (Reading.place registry line path progress.nextNode).runOn
        { progress with
          forest := progress.forest.plant variant literal
          created := progress.nextNode :: progress.created } = (.ok (), after)) :
    Open registry progress path variant.result := by
  have hvacant : ∀ other ∈ placings, other.path ≠ path := by
    rw [h.placed, numberAt_eq_none] at hfree
    exact hfree
  refine ⟨h.beside.linked, h.idle, h.vacant_below hvacant, fun above param hs => ?_⟩
  unfold Reading.place at hrun
  rw [hs] at hrun
  dsimp only at hrun
  rw [runOn_bind, runOn_get] at hrun
  dsimp only at hrun
  cases hf : progress.placed.find? above with
  | none =>
      rw [hf] at hrun
      exact absurd (congrArg Prod.fst hrun) (by simp)
  | some parent =>
      rw [hf] at hrun
      obtain ⟨_, mid, hedit, _⟩ := bind_ok.mp hrun
      rw [Reading.edit_runOn] at hedit
      obtain ⟨filled, hset⟩ :=
        exists_after (Check.mapError_ok.mp (congrArg Prod.fst hedit))
      obtain ⟨node, holder, hn, hv, hbind, _, _⟩ := Forest.setArgument_ok.mp hset
      obtain ⟨slot, inner, hslot, hinner, _, ht⟩ := Forest.checkBinding_ok.mp hbind
      rw [get?_planted h.beside.linked] at hinner
      cases hinner
      -- the holder is one of the nodes that were built before
      rw [h.placed] at hf
      obtain ⟨index, found, hi, rfl, rfl⟩ := numberAt_some hf
      obtain ⟨node', hn', he⟩ := h.node hi
      rw [Forest.get?_plant_old h.beside.linked hn'] at hn
      cases hn
      refine ⟨_, node, holder, slot, rfl, hn', hv, hslot, ht.symm, ?_⟩
      rw [he.slots, ← Path.split?_eq_some.mp hs]
      exact hfree

/-- A node that was made and placed fits, and this is what comes of it. -/
theorem grown_of_make_place (h : Built registry start placings progress)
    (hfree : progress.placed.find? path = none) {step : Forest.Edit NodeId}
    (hstep : ∀ id forest, step.runOn progress.forest = (.ok id, forest) →
      id = progress.nextNode ∧ forest = progress.forest.plant variant literal)
    (hrun : (Reading.make line step >>= fun id => Reading.place registry line path id).runOn
        progress = (.ok (), after)) :
    Placing.Fits ⟨path, variant, literal⟩ placings ∧
      after = progress.grow path variant literal := by
  obtain ⟨id, mid, hmake, hplace⟩ := bind_ok.mp hrun
  unfold Reading.make at hmake
  obtain ⟨made, grown, hedit, hnote⟩ := bind_ok.mp hmake
  rw [Reading.edit_runOn] at hedit
  obtain ⟨hok, rfl⟩ := Prod.mk.inj hedit
  obtain ⟨forest, hrun⟩ := exists_after (Check.mapError_ok.mp hok)
  obtain ⟨rfl, rfl⟩ := hstep _ _ hrun
  rw [hrun] at hnote
  obtain ⟨_, _, hmod, hpure⟩ := bind_ok.mp hnote
  obtain ⟨rfl, rfl⟩ := pure_ok.mp hpure
  cases hmod
  have ho := h.open_of_place hfree hplace
  -- a node of this type can go to this path, and there is one way to put it there
  have hgrow : (Reading.place registry line path progress.nextNode).runOn
      { progress with
        forest := progress.forest.plant variant literal
        created := progress.nextNode :: progress.created } =
      (.ok (), progress.grow path variant literal) := Reading.place_planted ho
  rw [hgrow] at hplace
  exact ⟨h.fits_of_open ho, (Prod.mk.inj hplace).2.symm⟩

end Built

namespace Reading

variable {name : String} {text : List Char}

/-- A definition that passed its checks. -/
theorem define_ok (hrun : (define registry line path name).runOn progress = (.ok variant, after)) :
    progress.placed.find? path = none ∧ registry.get? name = some variant ∧ after = progress := by
  unfold define at hrun
  rw [runOn_bind, runOn_get] at hrun
  dsimp only at hrun
  split at hrun
  · exact absurd (congrArg Prod.fst hrun) (by simp)
  · rename_i hfree
    -- only a known variant is defined, at a path that has a holder
    refine ⟨by simpa using hfree, ?_⟩
    cases hv : registry.get? name with
    | none =>
        rw [hv] at hrun
        split at hrun
        · split at hrun
          · exact absurd (congrArg Prod.fst hrun) (by simp)
          · exact absurd (congrArg Prod.fst hrun) (by simp)
        · exact absurd (congrArg Prod.fst hrun) (by simp)
    | some found =>
        rw [hv] at hrun
        split at hrun
        · split at hrun
          · obtain ⟨rfl, rfl⟩ := pure_ok.mp hrun
            exact ⟨rfl, rfl⟩
          · exact absurd (congrArg Prod.fst hrun) (by simp)
        · obtain ⟨rfl, rfl⟩ := pure_ok.mp hrun
          exact ⟨rfl, rfl⟩

variable {σ : Type} [Services σ] {scene : ReadingScene σ}

/-- A line that was read is the line of an entry. -/
theorem readLine_ok (hrun : (readLine scene line text).runOn progress = (.ok (), after)) :
    ∃ entry : Entry, entry.path.Named ∧ text = entry.chars ∧
      (match entry.marker with
        | .definition => readDefinition scene.registry line entry
        | .value => readValue scene line entry).runOn progress = (.ok (), after) := by
  unfold readLine at hrun
  obtain ⟨entry, _, hcheck, hrest⟩ := bind_ok.mp hrun
  obtain ⟨hparse, rfl⟩ := check_ok.mp hcheck
  obtain ⟨hnamed, htext⟩ := Entry.parse_ok.mp (Check.mapError_ok.mp hparse)
  exact ⟨entry, hnamed, htext, hrest⟩

/-- A definition is read where nothing is waited for: its node is made at once, or waits for its
value line. -/
theorem readDefinition_ok {entry : Entry}
    (hrun : (readDefinition registry line entry).runOn progress = (.ok (), after)) :
    progress.pending = none ∧ ∃ variant, progress.placed.find? entry.path = none ∧
      registry.get? (String.ofList entry.payload) = some variant ∧
      ((∃ type, variant.literal = some type ∧
          after = { progress with pending := some ⟨line, entry.path, variant, type⟩ }) ∨
        variant.literal = none ∧
          (make line (Forest.createDraft registry variant.id) >>= fun id =>
            place registry line entry.path id).runOn progress = (.ok (), after)) := by
  unfold readDefinition at hrun
  rw [runOn_bind, runOn_get] at hrun
  dsimp only at hrun
  cases hidle : progress.pending with
  | some _ =>
      rw [hidle] at hrun
      exact absurd (congrArg Prod.fst hrun) (by simp)
  | none =>
      rw [hidle] at hrun
      obtain ⟨variant, mid, hdefine, hmade⟩ := bind_ok.mp hrun
      obtain ⟨hfree, hv, rfl⟩ := define_ok hdefine
      refine ⟨rfl, variant, hfree, hv, ?_⟩
      cases hl : variant.literal with
      | some type =>
          rw [hl] at hmade
          exact Or.inl ⟨type, rfl, (congrArg Prod.snd hmade).symm⟩
      | none =>
          rw [hl] at hmade
          exact Or.inr ⟨rfl, hmade⟩

/-- A value line is read where it is waited for, and the node is made that waits. -/
theorem readValue_ok {entry : Entry}
    (hrun : (readValue scene line entry).runOn progress = (.ok (), after)) :
    ∃ pending literal, progress.pending = some pending ∧ pending.path = entry.path ∧
      LiteralText.read scene.scenario scene.services pending.type entry.payload = .ok literal ∧
      (make pending.line
          (Forest.createNode scene.registry pending.variant.id [] (some literal)) >>= fun id =>
        place scene.registry pending.line pending.path id).runOn
          { progress with pending := none } = (.ok (), after) := by
  unfold readValue at hrun
  rw [runOn_bind, runOn_get] at hrun
  dsimp only at hrun
  cases hwaits : progress.pending with
  | none =>
      rw [hwaits] at hrun
      exact absurd (congrArg Prod.fst hrun) (by simp)
  | some pending =>
      rw [hwaits] at hrun
      dsimp only at hrun
      -- the value must stand at the path of the definition that waits for it
      by_cases hown : pending.path = entry.path
      · rw [runOn_ite, if_pos hown, runOn_bind, runOn_modify] at hrun
        obtain ⟨literal, mid, hcheck, hmade⟩ := bind_ok.mp hrun
        obtain ⟨hread, rfl⟩ := check_ok.mp hcheck
        exact ⟨pending, literal, rfl, hown, Check.mapError_ok.mp hread, hmade⟩
      · rw [runOn_ite, if_neg hown] at hrun
        exact absurd (congrArg Prod.fst hrun) (by simp)

/-- Where no value line is waited for, a definition was read: of a node that fits, or of one that
waits for its value line. -/
theorem readLine_idle (h : Built scene.registry start placings progress)
    (hrun : (readLine scene line text).runOn progress = (.ok (), after)) :
    ∃ (path : Path) (variant : Variant), path.Named ∧
      scene.registry.get? variant.id = some variant ∧
      text = Entry.chars ⟨path, .definition, variant.id.toList⟩ ∧
      ((variant.literal = none ∧ Placing.Fits ⟨path, variant, none⟩ placings ∧
          after = progress.grow path variant none) ∨
        ∃ type, variant.literal = some type ∧ progress.placed.find? path = none ∧
          after = { progress with pending := some ⟨line, path, variant, type⟩ }) := by
  obtain ⟨⟨path, marker, payload⟩, hnamed, rfl, hread⟩ := readLine_ok hrun
  cases marker with
  | value =>
      -- no definition waits, so a value line is out of place
      obtain ⟨_, _, hwaits, _⟩ := readValue_ok hread
      rw [h.idle] at hwaits
      exact absurd hwaits (by simp)
  | definition =>
      obtain ⟨_, variant, hfree, hv, hcases⟩ := readDefinition_ok hread
      have hid := Registry.id_of_get? hv
      refine ⟨path, variant, hnamed, hid ▸ hv, ?_, ?_⟩
      · rw [hid, String.toList_ofList]
      · rcases hcases with ⟨type, hl, rfl⟩ | ⟨hl, hmade⟩
        · exact Or.inr ⟨type, hl, hfree, rfl⟩
        · refine Or.inl ⟨hl, h.grown_of_make_place hfree (fun id forest hdraft => ?_) hmade⟩
          obtain ⟨found, literal, hv', hd, rfl, rfl⟩ := Forest.createDraft_ok.mp hdraft
          rw [hid, hv] at hv'
          cases hv'
          have hlit := Forest.draftLiteral_ok hd
          rw [hl] at hlit
          rw [Option.map_eq_none_iff.mp hlit.symm]
          exact ⟨rfl, rfl⟩

/-- Where a value line is waited for, it was read, and its node fits. -/
theorem readLine_waiting (h : Built scene.registry start placings progress)
    {first : Nat} {type : ValueType} (hv : scene.registry.get? variant.id = some variant)
    (hfree : progress.placed.find? path = none)
    (hrun : (readLine scene line text).runOn
        { progress with pending := some ⟨first, path, variant, type⟩ } = (.ok (), after)) :
    ∃ payload literal, text = Entry.chars ⟨path, .value, payload⟩ ∧
      LiteralText.Denotes scene.scenario scene.services type payload literal ∧
      Placing.Fits ⟨path, variant, some literal⟩ placings ∧
      after = progress.grow path variant (some literal) := by
  obtain ⟨⟨own, marker, payload⟩, _, rfl, hentry⟩ := readLine_ok hrun
  cases marker with
  | definition =>
      -- a definition waits for its value, so another one is out of place
      obtain ⟨hidle, _⟩ := readDefinition_ok hentry
      exact absurd hidle (by simp)
  | value =>
      obtain ⟨_, literal, ⟨⟩, hown, hread, hmade⟩ := readValue_ok hentry
      dsimp only at hown hread hmade
      subst hown
      have hidle : { progress with pending := none } = progress := by rw [← h.idle]
      rw [hidle] at hmade
      refine ⟨payload, literal, rfl, LiteralText.read_ok.mp hread,
        h.grown_of_make_place hfree (fun id forest hnode => ?_) hmade⟩
      obtain ⟨found, hv', _, _, _, rfl, rfl⟩ := Forest.createNode_ok.mp hnode
      rw [hv] at hv'
      cases hv'
      exact ⟨rfl, rfl⟩

/-- **Lines that were read to the end spell nodes that fit**, whether or not the first of them is a
value line that was waited for. -/
theorem spelled_of_readPart (hs : Forest.Linked start) (numbered : List (Nat × List Char)) :
    (∀ {placings : List Placing} {progress after : Progress},
      Built scene.registry start placings progress →
      (readPart scene numbered).runOn progress = (.ok (), after) → after.pending = none →
      ∃ more, Spelled scene (numbered.map Prod.snd) more ∧ Fitting placings more ∧
        Built scene.registry start (placings ++ more) after) ∧
    (∀ {placings : List Placing} {progress after : Progress} {first : Nat} {path : Path}
        {variant : Variant} {type : ValueType},
      Built scene.registry start placings progress →
      scene.registry.get? variant.id = some variant → progress.placed.find? path = none →
      (readPart scene numbered).runOn
        { progress with pending := some ⟨first, path, variant, type⟩ } = (.ok (), after) →
      after.pending = none →
      ∃ payload literal lines more,
        numbered.map Prod.snd = Entry.chars ⟨path, .value, payload⟩ :: lines ∧
        LiteralText.Denotes scene.scenario scene.services type payload literal ∧
        Spelled scene lines more ∧ Fitting placings (⟨path, variant, some literal⟩ :: more) ∧
        Built scene.registry start (placings ++ ⟨path, variant, some literal⟩ :: more) after) := by
  induction numbered with
  | nil =>
      refine ⟨fun {placings _ _} h hrun _ => ?_, fun _ _ _ hrun hdone => ?_⟩
      · obtain ⟨_, rfl⟩ := pure_ok.mp hrun
        exact ⟨[], .nil, trivial, by rw [List.append_nil]; exact h⟩
      · -- the value line never came
        obtain ⟨_, rfl⟩ := pure_ok.mp hrun
        exact absurd hdone (by simp)
  | cons numberedLine rest ih =>
      obtain ⟨line, text⟩ := numberedLine
      obtain ⟨ihIdle, ihWaiting⟩ := ih
      refine ⟨fun {placings progress after} h hrun hdone => ?_,
        fun {placings progress after _ path variant _} h hv hfree hrun hdone => ?_⟩
      · obtain ⟨_, mid, hline, hrest⟩ := bind_ok.mp hrun
        obtain ⟨path, variant, hnamed, hv, rfl, hbare | hvalued⟩ := readLine_idle h hline
        · obtain ⟨hl, hfits, rfl⟩ := hbare
          obtain ⟨more, hspelled, hfitting, hbuilt⟩ := ihIdle (h.grow hs hfits hv) hrest hdone
          refine ⟨⟨path, variant, none⟩ :: more, .bare hnamed hv hl hspelled, ⟨hfits, hfitting⟩, ?_⟩
          rw [← List.append_cons] at hbuilt
          exact hbuilt
        · obtain ⟨type, hl, hfree, rfl⟩ := hvalued
          -- the definition waits, and the rest of the lines begins with its value
          obtain ⟨payload, literal, lines, more, he, hd, hspelled, hfitting, hbuilt⟩ :=
            ihWaiting h hv hfree hrest hdone
          refine ⟨_, ?_, hfitting, hbuilt⟩
          rw [List.map_cons, he]
          exact .valued hnamed hv hl hd hspelled
      · obtain ⟨_, mid, hline, hrest⟩ := bind_ok.mp hrun
        obtain ⟨payload, literal, rfl, hd, hfits, rfl⟩ := readLine_waiting h hv hfree hline
        obtain ⟨more, hspelled, hfitting, hbuilt⟩ := ihIdle (h.grow hs hfits hv) hrest hdone
        refine ⟨payload, literal, _, more, rfl, hd, hspelled, ⟨hfits, hfitting⟩, ?_⟩
        rw [← List.append_cons] at hbuilt
        exact hbuilt

/-- **Nodes that fit are read from the lines that spell them.** -/
theorem reads_of_spelled (hs : Forest.Linked start) (hr : scene.registry.Sound)
    {lines : List (List Char)} {more : List Placing} (hspelled : Spelled scene lines more) :
    ∀ {placings : List Placing} {progress : Progress},
      Built scene.registry start placings progress → Fitting placings more →
      ∃ after, Reads scene progress lines after ∧
        Built scene.registry start (placings ++ more) after := by
  induction hspelled with
  | nil =>
      intro placings progress h _
      exact ⟨progress, .nil, by rw [List.append_nil]; exact h⟩
  | @bare path variant lines more hnamed hv hl _ ih =>
      intro placings progress h hfitting
      obtain ⟨hfits, hrest⟩ := hfitting
      obtain ⟨after, hreads, hbuilt⟩ := ih (h.grow hs hfits hv) hrest
      have hown : Reads scene progress [Entry.chars ⟨path, .definition, variant.id.toList⟩]
          (progress.grow path variant none) := by
        refine Reads.entries (h.isOpen hfits) hv (hr.get? hv) hnamed ?_ (Or.inl ⟨rfl, rfl⟩)
        exact hl
      refine ⟨after, hown.append hreads, ?_⟩
      rw [← List.append_cons] at hbuilt
      exact hbuilt
  | @valued path variant type payload literal lines more hnamed hv hl hd _ ih =>
      intro placings progress h hfitting
      obtain ⟨hfits, hrest⟩ := hfitting
      obtain ⟨after, hreads, hbuilt⟩ := ih (h.grow hs hfits hv) hrest
      have htype : literal.type = type := hd.type_eq
      have hown : Reads scene progress
          [Entry.chars ⟨path, .definition, variant.id.toList⟩, Entry.chars ⟨path, .value, payload⟩]
          (progress.grow path variant (some literal)) := by
        -- an entry that fits is read at an open path, and grows the forest by its node
        refine Reads.entries (h.isOpen hfits) hv (hr.get? hv) hnamed ?_
          (Or.inr ⟨literal, payload, rfl, rfl, ?_⟩)
        · rw [hl, Option.map_some, htype]
        · rw [htype]
          exact LiteralText.read_ok.mpr hd
      refine ⟨after, hown.append hreads, ?_⟩
      rw [← List.append_cons] at hbuilt
      exact hbuilt

/-! ## A whole text -/

variable {scenario : Scenario} {services : σ} {lines : List (Nat × List Char)}

/-- A text that was read as a tree spells nodes that fit, and these were built. -/
theorem built_of_decodeLines (hs : Forest.Linked scenario.forest) {root : NodeId}
    {later : Scenario}
    (hrun : (Scenario.decodeLines registry services lines).runOn scenario = (.ok root, later)) :
    ∃ placings progress,
      Spelled ⟨registry, scenario, services⟩
        ((lines.filter fun line => !line.2.isEmpty).map Prod.snd) placings ∧
      Fitting [] placings ∧ Built registry scenario.forest placings progress ∧
      progress.root = some root ∧ later = { scenario with forest := progress.forest } := by
  obtain ⟨progress, hread, rfl⟩ := Scenario.decodeLines_ok.mp hrun
  rw [readLines_runOn] at hread
  obtain ⟨_, mid, hpart, hend⟩ := bind_ok.mp hread
  obtain ⟨hp, hroot, rfl⟩ := readLines_nil_ok.mp hend
  obtain ⟨placings, hspelled, hfitting, hbuilt⟩ :=
    (spelled_of_readPart hs _).1 (built_start hs) hpart hp
  exact ⟨placings, mid, hspelled, hfitting, hbuilt, hroot, rfl⟩

/-- A text that spells nodes that fit is read as a tree. -/
theorem exists_decodeLines (hs : Forest.Linked scenario.forest) (hr : registry.Sound)
    (hspelled : Spelled ⟨registry, scenario, services⟩
      ((lines.filter fun line => !line.2.isEmpty).map Prod.snd) placings)
    (hfitting : Fitting [] placings) (hne : placings ≠ []) :
    ∃ root later,
      (Scenario.decodeLines registry services lines).runOn scenario = (.ok root, later) := by
  obtain ⟨progress, hreads, hbuilt⟩ := reads_of_spelled hs hr hspelled (built_start hs) hfitting
  have hroot : ∃ root, progress.root = some root := by
    rw [hbuilt.root, hbuilt.placed, ← Option.isSome_iff_exists, ← Option.ne_none_iff_isSome, ne_eq,
      numberAt_eq_none]
    cases placings with
    | nil => exact absurd rfl hne
    | cons first rest => exact fun hnone => hnone first List.mem_cons_self hfitting.root
  obtain ⟨root, hroot⟩ := hroot
  exact ⟨root, _, hreads.decodeLines hbuilt.idle hroot rfl⟩

end Reading

end Rulebook
