import Rulebook.Proofs.Evaluation.Depth
import Rulebook.Proofs.Template
import Rulebook.Proofs.Text.Digits
import Rulebook.Scenario.Display

/-!
# What a node reads

A literal reads as its text, each kind in a way of its own: a number in decimal, a
text in quotes, a key with its colon, a region by its name.

A tree reads as its literal, or else as the template of its variant, filled in with
what the trees in its slots read. Here that is a relation between trees and texts,
without a bound on the depth. It takes from outside which levels are hidden: what
has no literal and stands on a hidden level reads as an ellipsis.

An editor displays a node as its tree reads when the level of the bound and all
below it are hidden. As no level of a tree that is not too deep is hidden then, such
a tree is displayed in full.
-/

namespace Rulebook

namespace Scenario

/-! ## Reading a literal -/

/-- The operators as they are written. -/
def operatorSigns : List (Comparator × String) :=
  [(.equal, "="), (.notEqual, "!="), (.less, "<"), (.lessOrEqual, "<="), (.greater, ">"),
    (.greaterOrEqual, ">=")]

/-- What a literal reads. -/
inductive LiteralReads (scenario : Scenario) : Literal → String → Prop where
  | int {value : Int64} {text : String} : Text.Numeral value.toInt text.toList →
      LiteralReads scenario (.int value) text
  | text (value : String) : LiteralReads scenario (.text value) ("\"" ++ value ++ "\"")
  | yes : LiteralReads scenario (.bool true) "true"
  | no : LiteralReads scenario (.bool false) "false"
  | comparator {operator : Comparator} {sign : String} : (operator, sign) ∈ operatorSigns →
      LiteralReads scenario (.comparator operator) sign
  /-- The name in lower case. -/
  | damageType {cause : DamageType} {text : String} :
      text.toList = cause.name.toList.map Char.toLower →
      LiteralReads scenario (.damageType cause) text
  | block (key : ResourceKey) : LiteralReads scenario (.block key) (key.space ++ ":" ++ key.path)
  | item (key : ResourceKey) : LiteralReads scenario (.item key) (key.space ++ ":" ++ key.path)
  | region {id : RegionId} {region : Region} : scenario.region? id = some region →
      LiteralReads scenario (.region id) region.name
  /-- A region that is gone has no name any more. -/
  | missing {id : RegionId} {digits : String} : scenario.region? id = none →
      Text.Decimal id.raw digits.toList →
      LiteralReads scenario (.region id) ("<missing Region(" ++ digits ++ ")>")

section ReadingLiterals

variable {scenario : Scenario} {literal : Literal} {text : String}

theorem mem_operatorSigns {operator : Comparator} {sign : String} :
    (operator, sign) ∈ operatorSigns ↔ sign = operator.symbol := by
  have hall : ∀ entry ∈ operatorSigns, entry.2 = entry.1.symbol := by decide
  refine ⟨hall (operator, sign), ?_⟩
  rintro rfl
  cases operator <;> decide

theorem toList_label (cause : DamageType) :
    cause.label.toList = cause.name.toList.map Char.toLower := by
  cases cause <;> decide

theorem missing_eq (digits : String) :
    "<missing " ++ ("Region(" ++ digits ++ ")") ++ ">" = "<missing Region(" ++ digits ++ ")>" := by
  rw [← String.toList_inj]
  simp

/-- **A literal is displayed as it reads.** -/
theorem literalReads_display (scenario : Scenario) (literal : Literal) :
    LiteralReads scenario literal (scenario.displayLiteral literal) := by
  cases literal with
  | int value => exact .int (Text.numeral_iff.mpr rfl)
  | text value => exact .text value
  | bool value =>
      cases value with
      | true => exact .yes
      | false => exact .no
  | comparator operator => exact .comparator (mem_operatorSigns.mpr rfl)
  | damageType cause => exact .damageType (toList_label cause)
  | block key => exact .block key
  | item key => exact .item key
  | region id =>
      rw [displayLiteral]
      cases hr : scenario.region? id with
      | some region => exact .region hr
      | none =>
          have hdigits : (toString id.raw).toList = Nat.toDigits 10 id.raw := Nat.toList_repr
          dsimp only
          rw [RegionId.text, missing_eq]
          exact .missing hr (Text.decimal_iff.mpr hdigits)

/-- It reads in no other way. -/
theorem literalReads_iff :
    LiteralReads scenario literal text ↔ text = scenario.displayLiteral literal := by
  constructor
  · intro h
    cases h with
    | int h => exact String.toList_inj.mp (Text.numeral_iff.mp h)
    | text | yes | no | block | item => rfl
    | comparator h => exact mem_operatorSigns.mp h
    | damageType h => exact String.toList_inj.mp (h.trans (toList_label _).symm)
    | region hr => rw [displayLiteral, hr]
    | @missing id digits hr hd =>
        have hdigits : digits = toString id.raw :=
          String.toList_inj.mp ((Text.decimal_iff.mp hd).trans Nat.toList_repr.symm)
        rw [displayLiteral, hr, hdigits]
        exact (missing_eq _).symm
  · rintro rfl
    exact literalReads_display scenario literal

end ReadingLiterals

/-! ## Reading a tree -/

/-- What stands in a template for the parameter of a name, if there is one: the text of what is in
its slot or of its default, or else its name. -/
def slotText? (variant : Variant) (tree : NodeTree) (texts : String → String) (name : String) :
    Option String :=
  (variant.param? name).map fun param =>
    match tree.arguments.lookup name, param.fallback with
    | none, none => "<" ++ name ++ ">"
    | _, _ => texts name

/-- What a tree reads if its root stands on a level, counted from above. -/
inductive Reads (registry : Registry) (scenario : Scenario) (hidden : Nat → Prop) :
    Nat → NodeTree → String → Prop where
  | literal {level : Nat} {tree : NodeTree} {literal : Literal}
      {text : String} : tree.literal = some literal → LiteralReads scenario literal text →
      Reads registry scenario hidden level tree text
  | hidden {level : Nat} {tree : NodeTree} : tree.literal = none → hidden level →
      Reads registry scenario hidden level tree "..."
  /-- Without a template there is the name of the variant. -/
  | bare {level : Nat} {tree : NodeTree} {variant : Variant} : tree.literal = none →
      ¬ hidden level → registry.get? tree.variant = some variant → variant.template = "" →
      Reads registry scenario hidden level tree tree.variant
  | filled {level : Nat} {tree : NodeTree} {variant : Variant} {texts : String → String}
      {text : List Char} : tree.literal = none → ¬ hidden level →
      registry.get? tree.variant = some variant → variant.template ≠ "" →
      (∀ name inner, tree.arguments.lookup name = some inner →
        Reads registry scenario hidden (level + 1) inner (texts name)) →
      (∀ name param literal, tree.arguments.lookup name = none → variant.param? name = some param →
        param.fallback = some literal → LiteralReads scenario literal (texts name)) →
      Expands (slotText? variant tree texts) variant.template.toList text →
      Reads registry scenario hidden level tree (String.ofList text)

section SlotText

variable {variant : Variant} {param : Param} {tree inner : NodeTree}
  {texts others : String → String} {name : String}

theorem slotText?_undeclared (hp : variant.param? name = none) :
    slotText? variant tree texts name = none := by
  rw [slotText?, hp, Option.map_none]

theorem slotText?_bound (hp : variant.param? name = some param)
    (hi : tree.arguments.lookup name = some inner) :
    slotText? variant tree texts name = some (texts name) := by
  rw [slotText?, hp, Option.map_some, hi]

theorem slotText?_default {literal : Literal} (hp : variant.param? name = some param)
    (hf : param.fallback = some literal) :
    slotText? variant tree texts name = some (texts name) := by
  rw [slotText?, hp, Option.map_some, hf]
  cases tree.arguments.lookup name <;> rfl

theorem slotText?_required (hp : variant.param? name = some param)
    (hi : tree.arguments.lookup name = none) (hf : param.fallback = none) :
    slotText? variant tree texts name = some ("<" ++ name ++ ">") := by
  rw [slotText?, hp, Option.map_some, hi, hf]

/-- Only the texts of slots that hold something, and of defaults that stand in, are looked at. -/
theorem slotText?_congr
    (hslots : ∀ name inner, tree.arguments.lookup name = some inner → texts name = others name)
    (hdefaults : ∀ name param literal, tree.arguments.lookup name = none →
      variant.param? name = some param → param.fallback = some literal →
      texts name = others name) :
    slotText? variant tree texts = slotText? variant tree others := by
  funext name
  cases hp : variant.param? name with
  | none => rw [slotText?_undeclared hp, slotText?_undeclared hp]
  | some param =>
      cases hi : tree.arguments.lookup name with
      | some inner => rw [slotText?_bound hp hi, slotText?_bound hp hi, hslots name inner hi]
      | none =>
          cases hf : param.fallback with
          | some literal =>
              rw [slotText?_default hp hf, slotText?_default hp hf,
                hdefaults name param literal hi hp hf]
          | none => rw [slotText?_required hp hi hf, slotText?_required hp hi hf]

end SlotText

section Reading

variable {registry : Registry} {scenario : Scenario} {hidden : Nat → Prop} {level : Nat}
  {tree : NodeTree} {text other : String}

/-- **A tree reads in one way.** -/
theorem Reads.unique (h : Reads registry scenario hidden level tree text)
    (ho : Reads registry scenario hidden level tree other) : text = other := by
  induction h generalizing other with
  | literal hl hr =>
      cases ho with
      | literal hl' hr' =>
          cases hl.symm.trans hl'
          rw [literalReads_iff.mp hr, literalReads_iff.mp hr']
      | hidden hl' | bare hl' | filled hl' => exact absurd (hl.symm.trans hl') (by simp)
  | hidden hl hh =>
      cases ho with
      | literal hl' => exact absurd (hl.symm.trans hl') (by simp)
      | hidden => rfl
      | bare _ hh' | filled _ hh' => exact absurd hh hh'
  | bare hl hh hv ht =>
      cases ho with
      | literal hl' => exact absurd (hl.symm.trans hl') (by simp)
      | hidden _ hh' => exact absurd hh' hh
      | bare => rfl
      | filled _ _ hv' ht' =>
          cases hv.symm.trans hv'
          exact absurd ht ht'
  | filled hl hh hv ht _ hdefaults he ih =>
      cases ho with
      | literal hl' => exact absurd (hl.symm.trans hl') (by simp)
      | hidden _ hh' => exact absurd hh' hh
      | bare _ _ hv' ht' =>
          cases hv.symm.trans hv'
          exact absurd ht' ht
      | filled _ _ hv' _ hslots' hdefaults' he' =>
          cases hv.symm.trans hv'
          -- the same stands in every slot, so the template is filled in with the same
          rw [slotText?_congr (fun name inner hi => ih name inner hi (hslots' name inner hi))
            fun name param literal hi hp hf =>
              (literalReads_iff.mp (hdefaults name param literal hi hp hf)).trans
                (literalReads_iff.mp (hdefaults' name param literal hi hp hf)).symm] at he
          rw [TemplatePart.expands_iff.mp he, TemplatePart.expands_iff.mp he']

end Reading

/-! ## Displaying a node -/

section Displaying

variable {registry : Registry} {scenario : Scenario} {hidden : Nat → Prop} {id : NodeId}
  {tree : NodeTree} {node : Node} {variant : Variant} {showNode : NodeId → String}

/-- The texts of what is in the slots of a node, or stands in for it. -/
def slotTexts (scenario : Scenario) (showNode : NodeId → String) (variant : Variant) (node : Node)
    (name : String) : String :=
  match node.argument? name with
  | some child => showNode child
  | none =>
    match (variant.param? name).bind Param.fallback with
    | some literal => scenario.displayLiteral literal
    | none => ""

theorem slotTexts_of_argument? {name : String} {child : NodeId}
    (h : node.argument? name = some child) :
    scenario.slotTexts showNode variant node name = showNode child := by
  rw [slotTexts, h]

theorem slotTexts_of_fallback {name : String} {param : Param} {literal : Literal}
    (h : node.argument? name = none) (hp : variant.param? name = some param)
    (hf : param.fallback = some literal) :
    scenario.slotTexts showNode variant node name = scenario.displayLiteral literal := by
  rw [slotTexts, h, hp, Option.bind_some, hf]

/-- A part of a template is displayed as it is written. -/
theorem toList_displayPart (hl : scenario.forest.Linked) (hs : scenario.forest.Shows id tree)
    (hn : scenario.forest.get? id = some node) (part : TemplatePart) :
    (scenario.displayPart showNode variant node part).toList
      = part.written (slotText? variant tree (scenario.slotTexts showNode variant node)) := by
  cases part with
  | verbatim text => rw [displayPart, TemplatePart.written, String.toList_ofList]
  | braced chars =>
      rw [displayPart]
      cases hp : variant.param? (String.ofList chars) with
      | none =>
          rw [TemplatePart.written_unknown (slotText?_undeclared hp)]
          simp
      | some param =>
          dsimp only
          cases ha : node.argument? (String.ofList chars) with
          | some child =>
              obtain ⟨inner, hi, _⟩ := hs.exists_inner hl hn ha
              rw [TemplatePart.written_known (slotText?_bound hp hi), slotTexts_of_argument? ha]
          | none =>
              have hi := (hs.lookup_eq_none hl hn).mpr ha
              -- an empty slot shows its default, or its own name in angle brackets
              cases hf : param.fallback with
              | some literal =>
                  rw [TemplatePart.written_known (slotText?_default hp hf),
                    slotTexts_of_fallback ha hp hf]
              | none => rw [TemplatePart.written_known (slotText?_required hp hi hf)]

/-- The parts of a template together are what comes of it. -/
theorem expands_displayPart (hl : scenario.forest.Linked) (hs : scenario.forest.Shows id tree)
    (hn : scenario.forest.get? id = some node) (template : List Char) :
    Expands (slotText? variant tree (scenario.slotTexts showNode variant node)) template
      (String.join ((TemplatePart.parse template).map
        (scenario.displayPart showNode variant node))).toList := by
  rw [TemplatePart.expands_iff, String.toList_join, List.flatMap_map]
  exact congrArg (List.flatMap · _) (funext (toList_displayPart hl hs hn))

/-- **A node is displayed as its tree reads** when the levels are hidden that the fuel does not
reach. -/
theorem displayWithin_reads (hl : scenario.forest.Linked)
    (hc : Forest.Conforms registry scenario.forest) (fuel : Nat) :
    ∀ {level : Nat} {id : NodeId} {tree : NodeTree}, scenario.forest.Shows id tree →
      (∀ above < level + fuel, ¬ hidden above) → (fuel < tree.depth → hidden (level + fuel)) →
      Reads registry scenario hidden level tree (displayWithin registry scenario fuel id) := by
  induction fuel with
  | zero =>
      intro level id tree hs hshown hcut
      obtain ⟨node, hn⟩ := hs.exists_node
      obtain ⟨hvariant, hliteral⟩ := Prod.mk.inj (hs.top hn)
      rw [displayWithin, hn]
      dsimp only
      cases hlit : node.literal with
      | some literal => exact .literal (hliteral.trans hlit) (literalReads_display scenario literal)
      | none => exact .hidden (hliteral.trans hlit) (hcut tree.depth_pos)
  | succ fuel ih =>
      intro level id tree hs hshown hcut
      obtain ⟨node, hn⟩ := hs.exists_node
      obtain ⟨hvariant, hliteral⟩ := Prod.mk.inj (hs.top hn)
      obtain ⟨variant, hv, _⟩ := hc.typed hn
      rw [displayWithin, hn]
      dsimp only
      cases hlit : node.literal with
      | some literal => exact .literal (hliteral.trans hlit) (literalReads_display scenario literal)
      | none =>
          have hshows : ¬ hidden level := hshown level (by omega)
          rw [hv]
          dsimp only
          split
          · rename_i hempty
            rw [Registry.id_of_get? hv, ← hvariant]
            rw [← hvariant] at hv
            exact .bare (hliteral.trans hlit) hshows hv (String.isEmpty_iff.mp hempty)
          · rename_i hfull
            have hslots : ∀ name inner, tree.arguments.lookup name = some inner →
                Reads registry scenario hidden (level + 1) inner
                  (scenario.slotTexts (displayWithin registry scenario fuel) variant node
                    name) := by
              intro name inner hi
              obtain ⟨child, ha, hinner⟩ := (hs.lookup hl hn).mp hi
              -- a slot is one level down and its tree one level lower at least
              have hdepth := NodeTree.depth_lt_of_lookup hi
              rw [slotTexts_of_argument? ha]
              refine ih hinner (fun above hlt => hshown above (by omega)) fun hlt => ?_
              have hhidden := hcut (by omega)
              rwa [show level + 1 + fuel = level + (fuel + 1) by omega]
            have hdefaults : ∀ name param literal, tree.arguments.lookup name = none →
                variant.param? name = some param → param.fallback = some literal →
                LiteralReads scenario literal
                  (scenario.slotTexts (displayWithin registry scenario fuel) variant node
                    name) := by
              intro name param literal hi hp hf
              rw [slotTexts_of_fallback ((hs.lookup_eq_none hl hn).mp hi) hp hf]
              exact literalReads_display scenario literal
            rw [← hvariant] at hv
            have hreads := Reads.filled (hliteral.trans hlit) hshows hv
              (fun he => hfull (String.isEmpty_iff.mpr he)) hslots hdefaults
              (expands_displayPart hl hs hn variant.template.toList)
            rwa [String.ofList_toList] at hreads

end Displaying

/-- How the nodes of a script are displayed to an editor. -/
structure Displays (registry : Registry) (scenario : Scenario) : Prop where
  /-- A tree that is no deeper than what is shown is displayed in full. -/
  whole : ∀ {id tree}, scenario.forest.snapshot id = some tree → tree.depth ≤ 64 →
    Reads registry scenario (fun _ => False) 0 tree (scenario.display registry id)
  /-- Of any other, only what is too far down is hidden. -/
  cut : ∀ {id tree}, scenario.forest.snapshot id = some tree →
    Reads registry scenario (fun level => 64 ≤ level) 0 tree (scenario.display registry id)
  /-- Without a bound every tree would read in full. -/
  readable : ∀ {id tree}, scenario.forest.snapshot id = some tree →
    ∃ text, Reads registry scenario (fun _ => False) 0 tree text
  unique : ∀ {hidden level tree text other}, Reads registry scenario hidden level tree text →
    Reads registry scenario hidden level tree other → text = other

/-- **Nodes are displayed as their trees read**, whatever the templates of their variants are. -/
theorem Reachable.displays {registry : Registry} {scenario : Scenario}
    (h : Reachable registry scenario) : Displays registry scenario := by
  have hl := h.owned.linked
  have hc := h.conforms.forest
  refine ⟨?whole, ?cut, ?readable, Reads.unique⟩
  case whole =>
    intro id tree hs hd
    exact displayWithin_reads hl hc shownDepth (hl.snapshot_iff.mp hs) (fun _ _ => not_false)
      fun hlt => absurd hd (Nat.not_le.mpr hlt)
  case cut =>
    intro id tree hs
    refine displayWithin_reads hl hc shownDepth (hl.snapshot_iff.mp hs) (fun level hlt => ?_)
      fun _ => ?_
    · rw [Nat.zero_add] at hlt
      exact Nat.not_le.mpr hlt
    · exact Nat.le_of_eq (Nat.zero_add shownDepth).symm
  case readable =>
    intro id tree hs
    exact ⟨_, displayWithin_reads hl hc tree.depth (hl.snapshot_iff.mp hs) (fun _ _ => not_false)
      fun hlt => absurd hlt (Nat.lt_irrefl _)⟩

end Scenario

/-! ## A ballad

A verse with braces of all sorts in its template, a word that is echoed too often, and a scene in
which there is a literal of every other kind. -/

namespace Ballad

open Greeting (word)

/-- A rule that asks for nothing. -/
def silent : Rule := .done (.text "")

/-- A line about three things, of which the second need not be said. -/
def verse : Variant :=
  { id := "Verse", kind := .expression, result := .text, rule := silent
    params := [{ name := "first", type := .text },
      { name := "second", type := .text, fallback := some (.text "dusk") },
      { name := "third", type := .text }]
    template :=
      "\x7bfirst\x7d, \x7b\x7bfirst\x7d, \x7bsecond\x7d, \x7bthird\x7d, \x7bfourth\x7d \x7b end" }

/-- Something said again. -/
def echo : Variant :=
  { id := "Echo", kind := .expression, result := .text, rule := silent
    params := [{ name := "inner", type := .text }]
    template := "\x7binner\x7d!" }

/-- What a scene is made of, as far as it is not understood. -/
def scene : Variant :=
  { id := "Scene", kind := .expression, result := .text, rule := silent
    params := [{ name := "count", type := .int, fallback := some (.int (-12)) },
      { name := "night", type := .bool, fallback := some (.bool true) },
      { name := "sign", type := .comparator, fallback := some (.comparator .lessOrEqual) },
      { name := "cause", type := .damageType, fallback := some (.damageType .drowning) },
      { name := "item", type := .item }, { name := "block", type := .block },
      { name := "place", type := .region }, { name := "ruin", type := .region }]
    template := "\x7bcount\x7d \x7bnight\x7d \x7bsign\x7d \x7bcause\x7d \x7bitem\x7d "
      ++ "\x7bblock\x7d \x7bplace\x7d \x7bruin\x7d" }

def block : Variant :=
  { id := "Block", kind := .value, result := .block, literal := some .block, rule := silent }

def item : Variant :=
  { id := "Item", kind := .value, result := .item, literal := some .item, rule := silent }

def place : Variant :=
  { id := "Place", kind := .value, result := .region, literal := some .region, rule := silent }

def variants : Registry := ⟨[word, verse, echo, scene, block, item, place]⟩

/-- A word. -/
def hi : NodeTree := ⟨"Word", some (.text "hi"), []⟩

def heather : ResourceKey := ⟨"moor", "heather", by decide, by decide⟩

def sprig : ResourceKey := ⟨"moor", "sprig", by decide, by decide⟩

/-- A scene in two places, of which one is not there any more. -/
def onTheMoor : NodeTree :=
  ⟨"Scene", none, [("block", ⟨"Block", some (.block heather), []⟩),
    ("item", ⟨"Item", some (.item sprig), []⟩),
    ("place", ⟨"Place", some (.region ⟨0⟩), []⟩), ("ruin", ⟨"Place", some (.region ⟨9⟩), []⟩)]⟩

def requests : List Request :=
  [.insertTree ⟨"Verse", none, [("first", hi)]⟩, .insertTree (hi.nest "Echo" "inner" 64),
    .insertTree (NodeTree.nest ⟨"Echo", none, []⟩ "Echo" "inner" 64),
    .addRegion "the moor" ⟨.origin, .origin⟩, .insertTree onTheMoor]

/-- The script. -/
def script : Scenario :=
  requests.foldl (fun scenario request => request.after variants scenario) (.empty "ballad")

theorem script_reachable : Scenario.Reachable variants script := by
  have hword : Registry.empty.register word = .ok ⟨[word]⟩ := rfl
  have hverse : Registry.register ⟨[word]⟩ verse = .ok ⟨[word, verse]⟩ := rfl
  have hecho : Registry.register ⟨[word, verse]⟩ echo = .ok ⟨[word, verse, echo]⟩ := rfl
  have hscene : Registry.register ⟨[word, verse, echo]⟩ scene
      = .ok ⟨[word, verse, echo, scene]⟩ := rfl
  have hblock : Registry.register ⟨[word, verse, echo, scene]⟩ block
      = .ok ⟨[word, verse, echo, scene, block]⟩ := rfl
  have hitem : Registry.register ⟨[word, verse, echo, scene, block]⟩ item
      = .ok ⟨[word, verse, echo, scene, block, item]⟩ := rfl
  have hplace : Registry.register ⟨[word, verse, echo, scene, block, item]⟩ place
      = .ok variants := rfl
  have h0 : Scenario.Reachable variants (.empty "ballad") :=
    .register (.register (.register (.register (.register (.register (.register (.empty _) hword)
      hverse) hecho) hscene) hblock) hitem) hplace
  exact h0.requests requests (by decide +kernel)

end Ballad

namespace Scenario

/-- Braces without a parameter stay as they are. The word is shown where another echo is not, and
a place that is gone by its number. -/
theorem displays_ballad :
    Displays Ballad.variants Ballad.script ∧
      Ballad.script.display Ballad.variants ⟨0⟩
        = "\"hi\", \x7b\x7bfirst\x7d, \"dusk\", <third>, \x7bfourth\x7d \x7b end" ∧
      Ballad.script.display Ballad.variants ⟨2⟩
        = "\"hi\"" ++ String.ofList (List.replicate 64 '!') ∧
      Ballad.script.display Ballad.variants ⟨67⟩
        = "..." ++ String.ofList (List.replicate 64 '!') ∧
      Ballad.script.display Ballad.variants ⟨132⟩
        = "-12 true <= drowning moor:sprig moor:heather the moor <missing Region(9)>" :=
  ⟨Ballad.script_reachable.displays, by decide +kernel⟩

end Scenario

end Rulebook
