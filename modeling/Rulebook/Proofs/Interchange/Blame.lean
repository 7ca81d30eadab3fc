import Rulebook.Proofs.Interchange.Format
import Rulebook.Proofs.Interchange.Renumbering
import Rulebook.Proofs.Scenario.Reachable
import Rulebook.World

/-!
# Which line is to blame

A fault shows at the line that is being read, or at the definition that waits for
its value line, which is the line read before. In both cases everything up to the
line that is blamed was read without a fault. So the lines before it make up a text
of which no more can be said than that it is not finished: it has no root yet, or
its last definition has no value line. A text that ends with the line is rejected
there too.

Empty lines can be put in anywhere before a line of a text. The numbers of the
later lines change by that, in a fault as well, and nothing else does.
-/

namespace Rulebook

open Attempt

namespace Reading

variable {registry : Registry} {line : Nat} {path : Path} {id : NodeId} {n : Nat}

/-! ## Faults of a line -/

/-- The step fails with faults of the line only. -/
abbrev Blames {α : Type} (line : Nat) (step : Reading α) : Prop :=
  Ends (fun _ => True) (fun fault => fault.line? = some line) step

theorem blames_edit {α : Type} (step : Forest.Edit α) : Blames line (edit line step) := by
  intro progress
  rw [edit_runOn]
  dsimp only
  cases (step.runOn progress.forest).1 with
  | ok _ => trivial
  | error _ => rfl

theorem blames_modify (change : Progress → Progress) :
    Blames line (modifyThe Progress change : Reading PUnit) := fun _ => trivial

theorem blames_make (step : Forest.Edit NodeId) : Blames line (make line step) :=
  .bind (blames_edit step) fun _ _ => .bind (blames_modify _) fun _ _ => .pure trivial

theorem blames_place : Blames line (place registry line path id) := by
  unfold place
  split
  · exact .bind (blames_modify _) fun _ _ => blames_modify _
  · refine .get fun progress => ?_
    split
    · exact .throw rfl
    · exact .bind (blames_edit _) fun _ _ => blames_modify _

theorem blames_define {name : String} : Blames line (define registry line path name) := by
  unfold define
  refine .get fun progress => ?_
  dsimp only
  split
  · exact .throw rfl
  · cases registry.get? name with
    | some variant =>
        split
        · split
          · exact .pure trivial
          · exact .throw rfl
        · exact .pure trivial
    | none =>
        split
        · split
          · exact .throw rfl
          · exact .throw rfl
        · exact .throw rfl

/-- A step that makes a node and places it. -/
theorem blames_make_place (step : Forest.Edit NodeId) :
    Blames line (make line step >>= fun id => place registry line path id) :=
  .bind (blames_make step) fun _ _ => blames_place

/-- The fault shows at the line, or at the definition that waits for its value line. -/
def Located (progress : Progress) (line : Nat) (fault : InterchangeError) : Prop :=
  fault.line? = some line ∨
    ∃ pending, progress.pending = some pending ∧ fault.line? = some pending.line

/-- The outcome is a fault that shows there, if it is one. -/
abbrev EndsLocated {α : Type} (progress : Progress) (line : Nat) (step : Reading α) : Prop :=
  Check.Ends (fun _ => True) (Located progress line) (step.runOn progress).1

variable {progress after : Progress}

theorem located_of_blames {α : Type} {step : Reading α} (h : Blames line step) :
    EndsLocated progress line step := (h progress).mono (fun _ _ => trivial) fun _ => Or.inl

theorem readDefinition_located {entry : Entry} :
    EndsLocated progress line (readDefinition registry line entry) := by
  unfold readDefinition EndsLocated
  rw [runOn_bind, runOn_get]
  dsimp only
  cases hp : progress.pending with
  | some pending => exact Or.inr ⟨pending, hp, rfl⟩
  | none =>
      refine located_of_blames (.bind blames_define fun variant _ => ?_)
      split
      · exact blames_modify _
      · exact blames_make_place _

variable {σ : Type} [Services σ] {scene : ReadingScene σ} {text : List Char}

theorem readValue_located {entry : Entry} :
    EndsLocated progress line (readValue scene line entry) := by
  unfold readValue EndsLocated
  rw [runOn_bind, runOn_get]
  dsimp only
  cases hp : progress.pending with
  | none => exact Or.inl rfl
  | some pending =>
      dsimp only
      by_cases hpath : pending.path = entry.path
      · rw [runOn_ite, if_pos hpath, runOn_bind, runOn_modify]
        dsimp only
        rw [runOn_bind, runOn_check]
        cases LiteralText.read scene.scenario scene.services pending.type entry.payload with
        | error fault => cases fault <;> exact Or.inl rfl
        | ok literal =>
            -- what goes wrong from here on is said of the line of the definition
            have hmade : Blames pending.line
                (make pending.line
                    (Forest.createNode scene.registry pending.variant.id [] (some literal)) >>=
                  fun id => place scene.registry pending.line pending.path id) :=
              blames_make_place _
            exact (hmade _).mono (fun _ _ => trivial) fun fault hf => Or.inr ⟨pending, hp, hf⟩
      · rw [runOn_ite, if_neg hpath]
        exact Or.inl rfl

/-- **A fault of a line** shows there, or at the definition that waits for its value line. -/
theorem readLine_located : EndsLocated progress line (readLine scene line text) := by
  unfold readLine EndsLocated
  rw [runOn_bind, runOn_check]
  cases Entry.parse text with
  | error how => exact Or.inl rfl
  | ok entry =>
      obtain ⟨path, marker, payload⟩ := entry
      cases marker with
      | definition => exact readDefinition_located
      | value => exact readValue_located

/-! ## The definition that waits -/

theorem idle_place :
    Keeps (fun progress => progress.pending = none) (place registry n path id) := by
  unfold place
  split
  · exact .bind (.modify fun _ h => h) fun _ => .modify fun _ h => h
  · refine .bind .get fun progress => ?_
    split
    · exact .throw _
    · exact .bind (fun _ h => h) fun _ => .modify fun _ h => h

/-- Nothing waits because a node was made. -/
theorem idle_make_place {step : Forest.Edit NodeId} (hp : progress.pending = none)
    (hmade : (make n step >>= fun id => place registry n path id).runOn progress
      = (.ok (), after)) :
    after.pending = none := by
  have hmake : Keeps (fun progress => progress.pending = none) (make n step) :=
    .bind (fun _ h => h) fun _ => .bind (.modify fun _ h => h) fun _ => .pure _
  have hkept : ((make n step >>= fun id => place registry n path id).runOn progress).2.pending
      = none := Keeps.bind hmake (fun _ => idle_place) progress hp
  rw [hmade] at hkept
  exact hkept

/-- **What waits after a line** is what the line has defined. -/
theorem line_of_pending (hrun : (readLine scene line text).runOn progress = (.ok (), after))
    {pending : Pending} (hp : after.pending = some pending) : pending.line = line := by
  have hbusy : after.pending ≠ none := by simp [hp]
  obtain ⟨⟨own, marker, payload⟩, _, _, hread⟩ := readLine_ok hrun
  cases marker with
  | definition =>
      obtain ⟨hidle, variant, _, _, ⟨type, _, rfl⟩ | ⟨_, hmade⟩⟩ := readDefinition_ok hread
      · cases hp
        rfl
      · exact absurd (idle_make_place hidle hmade) hbusy
  | value =>
      obtain ⟨_, _, _, _, _, hmade⟩ := readValue_ok hread
      exact absurd (idle_make_place rfl hmade) hbusy

/-! ## All lines -/

variable {start : Progress} {fault : InterchangeError} {done lines : List (Nat × List Char)}

/-- At the end nothing may wait any longer. -/
theorem readLines_nil_waiting {pending : Pending} (hp : progress.pending = some pending) :
    (readLines scene []).runOn progress
      = (.error (.missingLiteral pending.line pending.variant.id), progress) := by
  unfold readLines
  rw [runOn_bind, runOn_get]
  dsimp only
  rw [hp]
  rfl

/-- At the end a text may turn out to be unfinished. -/
theorem readLines_nil_error
    (hrun : (readLines scene []).runOn progress = (.error fault, after)) :
    fault = .empty ∨ ∃ pending, progress.pending = some pending ∧
      fault = .missingLiteral pending.line pending.variant.id := by
  cases hp : progress.pending with
  | some pending =>
      rw [readLines_nil_waiting hp] at hrun
      cases hrun
      exact Or.inr ⟨pending, rfl, rfl⟩
  | none =>
      unfold readLines at hrun
      rw [runOn_bind, runOn_get] at hrun
      dsimp only at hrun
      rw [hp] at hrun
      -- nothing is pending, so what is missing can only be the root
      cases hr : progress.root with
      | some root =>
          rw [hr] at hrun
          exact absurd (congrArg Prod.fst hrun) (by simp)
      | none =>
          rw [hr] at hrun
          cases hrun
          exact Or.inl rfl

/-- The lines were read from the first, and a definition that waits is the last of them. -/
structure Follows (scene : ReadingScene σ) (start : Progress) (done : List (Nat × List Char))
    (progress : Progress) : Prop where
  read : (readPart scene done).runOn start = (.ok (), progress)
  waits : ∀ pending, progress.pending = some pending →
    ∃ before text, done = before ++ [(pending.line, text)]

/-- The fault shows at one of the lines. The lines before that one are read without a fault, and
with it they are not read to the end, for a fault that shows there as well. -/
def Traced (scene : ReadingScene σ) (start : Progress) (lines : List (Nat × List Char))
    (fault : InterchangeError) : Prop :=
  ∃ before found rest progress, lines = before ++ found :: rest ∧
    fault.line? = some found.1 ∧ (readPart scene before).runOn start = (.ok (), progress) ∧
    ∃ other after, (readPart scene (before ++ [found]) >>= fun _ => readLines scene []).runOn start
      = (.error other, after) ∧ other.line? = some found.1

namespace Follows

/-- After one more line. -/
theorem step (h : Follows scene start done progress)
    (hrun : (readLine scene line text).runOn progress = (.ok (), after)) :
    Follows scene start (done ++ [(line, text)]) after := by
  refine ⟨?_, fun pending hp => ⟨done, text, by rw [line_of_pending hrun hp]⟩⟩
  rw [readPart_append, runOn_bind, h.read]
  dsimp only
  rw [readPart, runOn_bind, hrun]
  rfl

/-- The definition that waits is to blame. -/
theorem traced_pending (h : Follows scene start done progress) {pending : Pending}
    (hp : progress.pending = some pending) (hf : fault.line? = some pending.line) :
    Traced scene start (done ++ lines) fault := by
  obtain ⟨before, text, rfl⟩ := h.waits pending hp
  have hread := h.read
  rw [readPart_append] at hread
  obtain ⟨_, mid, hbefore, _⟩ := bind_ok.mp hread
  refine ⟨before, (pending.line, text), lines, mid, by simp, hf, hbefore,
    .missingLiteral pending.line pending.variant.id, progress, ?_, rfl⟩
  rw [runOn_bind, h.read]
  exact readLines_nil_waiting hp

/-- The line that cannot be read is to blame. -/
theorem traced_line (h : Follows scene start done progress)
    (hrun : (readLine scene line text).runOn progress = (.error fault, after))
    (hf : fault.line? = some line) : Traced scene start (done ++ (line, text) :: lines) fault := by
  refine ⟨done, (line, text), lines, progress, rfl, hf, h.read, fault, after, ?_, hf⟩
  have hall : (readPart scene (done ++ [(line, text)])).runOn start = (.error fault, after) := by
    rw [readPart_append, runOn_bind, h.read]
    dsimp only
    rw [readPart, runOn_bind, hrun]
  rw [runOn_bind, hall]

/-- **However the lines are read to the end**, a fault is traced to one of them, or the text is
empty. -/
theorem traced (lines : List (Nat × List Char)) :
    ∀ {done : List (Nat × List Char)} {progress after : Progress},
      Follows scene start done progress →
      (readPart scene lines >>= fun _ => readLines scene []).runOn progress
        = (.error fault, after) →
      fault = .empty ∨ Traced scene start (done ++ lines) fault := by
  induction lines with
  | nil =>
      intro done progress after h hrun
      have hend : (readLines scene []).runOn progress = (.error fault, after) := hrun
      refine (readLines_nil_error hend).imp_right fun hmissing => ?_
      obtain ⟨pending, hp, rfl⟩ := hmissing
      exact h.traced_pending hp rfl
  | cons found rest ih =>
      intro done progress after h hrun
      obtain ⟨line, text⟩ := found
      rw [readPart, bind_assoc] at hrun
      rcases bind_error.mp hrun with hline | ⟨_, mid, hline, hrest⟩
      · -- the fault is that of this line, or of the definition before it that still waits
        right
        have hlocated : EndsLocated progress line (readLine scene line text) := readLine_located
        rw [EndsLocated, hline] at hlocated
        rcases hlocated with hown | ⟨pending, hp, hbefore⟩
        · exact h.traced_line hline hown
        · exact h.traced_pending hp hbefore
      · -- the line was read, and the fault lies further down
        have hall := ih (h.step hline) hrest
        rw [List.append_assoc, List.singleton_append] at hall
        exact hall

end Follows

end Reading

namespace Scenario

variable {registry : Registry} {scenario : Scenario} {σ : Type} [Services σ] {services : σ}
  {text : String} {fault : InterchangeError}

/-- A text is rejected if its lines that are not empty are not read to the end. -/
theorem decode_error : ((decode registry services text).runOn scenario).1 = .error fault ↔
    ∃ progress, (Reading.readPart ⟨registry, scenario, services⟩ (Text.filledLines text.toList) >>=
        fun _ => Reading.readLines ⟨registry, scenario, services⟩ []).runOn
          { forest := scenario.forest } = (.error fault, progress) := by
  constructor
  · intro h
    have hrun : (decode registry services text).runOn scenario
        = (.error fault, ((decode registry services text).runOn scenario).2) := Prod.ext h rfl
    obtain ⟨progress, hread, _⟩ := decodeLines_failed.mp hrun
    rw [Reading.readLines_runOn] at hread
    exact ⟨progress, hread⟩
  · rintro ⟨progress, hread⟩
    have hall : (Reading.readLines ⟨registry, scenario, services⟩
        (Text.numberedLines text.toList)).runOn { forest := scenario.forest }
          = (.error fault, progress) := by
      rw [Reading.readLines_runOn]
      exact hread
    exact congrArg Prod.fst (decodeLines_failed.mpr ⟨progress, hall, rfl⟩)

/-- A fault is traced to one of the lines that are not empty. -/
theorem traced_of_decode
    (h : ((decode registry services text).runOn scenario).1 = .error fault) :
    fault = .empty ∨ Reading.Traced ⟨registry, scenario, services⟩ { forest := scenario.forest }
      (Text.filledLines text.toList) fault := by
  obtain ⟨progress, hread⟩ := decode_error.mp h
  have hstart : Reading.Follows ⟨registry, scenario, services⟩ { forest := scenario.forest } []
      { forest := scenario.forest } := ⟨rfl, fun _ hp => absurd hp (by simp)⟩
  exact hstart.traced _ hread

/-- A text whose lines are read without a fault is at most unfinished. -/
theorem unfinished_of_decode {progress : Progress}
    (hread : (Reading.readPart ⟨registry, scenario, services⟩
      (Text.filledLines text.toList)).runOn { forest := scenario.forest } = (.ok (), progress))
    (h : ((decode registry services text).runOn scenario).1 = .error fault) :
    fault = .empty ∨ ∃ line variant, fault = .missingLiteral line variant := by
  obtain ⟨last, hall⟩ := decode_error.mp h
  rw [runOn_bind, hread] at hall
  refine (Reading.readLines_nil_error hall).imp_right fun hmissing => ?_
  obtain ⟨pending, _, rfl⟩ := hmissing
  exact ⟨_, _, rfl⟩

/-- How the fault of a text is located. -/
structure Pinpoints {σ : Type} [Services σ] (registry : Registry) (services : σ)
    (scenario : Scenario) (text : String) : Prop where
  /-- Only a text without entries is rejected without a line. -/
  lined : ∀ fault, ((decode registry services text).runOn scenario).1 = .error fault →
    fault = .empty ∨ ∃ line, fault.line? = some line
  /-- The line is one of the text. The lines before it are at most unfinished, and with it they are
  rejected, for a fault that shows there as well. -/
  first : ∀ fault line, ((decode registry services text).runOn scenario).1 = .error fault →
    fault.line? = some line →
    1 ≤ line ∧ line ≤ (Text.lines text.toList).length ∧
      (∀ other, ((decode registry services (Text.upTo (line - 1) text)).runOn scenario).1
          = .error other →
        other = .empty ∨ ∃ number variant, other = .missingLiteral number variant) ∧
      ∃ other, ((decode registry services (Text.upTo line text)).runOn scenario).1 = .error other ∧
        other.line? = some line
  /-- Empty lines before line `n + 1` change a fault in its number alone, and nothing else. -/
  decode : ∀ n ends, n < (Text.lines text.toList).length →
    (∀ ending ∈ ends, ending ∈ Text.lineEnds) →
    (decode registry services (Text.spaced n ends text)).runOn scenario =
      (((decode registry services text).runOn scenario).1.mapError
          (.renumber (Text.moved n ends.length)),
        ((decode registry services text).runOn scenario).2)
  /-- The same goes for a text that holds a trigger. -/
  importTrigger : ∀ n ends, n < (Text.lines text.toList).length →
    (∀ ending ∈ ends, ending ∈ Text.lineEnds) →
    (importTrigger registry services (Text.spaced n ends text)).runOn scenario =
      (((importTrigger registry services text).runOn scenario).1.mapError
          (.renumber (Text.moved n ends.length)),
        ((importTrigger registry services text).runOn scenario).2)

/-- **A fault is pinned to the first line that is wrong**, in every script and for every text. -/
theorem pinpoints (registry : Registry) (services : σ) (scenario : Scenario) (text : String) :
    Pinpoints registry services scenario text := by
  refine ⟨fun fault h => ?_, fun fault line h hline => ?_, fun n ends hn hends => ?_,
    fun n ends hn hends => ?_⟩
  · refine (traced_of_decode h).imp_right fun htraced => ?_
    obtain ⟨_, found, _, _, _, hfound, _⟩ := htraced
    exact ⟨found.1, hfound⟩
  · have htraced := (traced_of_decode h).resolve_left fun hempty => by
      subst hempty
      exact absurd hline (by simp [InterchangeError.line?])
    obtain ⟨before, found, rest, progress, hsplit, hfound, hread, other, after, hall, hother⟩ :=
      htraced
    cases hline.symm.trans hfound
    obtain ⟨hpos, hle, hbefore, hupTo⟩ := Text.filledLines_split hsplit
    -- the lines up to a line are those of the text cut off behind it
    rw [← Text.toList_upTo] at hbefore hupTo
    refine ⟨hpos, hle, fun unfinished hun => ?_, other, decode_error.mpr ⟨after, ?_⟩, hother⟩
    · rw [← hbefore] at hread
      exact unfinished_of_decode hread hun
    · rw [hupTo]
      exact hall
  · exact decode_renumbers (Text.filledLines_spaced hn hends) scenario
  · have hzero : Text.moved n ends.length 0 = 0 := if_neg n.not_lt_zero
    exact importTrigger_renumbers hzero (Text.filledLines_spaced hn hends) scenario

/-- The second line of a text lacks its literal. Two empty lines before it make it the fourth. -/
theorem pinpoints_greeting :
    ((decode Greeting.variants World.empty "#Say\n\x7btext\x7d#Word").runOn Greeting.script).1
        = .error (.missingLiteral 2 "Word") ∧
      ((decode Greeting.variants World.empty "#Say\n\n\r\n\x7btext\x7d#Word").runOn
          Greeting.script).1
        = .error (.missingLiteral 4 "Word") := by
  have hplain : ((decode Greeting.variants World.empty "#Say\n\x7btext\x7d#Word").runOn
      Greeting.script).1 = .error (.missingLiteral 2 "Word") := by decide +kernel
  have hspaced := (pinpoints Greeting.variants World.empty Greeting.script
    "#Say\n\x7btext\x7d#Word").decode 1 [['\n'], ['\r', '\n']] (by decide) (by decide)
  have htext : Text.spaced 1 [['\n'], ['\r', '\n']] "#Say\n\x7btext\x7d#Word"
      = "#Say\n\n\r\n\x7btext\x7d#Word" := by decide
  rw [htext] at hspaced
  refine ⟨hplain, ?_⟩
  rw [hspaced, hplain]
  rfl

end Scenario

end Rulebook
