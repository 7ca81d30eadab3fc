import Rulebook.Proofs.Forest.Extends
import Rulebook.Proofs.Scenario.Reachable
import Rulebook.World

/-!
# Reading that fails leaves nothing behind

Reading makes nodes, puts each into a slot of one made before, and notes every
node that it makes. So at any line, and however the line ends, the old nodes are
as they were and all others are noted: `Confined`. Removing what was noted then
leaves the old nodes and nothing else, in whatever order it is removed and
whatever holds what.

Importing a trigger puts back the scenario that it began with, so even numbers
that were given out in the meantime are free again.
-/

namespace Rulebook

open Attempt

/-- New nodes hang together with new ones only, and all of them are noted. -/
structure Confined (start : Forest) (progress : Progress) : Prop where
  forest : Forest.Extends start progress.forest
  noted : ∀ {id : NodeId} {node : Node}, progress.forest.get? id = some node →
    id.raw < start.nextId ∨ id ∈ progress.created
  fresh : ∀ id ∈ progress.created, start.nextId ≤ id.raw
  /-- What may become the holder of another node is new. -/
  placed : ∀ {path : Path} {id : NodeId}, progress.placed.find? path = some id →
    start.nextId ≤ id.raw

theorem confined_start {start : Forest} (h : Forest.Linked start) :
    Confined start { forest := start } where
  forest := .refl h
  noted := fun hn => Or.inl (h.used hn)
  fresh := by simp
  placed := by
    intro path id hf
    rw [Places.find?_empty] at hf
    exact absurd hf (by simp)

namespace Reading

variable {start : Forest} {registry : Registry} {line : Nat} {path : Path}

/-- A node that is made is new, and is noted. -/
theorem confined_make {step : Forest.Edit NodeId} (hspares : Spares step)
    (hplant : ∀ forest id after, step.runOn forest = (.ok id, after) →
      id = ⟨forest.nextId⟩ ∧ ∃ variant literal, after = forest.plant variant literal) :
    Keeps (Confined start) (make line step) := by
  intro progress hp
  unfold make
  refine bind_after (fun id after hr => ?_) fun e after hr => ?_
  · rw [edit_runOn] at hr
    obtain ⟨hres, rfl⟩ := Prod.mk.inj hr
    obtain ⟨forest, hrun⟩ := exists_after (Check.mapError_ok.mp hres)
    obtain ⟨rfl, variant, literal, rfl⟩ := hplant _ _ _ hrun
    rw [hrun]
    show Confined start { progress with
      forest := progress.forest.plant variant literal
      created := ⟨progress.forest.nextId⟩ :: progress.created }
    refine ⟨hp.forest.plant variant literal, fun {id node} hn => ?_, fun id hm => ?_, hp.placed⟩
    · -- a node is an old one, one that was noted, or the one just planted
      rcases (Forest.get?_plant_iff hp.forest.linked).mp hn with ⟨rfl, _⟩ | hn
      · exact Or.inr List.mem_cons_self
      · exact (hp.noted hn).imp_right (List.mem_cons_of_mem _)
    · rcases List.mem_cons.mp hm with rfl | hm
      · exact hp.forest.later
      · exact hp.fresh id hm
  · rw [edit_runOn] at hr
    obtain ⟨hres, rfl⟩ := Prod.mk.inj hr
    cases hrun : step.runOn progress.forest with
    | mk result forest =>
        rw [hrun] at hres
        cases result with
        | ok id => exact absurd hres (by simp [Except.mapError])
        | error e =>
            have he : forest = progress.forest := hspares _ _ _ hrun
            rw [he]
            exact hp

/-- A new node is put into a slot of a new node, or becomes the root. -/
theorem confined_place (hs : Forest.Linked start) {id : NodeId} (hid : start.nextId ≤ id.raw) :
    Keeps (Confined start) (place registry line path id) := by
  -- noting the path changes no node
  have hput : Keeps (Confined start) (modifyThe Progress fun progress =>
      { progress with placed := progress.placed.put id path } : Reading PUnit) := by
    refine .modify fun progress hp => ⟨hp.forest, hp.noted, hp.fresh, fun {other found} hf => ?_⟩
    have hfind := Places.find?_put id path other progress.placed
    rw [hfind] at hf
    split at hf
    · cases hf
      exact hid
    · exact hp.placed hf
  unfold place
  split
  · exact .bind (.modify fun _ hp => ⟨hp.forest, hp.noted, hp.fresh, hp.placed⟩) fun _ => hput
  · rename_i above param _
    intro progress hp
    refine get_after ?_
    split
    · exact hp
    · rename_i parent hparent
      refine Keeps.after ?_ fun _ => hput
      rw [edit_runOn]
      refine ⟨hp.forest.setArgument hs (hp.placed hparent) hid, fun hn => ?_, hp.fresh, hp.placed⟩
      -- filling a slot makes no node, so all there are were noted before
      obtain ⟨node, hold⟩ := Forest.exists_of_setArgument hp.forest.linked hn
      exact hp.noted hold

theorem stable_confined {σ : Type} [Services σ] (scene : ReadingScene σ)
    (hs : Forest.Linked start) : Stable scene (Confined start) where
  waits := fun _ hp => ⟨hp.forest, hp.noted, hp.fresh, hp.placed⟩
  draft := by
    refine confined_make Forest.createDraft_spares fun forest id after hr => ?_
    obtain ⟨variant, literal, _, _, rfl, rfl⟩ := Forest.createDraft_ok.mp hr
    exact ⟨rfl, variant, literal, rfl⟩
  node := by
    intro line id type text literal _
    refine confined_make Forest.createNode_spares fun forest id after hr => ?_
    obtain ⟨variant, _, _, _, _, rfl, rfl⟩ := Forest.createNode_ok.mp hr
    exact ⟨rfl, variant, some literal, rfl⟩
  place := fun hp hid => confined_place hs (hp.fresh _ hid) _ hp

end Reading

namespace Scenario

variable {scenario : Scenario} {start forest : Forest} {registry : Registry} {σ : Type}
  [Services σ] {services : σ}

/-! ## Taking back what was made -/

/-- Removing new nodes leaves the old ones alone. -/
theorem extends_removeTrees (hs : Forest.Linked start) (roots : List NodeId) :
    ∀ {forest : Forest}, Forest.Extends start forest → (∀ id ∈ roots, start.nextId ≤ id.raw) →
      Forest.Extends start (removeTrees forest roots) := by
  induction roots with
  | nil => exact fun h _ => h
  | cons root rest ih =>
      intro forest h hnew
      exact ih (h.removeSubtree hs (hnew root List.mem_cons_self))
        fun id hid => hnew id (List.mem_cons_of_mem _ hid)

/-- What was removed is gone, whatever was removed with it or before it. -/
theorem not_mem_of_removeTrees (roots : List NodeId) :
    ∀ {forest : Forest} {id : NodeId} {left : Node}, Forest.Linked forest →
      (removeTrees forest roots).get? id = some left →
      id ∉ roots ∧ ∃ node, forest.get? id = some node := by
  induction roots with
  | nil => exact fun _ hl => ⟨List.not_mem_nil, _, hl⟩
  | cons root rest ih =>
      intro forest id left h hl
      obtain ⟨hrest, mid, hm⟩ := ih (Forest.linked_removeSubtree h root) hl
      obtain ⟨hb, node, hn, _⟩ := (Forest.get?_removeSubtree h).mp hm
      refine ⟨fun hmem => ?_, node, hn⟩
      rcases List.mem_cons.mp hmem with rfl | hmem
      · exact hb .refl
      · exact hrest hmem

/-- **When all that is noted is removed**, only the next number can tell. -/
theorem removeTrees_confined (hs : Forest.Linked start) {progress : Progress}
    (h : Confined start progress) {roots : List NodeId}
    (hroots : ∀ id, id ∈ roots ↔ id ∈ progress.created) :
    ∃ next, start.nextId ≤ next ∧
      removeTrees progress.forest roots = { start with nextId := next } := by
  have hext : Forest.Extends start (removeTrees progress.forest roots) :=
    extends_removeTrees hs roots h.forest fun id hid => h.fresh id ((hroots id).mp hid)
  refine ⟨_, hext.later, hext.eq_of_no_new (fun id left hl => ?_) hs⟩
  obtain ⟨hgone, node, hn⟩ := not_mem_of_removeTrees roots h.forest.linked hl
  exact (h.noted hn).resolve_right fun hm => hgone ((hroots id).mpr hm)

theorem decodeLines_error (h : Forest.Linked scenario.forest) {lines : List (Nat × List Char)}
    {fault : InterchangeError} {after : Scenario}
    (hrun : (decodeLines registry services lines).runOn scenario = (.error fault, after)) :
    ∃ next, scenario.forest.nextId ≤ next ∧
      after = { scenario with forest := { scenario.forest with nextId := next } } := by
  have hkeeps : Confined scenario.forest
      ((Reading.readLines ⟨registry, scenario, services⟩ lines).runOn
        { forest := scenario.forest }).2 :=
    Reading.keeps_readLines (Reading.stable_confined _ h) lines _ (confined_start h)
  obtain ⟨progress, hread, rfl⟩ := decodeLines_failed.mp hrun
  rw [hread] at hkeeps
  obtain ⟨next, hle, he⟩ := removeTrees_confined h hkeeps fun _ => List.mem_reverse
  exact ⟨next, hle, by rw [he]⟩

theorem importTrigger_error {text : String} {fault : InterchangeError} {after : Scenario}
    (hrun : (importTrigger registry services text).runOn scenario = (.error fault, after)) :
    after = scenario := by
  have hback : ∀ e t, (importTrigger registry services text).runOn scenario = (.error e, t) →
      t = scenario := by
    intro e t hr
    unfold importTrigger at hr
    rw [runOn_bind, runOn_get] at hr
    dsimp only at hr
    rw [runOn_bind, runOn_check] at hr
    cases ho : TriggerText.outline text.toList with
    | error fault =>
        rw [ho] at hr
        exact (congrArg Prod.snd hr).symm
    | ok outline =>
        rw [ho] at hr
        obtain ⟨_, _, rfl⟩ := onFailure_error.mp hr
        rfl
  exact hback fault after hrun

/-- How a text is rejected: what a failed reading leaves behind. -/
structure RollsBack {σ : Type} [Services σ] (registry : Registry) (services : σ)
    (scenario : Scenario) (text : String) : Prop where
  /-- Only the number of the next node may have advanced. -/
  decode : ∀ fault after, (decode registry services text).runOn scenario = (.error fault, after) →
    ∃ next, scenario.forest.nextId ≤ next ∧
      after = { scenario with forest := { scenario.forest with nextId := next } }
  /-- Not even that. -/
  importTrigger : ∀ fault after,
    (importTrigger registry services text).runOn scenario = (.error fault, after) →
    after = scenario

/-- **A text that is rejected leaves a reachable script as it was**, wherever the fault is. -/
theorem Reached.rollsBack (h : Reached scenario) (registry : Registry) (services : σ)
    (text : String) : RollsBack registry services scenario text :=
  ⟨fun _ _ => decodeLines_error h.owned.linked, fun _ _ => importTrigger_error⟩

/-- A tree whose second node lacks its literal, read as it is and as an action of a trigger. -/
theorem rollsBack_greeting :
    ((decode Greeting.variants World.empty "#Say\n\x7btext\x7d#Word").runOn Greeting.script).1
        = .error (.missingLiteral 2 "Word") ∧
      RollsBack Greeting.variants World.empty Greeting.script "#Say\n\x7btext\x7d#Word" ∧
      ((importTrigger Greeting.variants World.empty
          "@trigger again\n@action\n#Say\n\x7btext\x7d#Word").runOn Greeting.script).1
        = .error (.missingLiteral 4 "Word") ∧
      RollsBack Greeting.variants World.empty Greeting.script
        "@trigger again\n@action\n#Say\n\x7btext\x7d#Word" := by
  have hreached := Greeting.script_reachable.reached
  exact ⟨by decide +kernel, hreached.rollsBack _ _ _, by decide +kernel, hreached.rollsBack _ _ _⟩

end Scenario

end Rulebook
