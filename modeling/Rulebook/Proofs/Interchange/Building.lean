import Rulebook.Interchange.TriggerText
import Rulebook.Proofs.Scenario.Edits

/-!
# What reading does to a scenario

However a text reads, the nodes go through a run of changes. Whether reading
gets to the end or stops at a fault, every node that it kept note of is new, so
what it removes after a fault was the root of no trigger.

Reading makes nodes in two ways and puts each in its place. What these three
steps keep, reading keeps; `Stable` says that they do. The first invariant of
this kind is `Grown`, to which a property of the nodes may be added that is
`Steady` under the edits behind these steps.
-/

namespace Rulebook

open Attempt

/-- Making a node, by either way, and putting a new node into a slot keep the property. -/
structure Steady {σ : Type} [Services σ] (scene : ReadingScene σ) (start : Forest)
    (P : Forest → Prop) : Prop where
  draft : ∀ {forest : Forest} {id : VariantId}, Forest.Linked forest → P forest →
    P ((Forest.createDraft scene.registry id).runOn forest).2
  node : ∀ {forest : Forest} {id : VariantId} {type : ValueType} {text : List Char}
    {literal : Literal}, LiteralText.read scene.scenario scene.services type text = .ok literal →
    Forest.Linked forest → P forest →
    P ((Forest.createNode scene.registry id [] (some literal)).runOn forest).2
  fill : ∀ {forest : Forest} {parent child : NodeId} {param : String}, start.nextId ≤ child.raw →
    Forest.Linked forest → P forest →
    P ((Forest.setArgument scene.registry parent param child).runOn forest).2

/-- Reading has changed the nodes by a run of changes, and what it made is new. -/
structure Grown (registry : Registry) (start : Forest) (P : Forest → Prop) (progress : Progress) :
    Prop where
  changes : Forest.Changes registry start progress.forest
  fresh : ∀ id ∈ progress.created, start.nextId ≤ id.raw
  root : ∀ id, progress.root = some id → start.nextId ≤ id.raw
  /-- The property still holds. -/
  kept : P progress.forest

namespace Reading

variable {registry : Registry} {start : Forest} {P : Forest → Prop} {line : Nat} {path : Path}
  {entry : Entry}

theorem edit_runOn {α : Type} (line : Nat) (step : Forest.Edit α) (progress : Progress) :
    (edit line step).runOn progress =
      (((step.runOn progress.forest).1.mapError (.rejected line)),
        { progress with forest := (step.runOn progress.forest).2 }) :=
  rfl

theorem keeps_edit {α : Type} (h : Forest.Linked start) {step : Forest.Edit α}
    (hstep : ∀ {forest}, Forest.Linked forest →
      Forest.Changes registry forest (step.runOn forest).2)
    (hP : ∀ {forest}, Forest.Linked forest → P forest → P (step.runOn forest).2) :
    Keeps (Grown registry start P) (edit line step) := by
  intro progress hp
  have hl := hp.changes.linked h
  rw [edit_runOn]
  exact ⟨hp.changes.trans (hstep hl), hp.fresh, hp.root, hP hl hp.kept⟩

theorem keeps_make (h : Forest.Linked start) {step : Forest.Edit NodeId}
    (hstep : ∀ {forest}, Forest.Linked forest →
      Forest.Changes registry forest (step.runOn forest).2)
    (hP : ∀ {forest}, Forest.Linked forest → P forest → P (step.runOn forest).2)
    (hid : ∀ forest id after, step.runOn forest = (.ok id, after) → id = ⟨forest.nextId⟩) :
    Keeps (Grown registry start P) (make line step) := by
  intro progress hp
  have hedit : Grown registry start P ((edit line step).runOn progress).2 :=
    keeps_edit h hstep hP progress hp
  refine bind_after (fun id after hr => ?_) fun e after hr => ?_
  · rw [hr] at hedit
    refine ⟨hedit.changes, fun made hm => ?_, hedit.root, hedit.kept⟩
    rcases List.mem_cons.mp hm with rfl | hm
    · rw [edit_runOn] at hr
      have hok := Check.mapError_ok.mp (congrArg Prod.fst hr)
      obtain ⟨forest, hrun⟩ := exists_after hok
      -- the next number is no less than it was when reading began
      rw [hid _ _ _ hrun]
      exact hp.changes.nextId_le h
    · exact hedit.fresh made hm
  · rw [hr] at hedit
    exact hedit

/-- What was made is noted. -/
theorem mem_created_of_make {step : Forest.Edit NodeId} {progress after : Progress} {id : NodeId}
    (hr : (make line step).runOn progress = (.ok id, after)) : id ∈ after.created := by
  unfold make at hr
  obtain ⟨made, mid, _, hr⟩ := bind_ok.mp hr
  obtain ⟨_, _, hm, hr⟩ := bind_ok.mp hr
  obtain ⟨rfl, rfl⟩ := pure_ok.mp hr
  cases hm
  exact List.mem_cons_self

variable {σ : Type} [Services σ] {scene : ReadingScene σ}

/-- Making a node, by either way, and placing a node that was made keep the invariant; what is
waited for is no part of it. -/
structure Stable (scene : ReadingScene σ) (I : Progress → Prop) : Prop where
  waits : ∀ {progress : Progress} (pending : Option Pending), I progress →
    I { progress with pending }
  draft : ∀ {line : Nat} {id : VariantId},
    Keeps I (make line (Forest.createDraft scene.registry id))
  node : ∀ {line : Nat} {id : VariantId} {type : ValueType} {text : List Char}
    {literal : Literal}, LiteralText.read scene.scenario scene.services type text = .ok literal →
    Keeps I (make line (Forest.createNode scene.registry id [] (some literal)))
  place : ∀ {line : Nat} {path : Path} {id : NodeId} {progress : Progress}, I progress →
    id ∈ progress.created → I ((place scene.registry line path id).runOn progress).2

section Stable

variable {I : Progress → Prop}

/-- A node that was just made may be placed. -/
theorem keeps_make_place (hs : Stable scene I) {step : Forest.Edit NodeId}
    (hmake : Keeps I (make line step)) :
    Keeps I (make line step >>= fun id => place scene.registry line path id) := by
  intro progress hp
  have hmade := hmake progress hp
  refine bind_after (fun id after hr => ?_) fun e after hr => ?_
  · rw [hr] at hmade
    exact hs.place hmade (mem_created_of_make hr)
  · rw [hr] at hmade
    exact hmade

theorem keeps_define {name : String} : Keeps I (define registry line path name) := by
  unfold define
  refine .bind .get fun progress => ?_
  dsimp only
  split
  · exact .throw _
  · split
    · split
      · split
        · exact .pure _
        · exact .throw _
      · exact .throw _
    · split
      · exact .pure _
      · exact .throw _

theorem keeps_readDefinition (hs : Stable scene I) :
    Keeps I (readDefinition scene.registry line entry) := by
  unfold readDefinition
  refine .bind .get fun progress => ?_
  split
  · exact .throw _
  · refine .bind keeps_define fun variant => ?_
    split
    · exact .modify fun _ hp => hs.waits _ hp
    · exact keeps_make_place hs hs.draft

theorem keeps_readValue (hs : Stable scene I) : Keeps I (readValue scene line entry) := by
  unfold readValue
  refine .bind .get fun progress => ?_
  split
  · refine .ite ?_ (.throw _)
    refine .bind (.modify fun _ hp => hs.waits _ hp) fun _ => ?_
    exact .checked fun literal hl => keeps_make_place hs (hs.node (Check.mapError_ok.mp hl))
  · exact .throw _

theorem keeps_readLine (hs : Stable scene I) {text : List Char} :
    Keeps I (readLine scene line text) := by
  unfold readLine
  refine .bind (.check _) fun entry => ?_
  split
  · exact keeps_readDefinition hs
  · exact keeps_readValue hs

/-- **What making and placing keep, reading keeps**, however it ends. -/
theorem keeps_readLines (hs : Stable scene I) (lines : List (Nat × List Char)) :
    Keeps I (readLines scene lines) := by
  induction lines with
  | nil =>
      unfold readLines
      refine .bind .get fun progress => ?_
      cases progress.pending with
      | some pending => exact .throw _
      | none =>
          cases progress.root with
          | some root => exact .pure _
          | none => exact .throw _
  | cons line rest ih =>
      unfold readLines
      split
      · exact ih
      · exact .bind (keeps_readLine hs) fun _ => ih

end Stable

theorem id_of_createDraft (id : VariantId) (forest : Forest) (made : NodeId) (after : Forest)
    (h : (Forest.createDraft registry id).runOn forest = (.ok made, after)) :
    made = ⟨forest.nextId⟩ := by
  obtain ⟨_, _, _, _, rfl, _⟩ := Forest.createDraft_ok.mp h
  rfl

theorem id_of_createNode (id : VariantId) (arguments : List (String × NodeId))
    (literal : Option Literal) (forest : Forest) (made : NodeId) (after : Forest)
    (h : (Forest.createNode registry id arguments literal).runOn forest = (.ok made, after)) :
    made = ⟨forest.nextId⟩ := by
  obtain ⟨_, _, _, _, _, rfl, _⟩ := Forest.createNode_ok.mp h
  rfl

theorem keeps_place (h : Forest.Linked start) (hs : Steady scene start P) {id : NodeId}
    (hid : start.nextId ≤ id.raw) :
    Keeps (Grown scene.registry start P) (place scene.registry line path id) := by
  unfold place
  split
  · refine .bind (.modify fun _ hp => ⟨hp.changes, hp.fresh, ?_, hp.kept⟩) fun _ => ?_
    · rintro _ ⟨⟩
      exact hid
    · exact .modify fun _ hp => ⟨hp.changes, hp.fresh, hp.root, hp.kept⟩
  · refine .bind .get fun progress => ?_
    split
    · exact .throw _
    · refine .bind (keeps_edit h Forest.setArgument_changes (hs.fill hid)) fun _ => ?_
      exact .modify fun _ hp => ⟨hp.changes, hp.fresh, hp.root, hp.kept⟩

theorem stable_grown (h : Forest.Linked start) (hs : Steady scene start P) :
    Stable scene (Grown scene.registry start P) where
  waits := fun _ hp => ⟨hp.changes, hp.fresh, hp.root, hp.kept⟩
  draft := keeps_make h (fun _ => Forest.createDraft_changes) hs.draft (id_of_createDraft _)
  node := fun hr => keeps_make h (fun hf => Forest.createNode_changes hf) (hs.node hr)
    (id_of_createNode _ _ _)
  place := fun hp hid => keeps_place h hs (hp.fresh _ hid) _ hp

/-- The end of the lines is an end if nothing is missing. -/
theorem readLines_nil_ok {progress after : Progress} {root : NodeId} :
    (readLines scene []).runOn progress = (.ok root, after) ↔
      progress.pending = none ∧ progress.root = some root ∧ progress = after := by
  unfold readLines
  rw [runOn_bind, runOn_get]
  dsimp only
  cases hp : progress.pending with
  | some pending => exact ⟨fun h => absurd (congrArg Prod.fst h) (by simp), fun h => by simp at h⟩
  | none =>
      cases hr : progress.root with
      | none => exact ⟨fun h => absurd (congrArg Prod.fst h) (by simp), fun h => by simp at h⟩
      | some id =>
          refine (pure_ok (a := id)).trans ?_
          simp

/-- What is yielded is the root. -/
theorem root_of_readLines {lines : List (Nat × List Char)} {root : NodeId} {after : Progress} :
    ∀ {progress : Progress}, (readLines scene lines).runOn progress = (.ok root, after) →
      after.root = some root := by
  induction lines with
  | nil =>
      intro progress h
      obtain ⟨_, hroot, rfl⟩ := readLines_nil_ok.mp h
      exact hroot
  | cons line rest ih =>
      intro progress h
      rw [readLines] at h
      split at h
      · exact ih h
      · obtain ⟨_, _, _, h⟩ := bind_ok.mp h
        exact ih h

end Reading

namespace Scenario

/-! ## Reading a tree -/

variable {registry : Registry} {start : Forest}

/-- New nodes may be removed one after the other. -/
theorem changes_removeTrees (h : Forest.Linked start) (roots : List NodeId) :
    ∀ {forest : Forest}, Forest.Changes registry start forest →
      (∀ id ∈ roots, start.nextId ≤ id.raw) →
      Forest.Changes registry start (removeTrees forest roots) := by
  induction roots with
  | nil => exact fun hc _ => hc
  | cons root rest ih =>
      intro forest hc hnew
      refine ih (hc.remove_new h (hnew root List.mem_cons_self)) fun id hid => ?_
      exact hnew id (List.mem_cons_of_mem _ hid)

variable {scenario : Scenario} {σ : Type} [Services σ] {services : σ}

/-- A text that is read leaves what its lines have made. -/
theorem decodeLines_ok {lines : List (Nat × List Char)} {root : NodeId} {after : Scenario} :
    (decodeLines registry services lines).runOn scenario = (.ok root, after) ↔
      ∃ progress, (Reading.readLines ⟨registry, scenario, services⟩ lines).runOn
          { forest := scenario.forest } = (.ok root, progress) ∧
        { scenario with forest := progress.forest } = after := by
  rw [decodeLines, runOn_ofRun]
  dsimp only
  cases (Reading.readLines ⟨registry, scenario, services⟩ lines).runOn
      { forest := scenario.forest } with
  | mk result progress => cases result <;> simp [and_assoc]

/-- A text that is rejected leaves its nodes removed again. -/
theorem decodeLines_failed {lines : List (Nat × List Char)} {fault : InterchangeError}
    {after : Scenario} :
    (decodeLines registry services lines).runOn scenario = (.error fault, after) ↔
      ∃ progress, (Reading.readLines ⟨registry, scenario, services⟩ lines).runOn
          { forest := scenario.forest } = (.error fault, progress) ∧
        { scenario with forest := removeTrees progress.forest progress.created.reverse }
          = after := by
  rw [decodeLines, runOn_ofRun]
  dsimp only
  cases (Reading.readLines ⟨registry, scenario, services⟩ lines).runOn
      { forest := scenario.forest } with
  | mk result progress => cases result <;> simp [and_assoc]

/-- What reading a tree keeps, from the first line to the last. -/
theorem grown_readLines (h : Forest.Linked scenario.forest) {P : Forest → Prop}
    (hs : Steady ⟨registry, scenario, services⟩ scenario.forest P) (hp : P scenario.forest)
    (lines : List (Nat × List Char)) :
    Grown registry scenario.forest P
      ((Reading.readLines ⟨registry, scenario, services⟩ lines).runOn
        { forest := scenario.forest }).2 :=
  Reading.keeps_readLines (Reading.stable_grown h hs) lines _ ⟨.refl, by simp, by simp, hp⟩

/-- A tree that was read has a new root, and the property still holds. -/
theorem kept_of_decodeLines (h : Forest.Linked scenario.forest) {P : Forest → Prop}
    (hs : Steady ⟨registry, scenario, services⟩ scenario.forest P) (hp : P scenario.forest)
    {lines : List (Nat × List Char)} {root : NodeId} {after : Scenario}
    (hrun : (decodeLines registry services lines).runOn scenario = (.ok root, after)) :
    scenario.forest.nextId ≤ root.raw ∧ scenario.forest.nextId ≤ after.forest.nextId ∧
      Forest.Linked after.forest ∧ P after.forest := by
  have hgrown := grown_readLines h hs hp lines
  obtain ⟨progress, hread, rfl⟩ := decodeLines_ok.mp hrun
  rw [hread] at hgrown
  exact ⟨hgrown.root _ (Reading.root_of_readLines hread), hgrown.changes.nextId_le h,
    hgrown.changes.linked h, hgrown.kept⟩

/-- **Reading a tree changes nodes only**, and that by a run of changes. -/
theorem decodeLines_changes (h : Forest.Linked scenario.forest) (lines : List (Nat × List Char)) :
    ∃ forest, ((decodeLines registry services lines).runOn scenario).2 = { scenario with forest } ∧
      Forest.Changes registry scenario.forest forest := by
  have hnothing : Steady ⟨registry, scenario, services⟩ scenario.forest fun _ => True :=
    ⟨fun _ _ => trivial, fun _ _ _ => trivial, fun _ _ _ => trivial⟩
  have hgrown := grown_readLines h hnothing trivial lines
  cases hrun : (decodeLines registry services lines).runOn scenario with
  | mk result after =>
      cases result with
      | ok root =>
          obtain ⟨progress, hread, rfl⟩ := decodeLines_ok.mp hrun
          rw [hread] at hgrown
          exact ⟨_, rfl, hgrown.changes⟩
      | error fault =>
          obtain ⟨progress, hread, rfl⟩ := decodeLines_failed.mp hrun
          rw [hread] at hgrown
          -- only what was made since then is taken back
          refine ⟨_, rfl, changes_removeTrees h _ hgrown.changes fun id hid => ?_⟩
          exact hgrown.fresh id (List.mem_reverse.mp hid)

theorem decode_changes (h : Owned scenario) {lines : List (Nat × List Char)} :
    Changes registry scenario ((decodeLines registry services lines).runOn scenario).2 := by
  have hdecode : ∃ forest,
      ((decodeLines registry services lines).runOn scenario).2 = { scenario with forest } ∧
        Forest.Changes registry scenario.forest forest := decodeLines_changes h.linked lines
  obtain ⟨forest, he, hc⟩ := hdecode
  rw [he]
  exact .of_forest hc

/-! ## Reading a trigger -/

theorem keeps_changes {ε α : Type} (h : Owned scenario) {step : Attempt ε Scenario α}
    (hstep : ∀ s, Owned s → Changes registry s (step.runOn s).2) :
    Keeps (Changes registry scenario) step := fun s hs => hs.trans (hstep s (hs.owned h))

theorem importPart_changes (h : Owned scenario) {id : TriggerId} {part : TriggerText.Part} :
    Changes registry scenario ((importPart registry services id part).runOn scenario).2 := by
  have hdecode : Keeps (Changes registry scenario) (decodeLines registry services part.body) :=
    keeps_changes h fun s hs => decode_changes hs
  have hall : Keeps (Changes registry scenario) (importPart registry services id part) := by
    unfold importPart
    refine .bind (.mapError _ hdecode) fun root => .mapError _ ?_
    exact keeps_changes h fun _ _ => attach_changes
  exact hall scenario .refl

theorem keeps_importParts (h : Owned scenario) {id : TriggerId} (parts : List TriggerText.Part) :
    Keeps (Changes registry scenario) (importParts registry services id parts) := by
  induction parts with
  | nil => exact .pure ()
  | cons part rest ih => exact .bind (keeps_changes h fun _ hs => importPart_changes hs) fun _ => ih

theorem importOutline_changes (h : Owned scenario) {outline : TriggerText.Outline} :
    Changes registry scenario ((importOutline registry services outline).runOn scenario).2 := by
  have hall : Keeps (Changes registry scenario) (importOutline registry services outline) := by
    unfold importOutline
    refine .bind (.mapError _ (keeps_changes h fun _ _ => addTrigger_changes _)) fun id => ?_
    refine .bind (keeps_importParts h _) fun _ => ?_
    refine .bind (.mapError _ (keeps_changes h fun _ _ => setTriggerEnabled_changes _)) fun _ => ?_
    exact .pure _
  exact hall scenario .refl

theorem importTrigger_changes (h : Owned scenario) {text : String} :
    Changes registry scenario ((importTrigger registry services text).runOn scenario).2 := by
  unfold importTrigger
  refine get_after (checked_after .refl fun outline _ => ?_)
  have hbuild : Changes registry scenario
      ((importOutline registry services outline).runOn scenario).2 := importOutline_changes h
  refine onFailure_after (fun id t hr => ?_) fun e t hr => ?_
  · rw [hr] at hbuild
    exact hbuild
  · -- a failed import is undone as a whole
    exact .refl

end Scenario

end Rulebook
