import Rulebook.Proofs.Dispatch
import Rulebook.Proofs.Evaluation.Typing
import Rulebook.Proofs.Interchange.Encoding
import Rulebook.Proofs.Scenario.Numbering

/-!
# What has been removed stays away

Since numbers are not used again, nothing that comes later can be mistaken for
something that is gone. A literal that referred to a region keeps referring to
that region, which it does not find; a report speaks of no trigger that was
deleted before it.
-/

namespace Rulebook

open Attempt

/-! ## Literals that refer to nothing -/

/-- The node is of a variant whose nodes stand for their literals. -/
def Registry.Reads (registry : Registry) (node : Node) : Prop :=
  ∃ variant, registry.get? node.variant = some variant ∧ variant.rule = Builtin.ownLiteral

theorem Builtin.rule_of_literal :
    ∀ variant ∈ variants, variant.literal.isSome = true → variant.rule = ownLiteral := by
  have hvalues : ∀ variant ∈ values, variant.rule = ownLiteral := by
    simp [values, valueVariant]
  have hothers : ∀ variant ∈ expressions ++ conditionals ++ actions ++ events,
      variant.literal.isSome = false := by
    decide
  intro variant hm hl
  simp only [variants, List.append_assoc, List.mem_append] at hm hothers
  rcases hm with hm | hm
  · exact hvalues variant hm
  · exact absurd (hothers variant hm) (by simp [hl])

namespace Scene

variable {σ ρ : Type} [Services σ] {scene : Scene} {id : NodeId} {node : Node} {variant : Variant}
  {region : RegionId} {limit : Nat}

/-- A literal that refers to a region stands for the region if it is there, and for nothing
otherwise. -/
theorem resolve_region (scene : Scene) (id : NodeId) (region : RegionId) (s : Host σ ρ) :
    (scene.resolve id (.region region)).runOn s
      = (if (scene.scenario.region? region).isSome then .ok (.region region)
          else .error (.danglingReference id region.text), s) := by
  have hvalue : scene.literalValue? s.services (.region region)
      = if (scene.scenario.region? region).isSome then .ok (.region region)
          else .error (.danglingReference region.text) := by
    rw [literalValue?]
    cases scene.scenario.region? region <;> rfl
  rw [resolve, runOn_bind, runOn_get]
  dsimp only
  rw [runOn_check, hvalue]
  split <;> rfl

variable [RandomSource ρ]

theorem serve_ownLiteral {literal : Literal} (hl : node.literal = some literal)
    (below : NodeId → Evaluation σ ρ Value) :
    scene.serve below node Builtin.ownLiteral = scene.resolve node.id literal := by
  rw [Builtin.ownLiteral]
  simp only [serve, hl, bind_pure]

/-- A node ends as its rule does, if what that yields is of the declared type. -/
theorem evaluateWithin_of_serve {remaining : Nat} {s t : Host σ ρ}
    {result : Except EvalError Value} (hn : scene.scenario.forest.get? id = some node)
    (hv : scene.registry.get? node.variant = some variant)
    (hs : (scene.serve (scene.evaluateWithin limit remaining) node variant.rule).runOn s
      = (result, t))
    (ht : ∀ value, result = .ok value → value.type = node.result) :
    (scene.evaluateWithin limit (remaining + 1) id).runOn s = (result, t) := by
  rw [evaluateWithin, hn]
  simp only [hv]
  rw [runOn_bind, hs]
  cases result with
  | error e => rfl
  | ok value =>
      dsimp only
      rw [if_pos (ht value rfl)]
      rfl

/-- A node that stands for a region that is not there has no value. -/
theorem evaluate_dangling (hn : scene.scenario.forest.get? id = some node) (hid : node.id = id)
    (hl : node.literal = some (.region region)) (hr : scene.registry.Reads node)
    (hgone : scene.scenario.region? region = none) (limit : Nat) (host : Host σ ρ) :
    (scene.evaluate (limit + 1) id).runOn host
      = (.error (.danglingReference id region.text), host) := by
  obtain ⟨variant, hv, hrule⟩ := hr
  have hserve : (scene.serve (scene.evaluateWithin (limit + 1) limit) node variant.rule).runOn host
      = (.error (.danglingReference id region.text), host) := by
    rw [hrule, serve_ownLiteral hl, resolve_region, hgone, hid]
    rfl
  exact evaluateWithin_of_serve hn hv hserve fun value he => absurd he (by simp)

end Scene

namespace Scenario

variable {registry : Registry} {scenario : Scenario} {region : RegionId}

/-- In a script that was made of the built-in variants, every node with a literal stands for it. -/
theorem Reachable.reads (h : Reachable .builtin scenario) {id : NodeId} {node : Node}
    (hn : scenario.forest.get? id = some node) (hl : node.literal.isSome = true) :
    Registry.builtin.Reads node := by
  obtain ⟨variant, hv, _, _, hliteral⟩ := h.conforms.forest.typed hn
  refine ⟨variant, hv, ?_⟩
  exact Builtin.rule_of_literal variant (Registry.mem_of_builtin hv) (by simp [hliteral, hl])

/-- What refers to a region that is not there is not written. -/
theorem write_dangling (hgone : scenario.region? region = none) :
    LiteralText.write scenario (.region region) = .error (.unresolvedReference 0 region.text) := by
  rw [LiteralText.write, hgone]

theorem encode_dangling {id : NodeId} {node : Node} {variant : Variant}
    (hn : scenario.forest.get? id = some node) (hl : node.literal = some (.region region))
    (hv : registry.get? node.variant = some variant) (hgone : scenario.region? region = none) :
    scenario.encode registry id = .error (.unresolvedReference 0 region.text) := by
  have hown : scenario.ownEntries [] node = .error (.unresolvedReference 0 region.text) := by
    unfold ownEntries
    rw [hl]
    exact Check.bind_error.mpr (.inl (write_dangling hgone))
  refine Check.bind_error.mpr (.inl ?_)
  rw [entries, entriesWithin, hn]
  simp only [hv]
  exact Check.bind_error.mpr (.inl hown)

/-- No tree that has such a literal in it is written. -/
theorem encode_above (h : Sound registry scenario) {top : NodeId} {tree : NodeTree}
    (ht : scenario.forest.snapshot top = some tree) (hm : .region region ∈ tree.literals)
    (hgone : scenario.region? region = none) :
    ∃ missing, scenario.region? missing = none ∧
      scenario.encode registry top = .error (.unresolvedReference 0 missing.text) := by
  cases he : scenario.encode registry top with
  | ok lines =>
      obtain ⟨entries, hentries, _⟩ := encode_ok.mp he
      -- if it could be encoded, every literal of the tree could be written
      obtain ⟨text, htext⟩ := writable_of_entries h hentries
        (h.owned.linked.snapshot_iff.mp ht) _ hm
      rw [write_dangling hgone] at htext
      exact absurd htext (by simp)
  | error fault =>
      rcases Check.bind_error.mp he with hentries | ⟨_, _, hpure⟩
      · obtain ⟨missing, hmissing, rfl⟩ :=
          entriesWithin_error h (Forest.treeWithin_mono (Nat.le_succ _) ht) hentries
        exact ⟨missing, hmissing, rfl⟩
      · exact absurd hpure (by simp [pure, Except.pure])

/-- What becomes of a region that is not there. -/
structure Dangling (scenario : Scenario) (region : RegionId) : Prop where
  /-- A node that stands for a literal that refers to the region has no value. -/
  evaluation : ∀ {σ ρ : Type} [Services σ] [RandomSource ρ] {registry id node},
    scenario.forest.get? id = some node → node.literal = some (.region region) →
    registry.Reads node → ∀ facts limit (host : Host σ ρ),
    (Scene.evaluate ⟨registry, scenario, facts⟩ (limit + 1) id).runOn host
      = (.error (.danglingReference id region.text), host)
  /-- With the built-in variants that is every node with such a literal. -/
  reads : Reachable .builtin scenario → ∀ {id node}, scenario.forest.get? id = some node →
    node.literal = some (.region region) → Registry.builtin.Reads node
  /-- Nor is the node written. -/
  encoding : ∀ {registry : Registry} {id node variant}, scenario.forest.get? id = some node →
    node.literal = some (.region region) → registry.get? node.variant = some variant →
    scenario.encode registry id = .error (.unresolvedReference 0 region.text)
  /-- Nor is any tree that it is in, for the sake of this region or of another that is gone. -/
  above : ∀ {registry : Registry} {top tree}, Reachable registry scenario →
    scenario.forest.snapshot top = some tree → .region region ∈ tree.literals →
    ∃ missing, scenario.region? missing = none ∧
      scenario.encode registry top = .error (.unresolvedReference 0 missing.text)

theorem Reached.dangling (h : Reached scenario) (hgone : ¬ scenario.Has (.region region)) :
    Dangling scenario region := by
  have hnone : scenario.region? region = none := by
    cases hr : scenario.region? region with
    | none => rfl
    | some found =>
        obtain ⟨hm, rfl⟩ := mem_of_region? hr
        exact absurd (List.mem_map_of_mem hm) hgone
  refine ⟨fun hn hl hr facts limit host => ?_, fun hreach _ _ hn hl => ?_, fun hn hl hv => ?_,
    fun hreach ht hm => ?_⟩
  · exact Scene.evaluate_dangling hn (h.owned.linked.key hn) hl hr hnone limit host
  · exact hreach.reads hn (by simp [hl])
  · exact encode_dangling hn hl hv hnone
  · exact encode_above hreach.isSound ht hm hnone

/-! ## Triggers that are gone -/

/-- A report has outcomes of triggers of the script only. -/
theorem has_of_mem_outcomes {σ ρ : Type} [Services σ] [RandomSource ρ] {limit : Nat}
    {occurrence : Occurrence} {host : Host σ ρ} {outcome : Outcome}
    (ho : outcome ∈ (dispatch registry limit (some scenario) occurrence host).1.outcomes) :
    scenario.Has (.trigger outcome.trigger) := by
  let scene : Scene := ⟨registry, scenario, .ofOccurrence occurrence⟩
  obtain ⟨visits, hm, hturn, hout⟩ := scene.runTriggers_visits limit scenario.triggers host
  rw [dispatch_some] at ho
  dsimp only at ho
  rw [hout] at ho
  obtain ⟨visit, hv, hsome⟩ := List.mem_filterMap.mp ho
  obtain ⟨before, after, hvisit⟩ := hturn.mem hv
  rw [hsome] at hvisit
  rw [hvisit.accounts.2.named, Has, ← hm]
  exact List.mem_map_of_mem (List.mem_map_of_mem hv)

/-! ## Removing -/

/-- Where entries are told apart by `f`, what is taken out is not there any more. -/
theorem not_mem_of_split {α β : Type} {f : α → β} {entries before rest : List α} {a : α}
    (hd : (entries.map f).Nodup) (hsplit : entries = before ++ a :: rest) :
    f a ∉ (before ++ rest).map f := by
  rw [hsplit, List.map_append, List.map_cons, List.nodup_middle, ← List.map_append] at hd
  exact (List.nodup_cons.mp hd).1

theorem not_has_removeRegion (registry : Registry) (h : Surveyed scenario) :
    ¬ ((Request.removeRegion region).after registry scenario).Has (.region region) := by
  rw [Request.after, removeRegion, runOn_bind, runOn_get]
  dsimp only
  split
  · rename_i hnone
    intro hm
    obtain ⟨found, hf, hid⟩ := List.mem_map.mp hm
    exact absurd (List.findIdx?_eq_none_iff.mp hnone found hf) (by simp [hid])
  · rename_i index hi
    obtain ⟨hlt, hid, _⟩ := List.findIdx?_eq_some_iff_getElem.mp hi
    obtain ⟨before, found, rest, hsplit, rfl⟩ := exists_split hlt
    have hfound : found.id = region := by simpa [hsplit] using hid
    have hgone := not_mem_of_split h.ids hsplit
    rw [← eraseIdx_split before rest found, ← hsplit, hfound] at hgone
    exact hgone

theorem not_has_deleteTrigger (registry : Registry) (h : Owned scenario) {t : TriggerId} :
    ¬ ((Request.deleteTrigger t).after registry scenario).Has (.trigger t) := by
  rw [Request.after]
  cases hr : (deleteTrigger t).runOn scenario with
  | mk result after =>
      cases result with
      | ok count =>
          obtain ⟨index, hi, _, rfl⟩ := deleteTrigger_ok.mp hr
          obtain ⟨before, trigger, rest, hsplit, rfl, rfl⟩ := requireTrigger_ok hi
          have hgone := not_mem_of_split h.ids hsplit
          rw [← eraseIdx_split before rest trigger, ← hsplit] at hgone
          exact hgone
      | error fault =>
          -- a trigger that is there is deleted
          rw [deleteTrigger_spares _ _ _ hr]
          intro hm
          obtain ⟨trigger, ht, rfl⟩ := List.mem_map.mp hm
          obtain ⟨index, hi⟩ := exists_requireTrigger ht
          have hok := deleteTrigger_ok.mpr ⟨index, hi, rfl, rfl⟩
          rw [hr] at hok
          exact absurd (congrArg Prod.fst hok) (by simp)

/-! ## Runs of operations -/

/-- The numbers of a script are used once, whatever is done to it. -/
structure Unrepeated (scenario : Scenario) : Prop where
  /-- What operations hand out is all different. -/
  distinct : ∀ operations, scenario.Permits operations → (scenario.made operations).Nodup
  /-- Nor had it been given out before. -/
  new : ∀ operations, scenario.Permits operations → ∀ handle ∈ scenario.made operations,
    ¬ scenario.Spent handle
  /-- What was there at some time, or was handed out, and is no more, will not be again. -/
  gone : ∀ operations more handle, scenario.Permits (operations ++ more) →
    (∃ first rest, operations = first ++ rest ∧ (scenario.ran first).Has handle) ∨
      handle ∈ scenario.made operations →
    ¬ (scenario.ran operations).Has handle → ¬ (scenario.ran (operations ++ more)).Has handle
  /-- With variants that stay the same, the script stays one that requests can lead to. -/
  reachable : ∀ registry operations, Reachable registry scenario → scenario.Permits operations →
    (∀ operation ∈ operations, operation.Within registry) →
    Reachable registry (scenario.ran operations)
  /-- After a region was removed, literals that refer to it refer to nothing for good. -/
  region : ∀ first registry region more, (scenario.ran first).Has (.region region) →
    scenario.Permits (first ++ .edit registry (.removeRegion region) :: more) →
    Dangling (scenario.ran (first ++ .edit registry (.removeRegion region) :: more)) region
  /-- After a trigger was deleted, no report has an outcome of it. -/
  trigger : ∀ first registry t more, (scenario.ran first).Has (.trigger t) →
    scenario.Permits (first ++ .edit registry (.deleteTrigger t) :: more) →
    ∀ {σ ρ : Type} [Services σ] [RandomSource ρ] registry' limit occurrence (host : Host σ ρ),
    ∀ outcome ∈ (dispatch registry' limit
      (some (scenario.ran (first ++ .edit registry (.deleteTrigger t) :: more)))
      occurrence host).1.outcomes,
    outcome.trigger ≠ t

theorem Reached.not_has_ran (h : Reached scenario) {operations more : List Operation}
    {handle : Handle} (hp : scenario.Permits (operations ++ more))
    (hhad : (∃ first rest, operations = first ++ rest ∧ (scenario.ran first).Has handle) ∨
      handle ∈ scenario.made operations)
    (hno : ¬ (scenario.ran operations).Has handle) :
    ¬ (scenario.ran (operations ++ more)).Has handle := by
  obtain ⟨hoperations, hmore⟩ := permits_append.mp hp
  have hrun := h.runsTo hoperations
  -- a number that was had once is below the counter ever after
  have hspent : (scenario.ran operations).Spent handle := by
    rcases hhad with ⟨first, rest, rfl, hhas⟩ | hm
    · obtain ⟨hfirst, hrest⟩ := permits_append.mp hoperations
      have hreached := (h.runsTo hfirst).reached
      rw [ran_append]
      exact (hreached.runsTo hrest).later.spent (hhas.spent hreached.owned hreached.surveyed)
    · exact (hrun.issued handle hm).2
  rw [ran_append]
  exact (hrun.reached.runsTo hmore).later.gone hspent hno

/-- What an operation removes stays away, whatever comes after the operation. -/
theorem Reached.not_has_removed (h : Reached scenario) {first more : List Operation}
    {operation : Operation} {handle : Handle} (hp : scenario.Permits (first ++ operation :: more))
    (hhas : (scenario.ran first).Has handle)
    (hno : ¬ (operation.after (scenario.ran first)).Has handle) :
    ¬ (scenario.ran (first ++ operation :: more)).Has handle := by
  rw [List.append_cons] at hp ⊢
  refine h.not_has_ran hp (.inl ⟨first, [operation], rfl, hhas⟩) ?_
  rw [ran_append]
  exact hno

/-- **Numbers are not used again.** -/
theorem Reached.unrepeated (h : Reached scenario) : Unrepeated scenario := by
  have hreached : ∀ {first more}, scenario.Permits (first ++ more) →
      Reached (scenario.ran first) := fun hp => (h.runsTo (permits_append.mp hp).1).reached
  refine ⟨fun operations hp => (h.runsTo hp).distinct,
    fun operations hp handle hm => ((h.runsTo hp).issued handle hm).1,
    fun _ _ _ hp => h.not_has_ran hp, fun _ _ hreach => hreach.ran,
    fun first registry region more hhas hp => ?_, fun first registry t more hhas hp => ?_⟩
  · refine (h.runsTo hp).reached.dangling ?_
    exact h.not_has_removed hp hhas (not_has_removeRegion registry (hreached hp).surveyed)
  · intro σ ρ _ _ registry' limit occurrence host outcome ho he
    have hthere := has_of_mem_outcomes ho
    rw [he] at hthere
    exact h.not_has_removed hp hhas (not_has_deleteTrigger registry (hreached hp).owned) hthere

end Scenario

/-! ## A border that is drawn again

A region is removed while a node refers to it; the script is stored and loaded, and another region
of the same name and extent is added. -/

namespace Border

def extent : Bounds := ⟨⟨⟨0⟩, ⟨0⟩, ⟨0⟩⟩, ⟨⟨0⟩, ⟨0⟩, ⟨0⟩⟩⟩

def requests : List Request :=
  [.addTrigger "watch", .addRegion "border" extent,
    .createNode "RegionValue" [] (some (.region ⟨0⟩))]

/-- The script. -/
def script : Scenario :=
  requests.foldl (fun scenario request => request.after ⟨Builtin.variants⟩ scenario)
    (.empty "border")

def operations : List Operation :=
  [.edit ⟨Builtin.variants⟩ (.removeRegion ⟨0⟩), .reload Snapshot.byNumber,
    .edit ⟨Builtin.variants⟩ (.addRegion "border" extent)]

theorem script_reachable : Scenario.Reachable .builtin script :=
  Scenario.reachable_requests "border" requests (by decide +kernel)

end Border

namespace Scenario

/-- The new region has another number, and the node still refers to the old one. -/
theorem unrepeated_border :
    Unrepeated Border.script ∧ Border.script.made Border.operations = [.region ⟨1⟩] ∧
      Dangling (Border.script.ran Border.operations) ⟨0⟩ ∧
      (Border.script.ran Border.operations).region? ⟨1⟩
        = some ⟨⟨1⟩, "border", none, Border.extent⟩ := by
  have hunrepeated := Border.script_reachable.reached.unrepeated
  have hpermits : Border.script.Permits Border.operations := by decide +kernel
  have hthere : ⟨0⟩ ∈ Border.script.regions.map Region.id := by decide +kernel
  exact ⟨hunrepeated, by decide +kernel, hunrepeated.region [] _ _ _ hthere hpermits,
    by decide +kernel⟩

end Scenario

end Rulebook
