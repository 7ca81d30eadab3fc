import Rulebook.Proofs.Evaluation.Simulation
import Rulebook.Proofs.Evaluation.Typing
import Rulebook.Proofs.TreePaths

/-!
# The limit of levels

A limit of levels does nothing but cut an evaluation off. A node can be evaluated
within as many levels as its tree is deep, and perhaps within fewer, because not
every argument has to be asked for. And an evaluation that was not cut off would
have gone the same way under any higher limit.

Here the levels that may still be entered are handed down from a node to what is
in its slots. One might as well keep count: enter a level on the way in, leave it
on the way out, and compare the count to the limit at every node. That comes to
the same, because whichever way an evaluation ends the count is then what it was.
-/

namespace Rulebook

namespace NodeTree

variable {tree inner : NodeTree} {name : String}

theorem depth_pos (tree : NodeTree) : 0 < tree.depth := by
  obtain ⟨variant, literal, arguments⟩ := tree
  rw [depth]
  omega

theorem depth_le_depths {filled : List (String × NodeTree)}
    (h : filled.lookup name = some inner) : inner.depth ≤ depths filled := by
  induction filled with
  | nil => cases h
  | cons slot rest ih =>
      obtain ⟨other, child⟩ := slot
      rw [depths]
      rw [lookup_slot] at h
      by_cases hname : name = other
      · rw [if_pos hname] at h
        cases h
        exact Nat.le_max_left _ _
      · rw [if_neg hname] at h
        exact Nat.le_trans (ih h) (Nat.le_max_right _ _)

/-- What is in a slot is less deep than the whole. -/
theorem depth_lt_of_lookup (h : tree.arguments.lookup name = some inner) :
    inner.depth < tree.depth := by
  obtain ⟨variant, literal, arguments⟩ := tree
  have hle : inner.depth ≤ depths arguments := depth_le_depths h
  rw [depth]
  omega

end NodeTree

/-- The evaluation was cut off. -/
inductive EvalError.IsCutOff : EvalError → Prop where
  | depth (limit : Nat) : IsCutOff (.depthExceeded limit)

/-- A rule that gives up was not cut off. -/
theorem Failure.not_isCutOff (why : Failure) (id : NodeId) : ¬ (why.atNode id).IsCutOff := by
  cases why with
  | missingArgument | danglingReference | missingFact | typeMismatch =>
      intro h
      cases h

namespace Scene

open Attempt (Continues)

variable {σ ρ : Type} [Services σ] [RandomSource ρ] {scene : Scene} {limit : Nat} {id : NodeId}
  {node : Node}

/-! ## Another limit -/

/-- Arguments that go on alike unless they are cut off make for rules that do. -/
theorem serve_continues {α : Type} {child twin : NodeId → Evaluation σ ρ Value}
    (h : ∀ held, Continues EvalError.IsCutOff (child held) (twin held)) (script : Script α) :
    Continues EvalError.IsCutOff (scene.serve child node script)
      (scene.serve twin node script) := by
  induction script with
  | done | fail => exact .refl _
  | argument param next ih =>
      refine .bind ?_ ih
      unfold argument
      split
      · exact h _
      · exact .refl _
  | literal next ih => exact ih node.literal
  | resolve literal next ih => exact .bind (.refl _) ih
  | facts next ih => exact ih scene.facts
  | region id next ih => exact .bind (.refl _) ih
  | ask query next ih => exact .bind (.refl _) ih
  | perform effect next ih => exact .bind (.refl _) fun _ => ih
  | roll low high next ih => exact .bind (.refl _) ih

/-- **More levels change nothing** about an evaluation that was not cut off. -/
theorem evaluateWithin_continues (scene : Scene) (limit limit' : Nat) {remaining more : Nat}
    (h : remaining ≤ more) (id : NodeId) :
    Continues (σ := Host σ ρ) EvalError.IsCutOff (scene.evaluateWithin limit remaining id)
      (scene.evaluateWithin limit' more id) := by
  induction remaining generalizing more id with
  | zero =>
      unfold evaluateWithin
      split
      · exact .refl _
      · split
        · exact .refl _
        · exact .of_fails fun _ => ⟨_, .depth limit, rfl⟩
  | succ remaining ih =>
      obtain ⟨more, rfl⟩ : ∃ levels, more = levels + 1 := ⟨more - 1, by omega⟩
      unfold evaluateWithin
      split
      · exact .refl _
      · split
        · exact .refl _
        · exact .bind (serve_continues (ih (by omega)) _) fun _ => .refl _

/-! ## Levels enough -/

/-- The step is never cut off. -/
def Uncut {α : Type} (step : Evaluation σ ρ α) : Prop :=
  step.Ends (fun _ => True) fun error => ¬ error.IsCutOff

namespace Uncut

variable {α β : Type}

omit [Services σ] [RandomSource ρ]

theorem pure (a : α) : Uncut (Pure.pure a : Evaluation σ ρ α) :=
  Attempt.Ends.pure trivial

theorem throw {error : EvalError} (h : ¬ error.IsCutOff) :
    Uncut (MonadExcept.throw error : Evaluation σ ρ α) :=
  Attempt.Ends.throw h

theorem bind {step : Evaluation σ ρ α} {next : α → Evaluation σ ρ β} (hs : Uncut step)
    (hn : ∀ a, Uncut (next a)) : Uncut (step >>= next) :=
  Attempt.Ends.bind hs fun a _ => hn a

end Uncut

omit [RandomSource ρ] in
theorem resolve_uncut (literal : Literal) :
    Uncut (scene.resolve id literal : Evaluation σ ρ Value) := by
  refine .get fun host => .check ?_
  cases scene.literalValue? host.services literal with
  | ok value => trivial
  | error why => exact why.not_isCutOff id

omit [Services σ] [RandomSource ρ] in
theorem region_uncut (region : RegionId) :
    Uncut (scene.region id region : Evaluation σ ρ Region) := by
  unfold Scene.region
  split
  · exact .pure _
  · exact .throw (by rintro ⟨⟩)

omit [RandomSource ρ] in
/-- The host refuses an effect in its own words. -/
theorem perform_uncut (effect : Effect) : Uncut (perform id effect : Evaluation σ ρ Unit) := by
  intro host
  show Check.Ends _ _
    ((Services.perform effect host.services).1.mapError (EvalError.actionFailed id))
  cases (Services.perform effect host.services).1 with
  | ok _ => trivial
  | error cause => rintro ⟨⟩

omit [RandomSource ρ] in
theorem argument_uncut {child : NodeId → Evaluation σ ρ Value} {param : String}
    (h : ∀ {held}, node.argument? param = some held → Uncut (child held)) :
    Uncut (scene.argument child node param) := by
  unfold argument
  split
  · rename_i held hheld
    exact h hheld
  · split
    · exact resolve_uncut _
    · exact .throw (by rintro ⟨⟩)

/-- A rule is not cut off unless an argument is. -/
theorem serve_uncut {α : Type} {child : NodeId → Evaluation σ ρ Value}
    (h : ∀ {param held}, node.argument? param = some held → Uncut (child held))
    (script : Script α) : Uncut (scene.serve child node script) := by
  induction script with
  | done result => exact .pure result
  | fail why => exact .throw (why.not_isCutOff node.id)
  | argument param next ih => exact .bind (argument_uncut h) ih
  | literal next ih => exact ih node.literal
  | resolve literal next ih => exact .bind (resolve_uncut literal) ih
  | facts next ih => exact ih scene.facts
  | region id next ih => exact .bind (region_uncut id) ih
  | ask query next ih => exact .bind (fun _ => trivial) ih
  | perform effect next ih => exact .bind (perform_uncut effect) fun _ => ih
  | roll low high next ih => exact .bind (fun _ => trivial) ih

/-- **A node needs no more levels than its tree is deep.** -/
theorem evaluateWithin_uncut (hl : scene.scenario.forest.Linked) (limit levels : Nat) :
    ∀ {id : NodeId} {tree : NodeTree}, scene.scenario.forest.Shows id tree → tree.depth ≤ levels →
      Uncut (scene.evaluateWithin limit levels id : Evaluation σ ρ Value) := by
  induction levels with
  | zero =>
      intro id tree _ hd
      have hpos := tree.depth_pos
      omega
  | succ levels ih =>
      intro id tree hs hd
      unfold evaluateWithin
      split
      · exact .throw (by rintro ⟨⟩)
      · rename_i node hn
        split
        · exact .throw (by rintro ⟨⟩)
        · have hchild : ∀ {param held}, node.argument? param = some held →
              Uncut (scene.evaluateWithin limit levels held : Evaluation σ ρ Value) := by
            intro param held ha
            -- what is in a slot shows a tree that is less deep, so one level less is enough for it
            obtain ⟨inner, hslot, hi⟩ := hs.exists_inner hl hn ha
            have hlt : inner.depth < tree.depth := NodeTree.depth_lt_of_lookup hslot
            exact ih hi (by omega)
          refine .bind (serve_uncut hchild _) fun value => ?_
          split
          · exact .pure value
          · exact .bind (.throw (by rintro ⟨⟩)) fun _ => .pure value

/-! ## Keeping count -/

end Scene

/-- A host that also keeps count of the levels that have been entered. -/
structure Leveled (σ : Type) where
  services : σ
  level : Nat

/-- The count is nothing that services know of. -/
instance {σ : Type} [Services σ] : Services (Leveled σ) where
  hasBlock state := Services.hasBlock state.services
  hasItem state := Services.hasItem state.services
  answer query state :=
    let (reply, services) := Services.answer query state.services
    (reply, { state with services })
  perform effect state :=
    let (result, services) := Services.perform effect state.services
    (result, { state with services })

/-- The host as it is when the count stands at the level. -/
def Host.atLevel {σ ρ : Type} (host : Host σ ρ) (level : Nat) : Host (Leveled σ) ρ :=
  ⟨⟨host.services, level⟩, host.random⟩

namespace Scene

variable {σ ρ : Type} [Services σ] [RandomSource ρ] {scene : Scene} {limit : Nat} {id : NodeId}
  {node : Node}

/-- Takes a step one level deeper. However the step ends, the level is left again. -/
def oneDeeper {α : Type} (step : Evaluation (Leveled σ) ρ α) : Evaluation (Leveled σ) ρ α :=
  Attempt.ofRun fun ⟨⟨services, level⟩, random⟩ =>
    let (result, after) := step.runOn ⟨⟨services, level + 1⟩, random⟩
    (result, { after with services.level := after.services.level - 1 })

/-- Fails if the count has come to the limit. -/
def checkLevel (limit : Nat) : Evaluation (Leveled σ) ρ Unit :=
  Attempt.ofRun fun host =>
    (if limit ≤ host.services.level then .error (.depthExceeded limit) else .ok (), host)

/-- Evaluates a node unless the count has come to the limit. Without fuel nothing is entered. -/
def evaluateCounting (scene : Scene) (limit : Nat) :
    (fuel : Nat) → NodeId → Evaluation (Leveled σ) ρ Value
  | fuel, id =>
    match scene.scenario.forest.get? id with
    | none => throw (.unknownNode id)
    | some node =>
      match scene.registry.get? node.variant with
      | none => throw (.unknownVariant node.variant)
      | some variant => do
        checkLevel limit
        match fuel with
        | 0 => throw (.depthExceeded limit)
        | fuel + 1 => do
          let value ← oneDeeper (scene.serve (scene.evaluateCounting limit fuel) node variant.rule)
          unless value.type = node.result do
            throw (.typeMismatch id node.result value.type)
          return value

/-- With the count at the level, the one step does what the other does without a count, and leaves
the count where it was. -/
def Counts {α : Type} (level : Nat) (step : Evaluation (Leveled σ) ρ α)
    (plain : Evaluation σ ρ α) : Prop :=
  ∀ host : Host σ ρ, step.runOn (host.atLevel level)
    = ((plain.runOn host).1, (plain.runOn host).2.atLevel level)

namespace Counts

variable {α β : Type} {level : Nat}

section Relating

omit [Services σ] [RandomSource ρ]

/-- That is to say, the one tracks the other. -/
theorem iff_tracks {step : Evaluation (Leveled σ) ρ α} {plain : Evaluation σ ρ α} :
    Counts level step plain ↔
      Tracks (fun counting host => counting = host.atLevel level) step.runOn plain.runOn := by
  refine ⟨fun h => ?_, fun h host => ?_⟩
  · rintro _ host rfl
    exact ⟨_, _, _, h host, rfl, rfl⟩
  · obtain ⟨result, after, after', hrun, hplain, rfl⟩ := h _ host rfl
    rw [hrun, hplain]

theorem pure (a : α) : Counts (σ := σ) (ρ := ρ) level (Pure.pure a) (Pure.pure a) := fun _ => rfl

theorem throw (error : EvalError) :
    Counts (σ := σ) (ρ := ρ) (α := α) level (MonadExcept.throw error) (MonadExcept.throw error) :=
  fun _ => rfl

theorem bind {step : Evaluation (Leveled σ) ρ α} {plain : Evaluation σ ρ α}
    {next : α → Evaluation (Leveled σ) ρ β} {next' : α → Evaluation σ ρ β}
    (hs : Counts level step plain) (hn : ∀ a, Counts level (next a) (next' a)) :
    Counts level (step >>= next) (plain >>= next') :=
  iff_tracks.mpr (.bind (iff_tracks.mp hs) fun a => iff_tracks.mp (hn a))

/-- The level that was entered is left again. -/
theorem oneDeeper {step : Evaluation (Leveled σ) ρ α} {plain : Evaluation σ ρ α}
    (h : Counts (level + 1) step plain) : Counts level (oneDeeper step) plain := by
  intro host
  show (match step.runOn (host.atLevel (level + 1)) with
    | (result, after) => (result, { after with services.level := after.services.level - 1 })) = _
  rw [h host]
  rfl

end Relating

/-- The count does not show in anything that can be asked of the host. -/
theorem simulates (level : Nat) :
    Simulates fun (counting : Host (Leveled σ) ρ) host => counting = host.atLevel level := by
  refine ⟨?hasBlock, ?hasItem, fun query => ?ask, fun node effect => ?perform,
    fun low high => ?roll⟩
  case hasBlock =>
    rintro _ host rfl key
    rfl
  case hasItem =>
    rintro _ host rfl key
    rfl
  case ask => exact iff_tracks.mp fun _ => rfl
  case perform => exact iff_tracks.mp fun _ => rfl
  case roll => exact iff_tracks.mp fun _ => rfl

end Counts

/-- A rule goes by the count only where its arguments do. -/
theorem serve_counts {α : Type} {level : Nat} {child : NodeId → Evaluation (Leveled σ) ρ Value}
    {plain : NodeId → Evaluation σ ρ Value} (h : ∀ held, Counts level (child held) (plain held))
    (script : Script α) :
    Counts level (scene.serve child node script) (scene.serve plain node script) :=
  Counts.iff_tracks.mpr <|
    serve_tracks (Counts.simulates level) (fun held => Counts.iff_tracks.mp (h held)) script

/-- No level is entered when the count has come to the limit. -/
theorem evaluateCounting_reached {level : Nat} (h : limit ≤ level) (fuel : Nat) (id : NodeId) :
    Counts (σ := σ) (ρ := ρ) level (scene.evaluateCounting limit fuel id)
      (scene.evaluateWithin limit 0 id) := by
  intro host
  unfold evaluateCounting evaluateWithin
  cases scene.scenario.forest.get? id with
  | none => rfl
  | some node =>
      dsimp only
      cases scene.registry.get? node.variant with
      | none => rfl
      | some variant =>
          -- the counter is at the limit, so the check fails where no level is left
          have hcheck : (checkLevel limit : Evaluation (Leveled σ) ρ Unit).runOn
              (host.atLevel level) = (.error (.depthExceeded limit), host.atLevel level) :=
            congrArg (·, _) (if_pos h)
          dsimp only
          rw [Attempt.runOn_bind, hcheck]
          rfl

/-- **Keeping count comes to the same**, and the count is afterwards what it was before. -/
theorem evaluateCounting_counts (scene : Scene) (limit : Nat) {fuel level : Nat}
    (h : limit - level ≤ fuel) (id : NodeId) :
    Counts (σ := σ) (ρ := ρ) level (scene.evaluateCounting limit fuel id)
      (scene.evaluateWithin limit (limit - level) id) := by
  induction fuel generalizing level id with
  | zero =>
      have hreached : limit - level = 0 := by omega
      rw [hreached]
      exact evaluateCounting_reached (by omega) 0 id
  | succ fuel ih =>
      by_cases hle : limit ≤ level
      · rw [Nat.sub_eq_zero_of_le hle]
        exact evaluateCounting_reached hle (fuel + 1) id
      · -- below the limit there is a level left, and fuel for it
        have hnext : limit - level = limit - (level + 1) + 1 := by omega
        rw [hnext]
        unfold evaluateCounting evaluateWithin
        cases scene.scenario.forest.get? id with
        | none => exact .throw _
        | some node =>
            dsimp only
            cases scene.registry.get? node.variant with
            | none => exact .throw _
            | some variant =>
                have hserve : Counts (σ := σ) (ρ := ρ) level
                    (oneDeeper (scene.serve (scene.evaluateCounting limit fuel) node variant.rule))
                    (scene.serve (scene.evaluateWithin limit (limit - (level + 1))) node
                      variant.rule) :=
                  .oneDeeper (serve_counts (ih (by omega)) _)
                intro host
                have hcheck : (checkLevel limit : Evaluation (Leveled σ) ρ Unit).runOn
                    (host.atLevel level) = (.ok (), host.atLevel level) :=
                  congrArg (·, _) (if_neg hle)
                dsimp only
                rw [Attempt.runOn_bind, hcheck]
                refine Counts.bind hserve (fun value => ?_) host
                split
                · exact .pure value
                · exact .bind (.throw _) fun _ => .pure value

/-- The limit of levels does nothing but cut off. -/
structure CutsOff (scene : Scene) : Prop where
  /-- A limit as high as the tree of a node is deep is high enough. -/
  enough : ∀ {σ ρ : Type} [Services σ] [RandomSource ρ] {id node},
    scene.scenario.forest.get? id = some node →
      ∃ tree, scene.scenario.forest.snapshot id = some tree ∧
        ∀ limit, tree.depth ≤ limit → ∀ (host : Host σ ρ) exceeded,
          ((scene.evaluate limit id).runOn host).1 ≠ .error (.depthExceeded exceeded)
  /-- What was not cut off goes the same way under a higher limit. -/
  stable : ∀ {σ ρ : Type} [Services σ] [RandomSource ρ] {id limit limit'}, limit ≤ limit' →
    ∀ host : Host σ ρ,
      (∀ exceeded, ((scene.evaluate limit id).runOn host).1 ≠ .error (.depthExceeded exceeded)) →
        (scene.evaluate limit' id).runOn host = (scene.evaluate limit id).runOn host
  /-- Who keeps count evaluates every node to the same end, and has counted off every level that was
  counted. -/
  counted : ∀ {σ ρ : Type} [Services σ] [RandomSource ρ] {limit level fuel},
    limit - level ≤ fuel → ∀ id (host : Host σ ρ),
      (scene.evaluateCounting limit fuel id).runOn (host.atLevel level)
        = (((scene.evaluateWithin limit (limit - level) id).runOn host).1,
          ((scene.evaluateWithin limit (limit - level) id).runOn host).2.atLevel level)

theorem cutsOff_of_linked (hl : scene.scenario.forest.Linked) : CutsOff scene := by
  refine ⟨?enough, ?stable, ?counted⟩
  case enough =>
    intro σ ρ _ _ id node hn
    obtain ⟨tree, htree⟩ := hl.exists_shows hn
    refine ⟨tree, htree, fun limit hd host exceeded he => ?_⟩
    have huncut : Uncut (scene.evaluateWithin limit limit id : Evaluation σ ρ Value) :=
      evaluateWithin_uncut hl limit limit (hl.snapshot_iff.mp htree) hd
    have hends := huncut host
    rw [evaluate] at he
    rw [he] at hends
    exact hends (.depth exceeded)
  case stable =>
    intro σ ρ _ _ id limit limit' hle host hnot
    refine evaluateWithin_continues scene limit limit' hle id host fun error hcut => ?_
    -- only running out of levels can be mended by more of them
    obtain ⟨exceeded⟩ := hcut
    exact hnot exceeded
  case counted =>
    intro σ ρ _ _ limit level fuel hfuel id host
    exact evaluateCounting_counts scene limit hfuel id host

end Scene

namespace Scenario

variable {registry : Registry} {scenario : Scenario}

/-- **The limit of levels only cuts off** what is evaluated in a reachable script. -/
theorem Reachable.cutsOff (h : Reachable registry scenario) (facts : Facts) :
    Scene.CutsOff ⟨registry, scenario, facts⟩ :=
  Scene.cutsOff_of_linked h.owned.linked

end Scenario

/-! ## A short cut

A disjunction whose second operand lies deeper than its first. -/

namespace ShortCut

def requests : List Request :=
  [.createNode "BooleanValue" [] (some (.bool true)),
    .createNode "BooleanValue" [] (some (.bool true)), .createNode "Not" [("value", ⟨1⟩)] none,
    .createNode "Or" [("left", ⟨0⟩), ("right", ⟨2⟩)] none]

/-- The script. -/
def script : Scenario :=
  requests.foldl (fun scenario request => request.after ⟨Builtin.variants⟩ scenario)
    (.empty "short cut")

theorem script_reachable : Scenario.Reachable .builtin script :=
  Scenario.reachable_requests "short cut" requests (by decide +kernel)

def scene : Scene := ⟨.builtin, script, .empty .playerSpawned⟩

def host : Host World SeededRandom := ⟨World.empty, .ofSeed 0⟩

end ShortCut

namespace Scenario

/-- The disjunction gets by with two levels of its three. The negation does not get by with one, but
with two, and leaves the count as it was either way. -/
theorem cutsOff_shortCut :
    Scene.CutsOff ShortCut.scene ∧
      (ShortCut.script.forest.snapshot ⟨3⟩).map NodeTree.depth = some 3 ∧
      ((ShortCut.scene.evaluate 2 ⟨3⟩).runOn ShortCut.host).1 = .ok (.bool true) ∧
      ((ShortCut.scene.evaluate 1 ⟨2⟩).runOn ShortCut.host).1 = .error (.depthExceeded 1) ∧
      ((ShortCut.scene.evaluate 2 ⟨2⟩).runOn ShortCut.host).1 = .ok (.bool false) ∧
      ((ShortCut.scene.evaluateCounting 5 5 ⟨2⟩).runOn
        (ShortCut.host.atLevel 4)).2.services.level = 4 := by
  have hcuts := ShortCut.script_reachable.cutsOff (.empty .playerSpawned)
  refine ⟨hcuts, by decide +kernel, ?_, ?_, ?_, ?_⟩
  · rw [ShortCut.scene, Registry.builtin_eq]
    decide +kernel
  · rw [ShortCut.scene, Registry.builtin_eq]
    decide +kernel
  · rw [ShortCut.scene, Registry.builtin_eq]
    decide +kernel
  · rw [ShortCut.scene, Registry.builtin_eq]
    decide +kernel

end Scenario

end Rulebook
