import Rulebook.Proofs.Attempt
import Rulebook.World

/-!
# The services of a world in memory

A service checks what it is asked for and then changes the world, all at once. So
what a service has done that did not refuse can be said in one line, together with
all that it has checked, and one that refuses has done nothing.

Everything else that is known of the services comes of these two facts.
-/

namespace Rulebook

namespace World

open Attempt

variable {world done : World} {effect : Effect} {actor : ActorId} {key : ResourceKey}
  {amount : Int64} {player : Player}

/-! ## Checks -/

/-- A guard lets through what it asks for. -/
theorem guard_ok {p : Prop} [Decidable p] {complaint : ServiceError} :
    (if p then Except.ok () else Except.error complaint) = .ok () ↔ p := by
  by_cases h : p
  · exact iff_of_true (if_pos h) h
  · exact iff_of_false (fun he => by simp [h] at he) h

theorem checkAmount_ok : checkAmount amount = .ok () ↔ 0 < amount := guard_ok

theorem checkBlock_ok : world.checkBlock key = .ok () ↔ key ∈ world.blockTypes := guard_ok

theorem checkItem_ok : world.checkItem key = .ok () ↔ key ∈ world.itemTypes := guard_ok

theorem requirePlayer_ok :
    world.requirePlayer actor = .ok player ↔ world.player? actor = some player := by
  rw [requirePlayer]
  cases world.player? actor with
  | none => exact iff_of_false (fun he => nomatch he) fun he => nomatch he
  | some found => simp

theorem checkSupply_ok :
    world.checkSupply actor key amount = .ok () ↔ amount ≤ world.blocksOf actor key := by
  rw [checkSupply, ← Int64.not_lt]
  by_cases h : world.blocksOf actor key < amount
  · exact iff_of_false (fun he => by simp [h] at he) (not_not_intro h)
  · exact iff_of_true (by simp [h]) h

/-- What every service does that needs a player. -/
theorem attended_ok {next : Attempt ServiceError World Unit} :
    ((liftM (world.requirePlayer actor) : Attempt ServiceError World Player) >>= fun _ =>
        next).runOn world = (.ok (), done) ↔
      (∃ player, world.player? actor = some player) ∧ next.runOn world = (.ok (), done) := by
  rw [checked_ok]
  simp only [requirePlayer_ok, exists_and_right]

/-- What every service does that changes what a player holds. -/
theorem vetted_ok {known : Except ServiceError Unit} {next : Attempt ServiceError World Unit} :
    ((liftM (checkAmount amount) : Attempt ServiceError World Unit) >>= fun _ =>
        (liftM known : Attempt ServiceError World Unit) >>= fun _ =>
          (liftM (world.requirePlayer actor) : Attempt ServiceError World Player) >>= fun _ =>
            next).runOn world = (.ok (), done) ↔
      0 < amount ∧ known = .ok () ∧ (∃ player, world.player? actor = some player) ∧
        next.runOn world = (.ok (), done) := by
  constructor
  · intro h
    obtain ⟨_, hamount, h⟩ := checked_ok.mp h
    obtain ⟨_, hknown, h⟩ := checked_ok.mp h
    obtain ⟨hplayer, h⟩ := attended_ok.mp h
    exact ⟨checkAmount_ok.mp hamount, hknown, hplayer, h⟩
  · intro ⟨hamount, hknown, hplayer, h⟩
    exact checked_ok.mpr ⟨_, checkAmount_ok.mpr hamount, checked_ok.mpr
      ⟨_, hknown, attended_ok.mpr ⟨hplayer, h⟩⟩⟩

/-! ## Services -/

/-- What was asked for has been done. Every constructor names what its service has checked. -/
inductive Granted : Effect → World → World → Prop where
  | giveBlocks {world : World} {actor : ActorId} {block : ResourceKey} {amount : Int64}
      {player : Player} : 0 < amount → block ∈ world.blockTypes →
      world.player? actor = some player →
      Granted (.giveBlocks actor block amount) world
        (world.setBlocks actor block (saturatingAdd (world.blocksOf actor block) amount))
  | removeBlocks {world : World} {actor : ActorId} {block : ResourceKey} {amount : Int64}
      {player : Player} : 0 < amount → block ∈ world.blockTypes →
      world.player? actor = some player → amount ≤ world.blocksOf actor block →
      Granted (.removeBlocks actor block amount) world
        (world.setBlocks actor block (saturatingSub (world.blocksOf actor block) amount))
  | giveItems {world : World} {actor : ActorId} {item : ResourceKey} {amount : Int64}
      {player : Player} : 0 < amount → item ∈ world.itemTypes →
      world.player? actor = some player →
      Granted (.giveItems actor item amount) world
        (world.setItems actor item (saturatingAdd (world.itemsOf actor item) amount))
  | broadcast {world : World} (message : String) :
      Granted (.broadcast message) world (world.recordChat none message)
  | sendMessage {world : World} {actor : ActorId} {player : Player} (message : String) :
      world.player? actor = some player →
      Granted (.sendMessage actor message) world (world.recordChat (some actor) message)
  | log {world : World} (message : String) :
      Granted (.log message) world (world.recordLog message)
  | teleport {world : World} {actor : ActorId} {player : Player} (region : Region) :
      world.player? actor = some player →
      Granted (.teleport actor region) world (world.setPosition actor region.bounds.center)

/-- **A service that does not refuse** has checked all it should, and has done what it was asked
for. -/
theorem perform_ok :
    Services.perform effect world = (.ok (), done) ↔ Granted effect world done := by
  show (serve effect).runOn world = _ ↔ _
  constructor
  · intro h
    cases effect with
    | giveBlocks actor block amount =>
        rw [serve, runOn_get_bind] at h
        obtain ⟨hamount, hblock, ⟨player, hplayer⟩, h⟩ := vetted_ok.mp h
        obtain rfl := modify_ok.mp h
        exact .giveBlocks hamount (checkBlock_ok.mp hblock) hplayer
    | removeBlocks actor block amount =>
        rw [serve, runOn_get_bind] at h
        obtain ⟨hamount, hblock, ⟨player, hplayer⟩, h⟩ := vetted_ok.mp h
        obtain ⟨_, hsupply, h⟩ := checked_ok.mp h
        obtain rfl := modify_ok.mp h
        exact .removeBlocks hamount (checkBlock_ok.mp hblock) hplayer (checkSupply_ok.mp hsupply)
    | giveItems actor item amount =>
        rw [serve, runOn_get_bind] at h
        obtain ⟨hamount, hitem, ⟨player, hplayer⟩, h⟩ := vetted_ok.mp h
        obtain rfl := modify_ok.mp h
        exact .giveItems hamount (checkItem_ok.mp hitem) hplayer
    -- nobody has to be there for a broadcast, or for the log
    | broadcast message =>
        obtain rfl := modify_ok.mp h
        exact .broadcast message
    | sendMessage actor message =>
        rw [serve, runOn_get_bind] at h
        obtain ⟨⟨player, hplayer⟩, h⟩ := attended_ok.mp h
        obtain rfl := modify_ok.mp h
        exact .sendMessage message hplayer
    | log message =>
        obtain rfl := modify_ok.mp h
        exact .log message
    | teleport actor region =>
        rw [serve, runOn_get_bind] at h
        obtain ⟨⟨player, hplayer⟩, h⟩ := attended_ok.mp h
        obtain rfl := modify_ok.mp h
        exact .teleport region hplayer
  · intro h
    cases h with
    | giveBlocks hamount hblock hplayer =>
        rw [serve, runOn_get_bind]
        exact vetted_ok.mpr ⟨hamount, checkBlock_ok.mpr hblock, ⟨_, hplayer⟩, modify_ok.mpr rfl⟩
    | removeBlocks hamount hblock hplayer hsupply =>
        rw [serve, runOn_get_bind]
        exact vetted_ok.mpr ⟨hamount, checkBlock_ok.mpr hblock, ⟨_, hplayer⟩, checked_ok.mpr
          ⟨_, checkSupply_ok.mpr hsupply, modify_ok.mpr rfl⟩⟩
    | giveItems hamount hitem hplayer =>
        rw [serve, runOn_get_bind]
        exact vetted_ok.mpr ⟨hamount, checkItem_ok.mpr hitem, ⟨_, hplayer⟩, modify_ok.mpr rfl⟩
    | sendMessage message hplayer | teleport region hplayer =>
        rw [serve, runOn_get_bind]
        exact attended_ok.mpr ⟨⟨_, hplayer⟩, modify_ok.mpr rfl⟩
    | broadcast message | log message => exact modify_ok.mpr rfl

/-- By the shape of each service: it looks and checks before it changes anything. -/
theorem serve_spares (effect : Effect) : Spares (serve effect) := by
  cases effect with
  | giveBlocks | giveItems =>
      refine .get fun world => .checked fun _ _ => .checked fun _ _ => .checked fun _ _ => ?_
      exact (Sure.modify _).spares
  | removeBlocks =>
      refine .get fun world => .checked fun _ _ => .checked fun _ _ => .checked fun _ _ => ?_
      exact .checked fun _ _ => (Sure.modify _).spares
  | sendMessage | teleport =>
      exact .get fun world => .checked fun _ _ => (Sure.modify _).spares
  | broadcast | log => exact (Sure.modify _).spares

/-- **A service that refuses** has done nothing. -/
theorem perform_error {refusal : ServiceError}
    (h : Services.perform effect world = (.error refusal, done)) : done = world :=
  serve_spares effect world refusal done h

/-- What has been asked about inventories makes no difference to a service. -/
theorem Granted.queries (h : Granted effect world done) (queries : Array InventoryQuery) :
    Granted effect { world with queries } { done with queries } := by
  cases h with
  | giveBlocks hamount hblock hplayer => exact .giveBlocks hamount hblock hplayer
  | removeBlocks hamount hblock hplayer hsupply =>
      exact .removeBlocks hamount hblock hplayer hsupply
  | giveItems hamount hitem hplayer => exact .giveItems hamount hitem hplayer
  | broadcast message => exact .broadcast message
  | sendMessage message hplayer => exact .sendMessage message hplayer
  | log message => exact .log message
  | teleport region hplayer => exact .teleport region hplayer

/-- A call that was not refused has the same effect whatever had been asked before it. -/
theorem perform_queries (h : Services.perform effect world = (.ok (), done))
    (queries : Array InventoryQuery) :
    Services.perform effect ({ world with queries } : World) = (.ok (), { done with queries }) :=
  perform_ok.mpr ((perform_ok.mp h).queries queries)

end World

end Rulebook
