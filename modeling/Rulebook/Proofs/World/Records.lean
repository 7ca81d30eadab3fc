import Rulebook.Proofs.World.Ledger

/-!
# The records of a world

A world in memory keeps three records, of the chat, of the script log and of the
questions about inventories, and each of them is cut down to its newest entries
whenever one is added. So a record is all that is left of a history that nobody
keeps. Here that history is the list of the calls: what a call adds to a record can
be told from the call alone, and a record is always the end of what the calls have
added to it, as long as the limit allows and no longer.

The owner of the world may set it up anew between the calls. Players come and go
then, and who is gone gets no more messages, but what was recorded stays.
-/

namespace Rulebook

/-! ## A record that forgets -/

/-- The record holds the newest of the entries, as many as there may be. -/
structure Newest {α : Type} (limit : Nat) (record : Array α) (entries : List α) : Prop where
  suffix : record.toList <:+ entries
  size : record.size = min limit entries.length

/-- The record with one more entry, if there is one. -/
def keepAny {α : Type} (limit : Nat) (record : Array α) : Option α → Array α
  | some entry => keepNewest limit record entry
  | none => record

namespace Newest

variable {α : Type} {limit : Nat} {record : Array α} {entries : List α}

theorem empty (limit : Nat) : Newest limit (#[] : Array α) [] := ⟨List.suffix_rfl, by simp⟩

/-- The oldest goes if the newest is one too many. With a limit of zero that is the newest. -/
theorem add (h : Newest limit record entries) (entry : α) :
    Newest limit (keepNewest limit record entry) (entries ++ [entry]) := by
  refine ⟨?suffix, ?size⟩
  case suffix =>
    -- entries go at the front only, where older ones went before
    obtain ⟨older, rfl⟩ := h.suffix
    rw [toList_keepNewest, List.append_assoc]
    exact (List.drop_suffix ..).trans (List.suffix_append ..)
  case size =>
    have hsize := h.size
    rw [size_keepNewest, List.length_append, List.length_singleton]
    omega

theorem addAny (h : Newest limit record entries) (added : Option α) :
    Newest limit (keepAny limit record added) (entries ++ added.toList) := by
  cases added with
  | some entry => exact h.add entry
  | none => rwa [Option.toList_none, List.append_nil]

end Newest

/-! ## What a call adds to the records -/

/-- The line of chat that an effect comes to. -/
def Effect.chatLine? : Effect → Option ChatLine
  | broadcast message => some ⟨none, message⟩
  | sendMessage actor message => some ⟨some actor, message⟩
  | _ => none

/-- The line of the script log that an effect comes to. -/
def Effect.logLine? : Effect → Option String
  | log message => some message
  | _ => none

/-- What a question asks about an inventory. -/
def Query.inventory? : Query → Option InventoryQuery
  | countBlocks actor block => some ⟨actor, block⟩
  | countItems actor item => some ⟨actor, item⟩
  | _ => none

namespace Call

/-- The line of chat that came of a call. A message that was refused is none. -/
def chatLine? (call : Call) : Option ChatLine := call.granted?.bind Effect.chatLine?

/-- The line of the script log that came of a call. -/
def logLine? (call : Call) : Option String := call.granted?.bind Effect.logLine?

/-- What a call asked about an inventory. -/
def inventoryQuery? : Call → Option InventoryQuery
  | asked query => query.inventory?
  | performed _ _ => none

end Call

/-- The call has added its entries to the records, and has left the limit alone. -/
structure Noted (before : World) (call : Call) (after : World) : Prop where
  recordLimit : after.recordLimit = before.recordLimit
  chat : after.chat = keepAny before.recordLimit before.chat call.chatLine?
  log : after.log = keepAny before.recordLimit before.log call.logLine?
  queries : after.queries = keepAny before.recordLimit before.queries call.inventoryQuery?

namespace World

variable {before after done : World} {call : Call} {effect : Effect}

theorem noted_asked (query : Query) (world : World) :
    Noted world (.asked query) (Services.answer query world).2 := by
  cases query with
  | playerName | countBlocks | countItems | isInRegion => exact ⟨rfl, rfl, rfl, rfl⟩

theorem noted_granted (h : Granted effect before done) :
    Noted before (.performed effect (.ok ())) done := by
  cases h with
  | giveBlocks | removeBlocks | giveItems | broadcast | sendMessage | log | teleport =>
      exact ⟨rfl, rfl, rfl, rfl⟩

/-- **Every call adds to the records what can be told from it**, and nothing else. -/
theorem noted (hl : call.Leads before after) : Noted before call after := by
  cases hl with
  | asked query => exact noted_asked query before
  | performed effect =>
      cases hrun : Services.perform effect before with
      | mk result done =>
          cases result with
          | ok _ => exact noted_granted (perform_ok.mp hrun)
          | error refusal =>
              rw [perform_error hrun]
              exact ⟨rfl, rfl, rfl, rfl⟩

end World

/-! ## Setting a world up between calls -/

/-- Something that the owner of a world does to it, other than to empty its records or to set their
limit. -/
inductive Setup where
  | addBlockType (key : ResourceKey)
  | addItemType (key : ResourceKey)
  | removeBlockType (key : ResourceKey)
  | addPlayer (actor : ActorId) (name : String)
  | removePlayer (actor : ActorId)
  | setBlocks (actor : ActorId) (block : ResourceKey) (amount : Int64)
  | setItems (actor : ActorId) (item : ResourceKey) (amount : Int64)
  | setPosition (actor : ActorId) (position : Point)

/-- The world after that. -/
def Setup.after (world : World) : Setup → World
  | addBlockType key => world.addBlockType key
  | addItemType key => world.addItemType key
  | removeBlockType key => world.removeBlockType key
  | addPlayer actor name => world.addPlayer actor name
  | removePlayer actor => world.removePlayer actor
  | setBlocks actor block amount => world.setBlocks actor block amount
  | setItems actor item amount => world.setItems actor item amount
  | setPosition actor position => world.setPosition actor position

/-- The calls, oldest first, led from the one world to the other, which may have been set up anew
at any time. -/
inductive Course : World → List Call → World → Prop where
  | start (world : World) : Course world [] world
  | call {first before after : World} {calls : List Call} {call : Call} :
      Course first calls before → call.Leads before after → Course first (calls ++ [call]) after
  | setup {first before : World} {calls : List Call} (setup : Setup) :
      Course first calls before → Course first calls (setup.after before)

theorem Course.append {first between last : World} {calls made : List Call}
    (h : Course first calls between) (hh : History between made last) :
    Course first (calls ++ made) last := by
  induction hh with
  | start => rwa [List.append_nil]
  | call _ hl ih =>
      rw [← List.append_assoc]
      exact ih.call hl

/-- What happens to a world: something is done to it as to any host, or it is set up anew. -/
inductive Turn (ρ : Type) where
  | deed (deed : Deed ρ)
  | setup (setup : Setup)

namespace Turn

variable {ρ : Type} [RandomSource ρ]

/-- The world after a turn. -/
def after : Turn ρ → World → World
  | deed act, world => act.after world
  | setup change, world => change.after world

/-- The calls of a turn, as they are written down when the world is watched. -/
def calls : Turn ρ → World → List Call
  | deed act, world => (act.after (⟨world, []⟩ : Watched World)).calls
  | setup _, _ => []

/-- The world after several turns. -/
def afterAll : List (Turn ρ) → World → World
  | [], world => world
  | turn :: rest, world => afterAll rest (turn.after world)

/-- The calls of several turns, one after the other. -/
def allCalls : List (Turn ρ) → World → List Call
  | [], _ => []
  | turn :: rest, world => turn.calls world ++ allCalls rest (turn.after world)

theorem course_after {first world : World} {made : List Call} (h : Course first made world)
    (turn : Turn ρ) : Course first (made ++ turn.calls world) (turn.after world) := by
  cases turn with
  | deed act =>
      obtain ⟨written, hwritten, hhistory⟩ := act.exists_calls world
      rw [calls, hwritten]
      exact h.append hhistory
  | setup change =>
      rw [calls, List.append_nil]
      exact h.setup change

/-- By induction on the turns. -/
theorem course_afterAll (turns : List (Turn ρ)) {first world : World} {made : List Call}
    (h : Course first made world) :
    Course first (made ++ allCalls turns world) (afterAll turns world) := by
  induction turns generalizing world made with
  | nil =>
      rw [allCalls, List.append_nil]
      exact h
  | cons turn rest ih =>
      rw [allCalls, ← List.append_assoc]
      exact ih (course_after h turn)

end Turn

/-! ## The records after any number of calls -/

/-- Each record holds the newest of the entries that came of the calls. -/
structure Recorded (limit : Nat) (world : World) (calls : List Call) : Prop where
  recordLimit : world.recordLimit = limit
  chat : Newest limit world.chat (calls.filterMap Call.chatLine?)
  log : Newest limit world.log (calls.filterMap Call.logLine?)
  queries : Newest limit world.queries (calls.filterMap Call.inventoryQuery?)

/-- One more of the things that entries come of. -/
theorem Newest.concat {α β : Type} {limit : Nat} {record after : Array β} {note : α → Option β}
    {made : List α} {next : α} (h : Newest limit record (made.filterMap note))
    (hafter : after = keepAny limit record (note next)) :
    Newest limit after ((made ++ [next]).filterMap note) := by
  have hentries : (made ++ [next]).filterMap note
      = made.filterMap note ++ (note next).toList := by
    rw [List.filterMap_append]
    cases hnext : note next <;> simp [hnext]
  rw [hafter, hentries]
  exact h.addAny (note next)

namespace Recorded

variable {limit : Nat} {world before after last : World} {call : Call} {calls : List Call}

theorem after_call (h : Recorded limit before calls) (hl : call.Leads before after) :
    Recorded limit after (calls ++ [call]) := by
  have hnoted := World.noted hl
  obtain rfl := h.recordLimit
  exact ⟨hnoted.recordLimit, h.chat.concat hnoted.chat, h.log.concat hnoted.log,
    h.queries.concat hnoted.queries⟩

/-- Whatever is set up, the records are not touched. -/
theorem after_setup (h : Recorded limit world calls) (setup : Setup) :
    Recorded limit (setup.after world) calls := by
  cases setup with
  | addBlockType key =>
      rw [Setup.after, World.addBlockType]
      split
      · exact h
      · exact ⟨h.recordLimit, h.chat, h.log, h.queries⟩
  | addItemType key =>
      rw [Setup.after, World.addItemType]
      split
      · exact h
      · exact ⟨h.recordLimit, h.chat, h.log, h.queries⟩
  | _ => exact ⟨h.recordLimit, h.chat, h.log, h.queries⟩

/-- By induction on the course. -/
theorem after_course (h : Recorded limit world []) (hc : Course world calls last) :
    Recorded limit last calls := by
  induction hc with
  | start => exact h
  | call _ hl ih => exact ih.after_call hl
  | setup change _ ih => exact ih.after_setup change

end Recorded

/-- A world whose records are what is left of its history. -/
structure Chronicle (limit : Nat) (world : World) : Prop where
  /-- Whatever is done to the world, it comes of the calls that are written down when it is
  watched. -/
  watched : ∀ {ρ : Type} [RandomSource ρ] (deeds : List (Deed ρ)), ∃ calls,
    Deed.afterAll deeds (⟨world, []⟩ : Watched World) = ⟨Deed.afterAll deeds world, calls⟩ ∧
      Course world calls (Deed.afterAll deeds world)
  /-- The same if it is set up anew in between. -/
  course : ∀ {ρ : Type} [RandomSource ρ] (turns : List (Turn ρ)),
    Course world (Turn.allCalls turns world) (Turn.afterAll turns world)
  /-- Each record is the end of what the calls have added to it. -/
  recorded : ∀ {calls last}, Course world calls last → Recorded limit last calls
  /-- A line of chat goes out unless it is for a player who is not there. -/
  heard : ∀ {effect line result} {before after : World}, effect.chatLine? = some line →
    (Call.performed effect result).Leads before after →
    (result = .ok () ↔
      ∀ actor, line.recipient = some actor → ∃ player, before.player? actor = some player)
  /-- A line of the script log is written in any case. -/
  written : ∀ {effect text result} {before after : World}, effect.logLine? = some text →
    (Call.performed effect result).Leads before after → result = .ok ()
  /-- An effect that is refused adds nothing, and does nothing else either. -/
  refused : ∀ {effect refusal} {before after : World},
    (Call.performed effect (.error refusal)).Leads before after → after = before

namespace World

/-- Nothing has been recorded yet. -/
structure Unwritten (world : World) : Prop where
  chat : world.chat = #[]
  log : world.log = #[]
  queries : world.queries = #[]

variable {world before after : World} {effect : Effect} {result : Except ServiceError Unit}

theorem perform_eq_of_leads (hl : (Call.performed effect result).Leads before after) :
    Services.perform effect before = (result, after) := by
  cases hl
  rfl

/-- The call itself says whether the effect was refused. -/
theorem result_ok_iff (hl : (Call.performed effect result).Leads before after) :
    result = .ok () ↔ ∃ done, Granted effect before done := by
  have hrun := perform_eq_of_leads hl
  constructor
  · rintro rfl
    exact ⟨after, perform_ok.mp hrun⟩
  · intro ⟨done, hdone⟩
    rw [perform_ok.mpr hdone] at hrun
    exact (congrArg Prod.fst hrun).symm

theorem heard {line : ChatLine} (hline : effect.chatLine? = some line)
    (hl : (Call.performed effect result).Leads before after) : result = .ok () ↔
      ∀ actor, line.recipient = some actor → ∃ player, before.player? actor = some player := by
  rw [result_ok_iff hl]
  cases effect with
  | broadcast message =>
      cases hline
      exact iff_of_true ⟨_, .broadcast message⟩ fun _ he => nomatch he
  | sendMessage recipient message =>
      cases hline
      constructor
      · intro ⟨done, hgranted⟩ actor hactor
        cases hactor
        cases hgranted with
        | sendMessage _ hplayer => exact ⟨_, hplayer⟩
      · intro hthere
        obtain ⟨player, hplayer⟩ := hthere recipient rfl
        exact ⟨_, .sendMessage message hplayer⟩
  | _ => exact nomatch hline

theorem written {text : String} (htext : effect.logLine? = some text)
    (hl : (Call.performed effect result).Leads before after) : result = .ok () := by
  cases effect with
  | log message => exact (result_ok_iff hl).mpr ⟨_, .log message⟩
  | _ => exact nomatch htext

namespace Unwritten

theorem recorded (h : world.Unwritten) (limit : Nat) :
    Recorded limit (world.setRecordLimit limit) [] := by
  refine ⟨rfl, ?_, ?_, ?_⟩
  · rw [setRecordLimit, h.chat]
    exact .empty limit
  · rw [setRecordLimit, h.log]
    exact .empty limit
  · rw [setRecordLimit, h.queries]
    exact .empty limit

/-- **The records of a world are the end of its history**, if the limit was set before anything was
recorded. -/
theorem chronicle (h : world.Unwritten) (limit : Nat) :
    Chronicle limit (world.setRecordLimit limit) := by
  refine ⟨fun deeds => ?watched, fun turns => ?course, (h.recorded limit).after_course, heard,
    written, fun hl => perform_error (perform_eq_of_leads hl)⟩
  case watched =>
    obtain ⟨calls, hcalls, hhistory⟩ := Deed.exists_allCalls deeds (world.setRecordLimit limit)
    exact ⟨calls, hcalls, (Course.start _).append hhistory⟩
  case course => exact Turn.course_afterAll turns (.start _)

end Unwritten

end World

/-! ## A farewell

A player with one coin is greeted by the toll, is sent a message and leaves. -/

namespace Farewell

open Toll (coin)

def turns : List (Turn SeededRandom) :=
  [.deed (.dispatch Toll.engine (some Toll.script) (.playerSpawned ⟨7⟩)),
    .setup (.setItems ⟨7⟩ coin 1),
    .deed (.dispatch Toll.engine (some Toll.script) (.playerSpawned ⟨7⟩)),
    .deed (.perform (.sendMessage ⟨7⟩ "farewell")), .setup (.removePlayer ⟨7⟩),
    .deed (.perform (.sendMessage ⟨7⟩ "lost")), .deed (.perform (.broadcast "closed")),
    .deed (.perform (.log "closed")), .deed (.ask (.countBlocks ⟨7⟩ coin))]

def world (limit : Nat) : World := Toll.world.setRecordLimit limit

end Farewell

namespace World

/-- What was sent after the player is lost, but that player is still asked about. -/
theorem chronicle_farewell :
    Chronicle 2 (Farewell.world 2) ∧
      ((Turn.allCalls Farewell.turns (Farewell.world 2)).filterMap Call.chatLine?)
        = [⟨none, "hello"⟩, ⟨some ⟨7⟩, "farewell"⟩, ⟨none, "closed"⟩] ∧
      (Turn.afterAll Farewell.turns (Farewell.world 2)).chat
        = #[⟨some ⟨7⟩, "farewell"⟩, ⟨none, "closed"⟩] ∧
      (Turn.afterAll Farewell.turns (Farewell.world 2)).log = #["closed"] ∧
      (Turn.afterAll Farewell.turns (Farewell.world 2)).queries.size = 2 ∧
      (Turn.afterAll Farewell.turns (Farewell.world 0)).chat = #[] := by
  have hunwritten : Toll.world.Unwritten := ⟨rfl, rfl, rfl⟩
  refine ⟨hunwritten.chronicle 2, ?_, ?_, ?_, ?_, ?_⟩
  · rw [Farewell.turns, Toll.engine, Registry.builtin_eq]
    decide +kernel
  · rw [Farewell.turns, Toll.engine, Registry.builtin_eq]
    decide +kernel
  · rw [Farewell.turns, Toll.engine, Registry.builtin_eq]
    decide +kernel
  · rw [Farewell.turns, Toll.engine, Registry.builtin_eq]
    decide +kernel
  · rw [Farewell.turns, Toll.engine, Registry.builtin_eq]
    decide +kernel

end World

end Rulebook
