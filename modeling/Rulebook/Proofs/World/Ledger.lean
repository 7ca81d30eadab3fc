import Rulebook.Proofs.Evaluation.Actions
import Rulebook.Proofs.Evaluation.Watching
import Rulebook.Proofs.Integer

/-!
# The ledger of a world

What players hold in a world in memory changes only when a service that gives or
takes is called and does not refuse. So a list of the calls is a ledger: an amount
is what it was at first, plus all that was given, less all that was taken, and
none of it is lost unless somebody would come to hold more than there are integers
for. Nobody ever holds less than nothing, because one cannot take more than there
is.

The sums are those of integers without bounds.
-/

namespace Rulebook

/-! ## Accounts -/

/-- What players hold. -/
inductive Shelf where
  | blocks
  | items
deriving DecidableEq

/-- What a player holds of one type. -/
structure Account where
  actor : ActorId
  shelf : Shelf
  key : ResourceKey
deriving DecidableEq

namespace Player

/-- The amounts of all types that are on a shelf. -/
def on (player : Player) : Shelf → Std.ExtTreeMap ResourceKey Int64
  | .blocks => player.blocks
  | .items => player.items

/-- The player with another amount of one type. -/
def put (player : Player) (shelf : Shelf) (key : ResourceKey) (amount : Int64) : Player :=
  match shelf with
  | .blocks => { player with blocks := player.blocks.insert key amount }
  | .items => { player with items := player.items.insert key amount }

theorem on_put (player : Player) (shelf other : Shelf) (key : ResourceKey) (amount : Int64) :
    (player.put shelf key amount).on other
      = if other = shelf then (player.on shelf).insert key amount else player.on other := by
  cases shelf <;> cases other <;> rfl

end Player

namespace World

/-- The amount on an account, if there is any entry for it. -/
def holding? (world : World) (account : Account) : Option Int64 :=
  (world.player? account.actor).bind fun player => (player.on account.shelf)[account.key]?

/-- The amount on an account, which is nothing if there is no entry. -/
def amount (world : World) (account : Account) : Int64 := (world.holding? account).getD 0

/-- The amount as an integer without bounds. -/
def held (world : World) (account : Account) : Int := (world.amount account).toInt

/-- Nobody holds less than nothing. -/
def Solvent (world : World) : Prop := ∀ account, 0 ≤ world.held account

/-- The world with another amount on an account. -/
def put (world : World) (account : Account) (amount : Int64) : World :=
  world.updatePlayer account.actor fun player => player.put account.shelf account.key amount

variable {world done : World} {account other : Account} {amount : Int64} {player : Player}

theorem player?_updatePlayer {actor number : ActorId} {f : Player → Player} :
    (world.updatePlayer actor f).player? number
      = if number = actor then (world.player? actor).map f else world.player? number := by
  rw [player?, updatePlayer, Std.ExtTreeMap.getElem?_modify]
  by_cases h : number = actor
  · rw [h, if_pos Std.ReflCmp.compare_self, if_pos rfl]
    rfl
  · rw [if_neg fun he => h (Std.LawfulEqOrd.eq_of_compare he).symm, if_neg h]
    rfl

theorem getElem?_insert_key {amounts : Std.ExtTreeMap ResourceKey Int64} {key name : ResourceKey} :
    (amounts.insert key amount)[name]? = if name = key then some amount else amounts[name]? := by
  rw [Std.ExtTreeMap.getElem?_insert]
  by_cases h : name = key
  · rw [h, if_pos Std.ReflCmp.compare_self, if_pos rfl]
  · rw [if_neg fun he => h (Std.LawfulEqOrd.eq_of_compare he).symm, if_neg h]

/-- The account has the new amount. -/
theorem holding?_put_self (hp : world.player? account.actor = some player) :
    (world.put account amount).holding? account = some amount := by
  rw [holding?, put, player?_updatePlayer, if_pos rfl, hp, Option.map_some, Option.bind_some,
    Player.on_put, if_pos rfl, getElem?_insert_key, if_pos rfl]

/-- No other account is touched. -/
theorem holding?_put_of_ne (h : other ≠ account) :
    (world.put account amount).holding? other = world.holding? other := by
  rw [holding?, put, player?_updatePlayer, holding?]
  by_cases hactor : other.actor = account.actor
  · rw [if_pos hactor, ← hactor]
    cases world.player? other.actor with
    | none => rfl
    | some player =>
        rw [Option.map_some, Option.bind_some, Option.bind_some, Player.on_put]
        by_cases hshelf : other.shelf = account.shelf
        · -- same player and same shelf, so it is the key that differs
          have hkey : other.key ≠ account.key := fun he => h (by
            cases other
            cases account
            simp_all)
          rw [if_pos hshelf, getElem?_insert_key, if_neg hkey, hshelf]
        · rw [if_neg hshelf]
  · rw [if_neg hactor]

theorem held_put_self (hp : world.player? account.actor = some player) :
    (world.put account amount).held account = amount.toInt := by
  rw [held, World.amount, holding?_put_self hp, Option.getD_some]

end World

/-! ## What an effect does to the accounts -/

namespace Effect

/-- What an effect gives, and to which account. -/
def gift? : Effect → Option (Account × Int64)
  | giveBlocks actor block amount => some (⟨actor, .blocks, block⟩, amount)
  | giveItems actor item amount => some (⟨actor, .items, item⟩, amount)
  | _ => none

/-- What an effect takes, and from which account. -/
def removal? : Effect → Option (Account × Int64)
  | removeBlocks actor block amount => some (⟨actor, .blocks, block⟩, amount)
  | _ => none

end Effect

namespace World

variable {world done : World} {effect : Effect} {account : Account} {amount : Int64}

/-- What is given is added to what is there. -/
theorem Granted.gift (h : Granted effect world done) (hg : effect.gift? = some (account, amount)) :
    0 < amount ∧ (∃ player, world.player? account.actor = some player) ∧
      done = world.put account (saturatingAdd (world.amount account) amount) := by
  cases h with
  | giveBlocks hamount _ hplayer | giveItems hamount _ hplayer =>
      cases hg
      exact ⟨hamount, ⟨_, hplayer⟩, rfl⟩
  | _ => exact nomatch hg

/-- What is taken is there, and is taken off. -/
theorem Granted.removal (h : Granted effect world done)
    (hr : effect.removal? = some (account, amount)) :
    0 < amount ∧ (∃ player, world.player? account.actor = some player) ∧
      amount ≤ world.amount account ∧
      done = world.put account (saturatingSub (world.amount account) amount) := by
  cases h with
  | removeBlocks hamount _ hplayer hsupply =>
      cases hr
      exact ⟨hamount, ⟨_, hplayer⟩, hsupply, rfl⟩
  | _ => exact nomatch hr

/-- No other effect touches an account. -/
theorem Granted.holding? (h : Granted effect world done) (hg : effect.gift? = none)
    (hr : effect.removal? = none) (account : Account) :
    done.holding? account = world.holding? account := by
  cases h with
  | giveBlocks | giveItems => exact nomatch hg
  | removeBlocks => exact nomatch hr
  | @teleport _ actor _ region _ =>
      -- the player is another afterwards, but has the same in hand
      rw [World.holding?, setPosition, player?_updatePlayer, World.holding?]
      by_cases hactor : account.actor = actor
      · rw [if_pos hactor, hactor]
        cases world.player? actor with
        | none => rfl
        | some player =>
            rw [Option.map_some, Option.bind_some, Option.bind_some]
            cases account.shelf <;> rfl
      · rw [if_neg hactor]
  | broadcast | sendMessage | log => rfl

end World

/-! ## What a call does to the accounts -/

namespace Call

/-- The effect of a call, if it was not refused. -/
def granted? : Call → Option Effect
  | performed effect (.ok ()) => some effect
  | _ => none

/-- How much of what was booked concerns an account. -/
def share (account : Account) : Option (Account × Int64) → Int
  | some (booked, amount) => if booked = account then amount.toInt else 0
  | none => 0

/-- How much a call has given to an account. -/
def given (account : Account) (call : Call) : Int := share account (call.granted?.bind Effect.gift?)

/-- How much a call has taken from an account. -/
def taken (account : Account) (call : Call) : Int :=
  share account (call.granted?.bind Effect.removal?)

/-- The amount on an account after a call. Nobody comes to hold more than the greatest integer. -/
def book (account : Account) (held : Int) (call : Call) : Int :=
  min (held + call.given account) Int64.maxValue.toInt - call.taken account

variable {call : Call} {account other : Account} {effect : Effect} {amount : Int64}

theorem share_self : share account (some (account, amount)) = amount.toInt := if_pos rfl

theorem share_of_ne (h : other ≠ account) : share other (some (account, amount)) = 0 :=
  if_neg h.symm

theorem given_performed : given account (.performed effect (.ok ())) = share account effect.gift? :=
  rfl

theorem taken_performed :
    taken account (.performed effect (.ok ())) = share account effect.removal? :=
  rfl

/-- No effect gives and takes. -/
theorem gift?_eq_none_of_removal? (hr : effect.removal? = some (account, amount)) :
    effect.gift? = none := by
  cases effect with
  | removeBlocks => rfl
  | _ => exact nomatch hr

theorem removal?_eq_none_of_gift? (hg : effect.gift? = some (account, amount)) :
    effect.removal? = none := by
  cases effect with
  | giveBlocks | giveItems => rfl
  | _ => exact nomatch hg

end Call

/-- The call has done to the accounts what it says. -/
structure Booked (before : World) (call : Call) (after : World) : Prop where
  given : ∀ account, 0 ≤ call.given account
  /-- What was taken was there, so that the difference is one of the range. -/
  taken : ∀ account, 0 ≤ call.taken account ∧ call.taken account ≤ before.held account
  amount : ∀ account, after.held account = call.book account (before.held account)
  /-- All other entries are as before. -/
  others : ∀ account, call.given account = 0 → call.taken account = 0 →
    after.holding? account = before.holding? account

namespace World

variable {world before after last : World} {call : Call} {calls : List Call} {account : Account}

theorem held_le (world : World) (account : Account) : world.held account ≤ Int64.maxValue.toInt :=
  (world.amount account).toInt_le

theorem held_congr (h : after.holding? account = before.holding? account) :
    after.held account = before.held account := by
  rw [held, held, World.amount, World.amount, h]

namespace Solvent

/-- A call that neither gives nor takes leaves all accounts as they were. -/
theorem booked_of_same (h : before.Solvent) (hg : ∀ account, call.given account = 0)
    (ht : ∀ account, call.taken account = 0)
    (hsame : ∀ account, after.holding? account = before.holding? account) :
    Booked before call after := by
  refine ⟨fun account => (hg account).ge, fun account => ?_, fun account => ?_,
    fun account _ _ => hsame account⟩
  · rw [ht account]
    exact ⟨Int.le_refl 0, h account⟩
  · rw [held_congr (hsame account), Call.book, hg account, ht account, Int.add_zero,
      Int.min_eq_left (before.held_le account), Int.sub_zero]

/-- A call that gives to one account, or takes from it, has to do with no other. -/
theorem booked_put (h : before.Solvent) {player : Player} {amount : Int64}
    (hp : before.player? account.actor = some player) (hg : 0 ≤ call.given account)
    (ht : 0 ≤ call.taken account ∧ call.taken account ≤ before.held account)
    (hmoves : 0 < call.given account ∨ 0 < call.taken account)
    (hnone : ∀ other, other ≠ account → call.given other = 0 ∧ call.taken other = 0)
    (hamount : amount.toInt = call.book account (before.held account)) :
    Booked before call (before.put account amount) := by
  refine ⟨fun other => ?given, fun other => ?taken, fun other => ?amount,
    fun other hgiven htaken => ?others⟩
  case given =>
    by_cases hother : other = account
    · rwa [hother]
    · exact (hnone other hother).1.ge
  case taken =>
    by_cases hother : other = account
    · rwa [hother]
    · rw [(hnone other hother).2]
      exact ⟨Int.le_refl 0, h other⟩
  case amount =>
    by_cases hother : other = account
    · rw [hother, held_put_self hp, hamount]
    · obtain ⟨hgiven, htaken⟩ := hnone other hother
      rw [held_congr (holding?_put_of_ne hother), Call.book, hgiven, htaken, Int.add_zero,
        Int.min_eq_left (before.held_le other), Int.sub_zero]
  case others =>
    refine holding?_put_of_ne fun hother => ?_
    subst hother
    omega

theorem booked_gift (h : before.Solvent) {effect : Effect} {amount : Int64}
    (hgift : effect.gift? = some (account, amount)) (hg : Granted effect before after) :
    Booked before (.performed effect (.ok ())) after := by
  obtain ⟨hpos, ⟨player, hplayer⟩, rfl⟩ := hg.gift hgift
  have hamount : 0 < amount.toInt := Int64.lt_iff_toInt_lt.mp hpos
  have hgiven : Call.given account (.performed effect (.ok ())) = amount.toInt := by
    rw [Call.given_performed, hgift, Call.share_self]
  have htaken : ∀ other, Call.taken other (.performed effect (.ok ())) = 0 := fun other => by
    rw [Call.taken_performed, Call.removal?_eq_none_of_gift? hgift, Call.share]
  have hheld := h account
  refine h.booked_put hplayer (by omega) ?_ (.inl (by omega))
    (fun other hother => ⟨?_, htaken other⟩) ?_
  · rw [htaken]
    exact ⟨Int.le_refl 0, hheld⟩
  · rw [Call.given_performed, hgift, Call.share_of_ne hother]
  · rw [toInt_saturatingAdd, Call.book, hgiven, htaken, Int.sub_zero]
    exact clamp_of_nonneg (Int.add_nonneg hheld hamount.le)

theorem booked_removal (h : before.Solvent) {effect : Effect} {amount : Int64}
    (hremoval : effect.removal? = some (account, amount)) (hg : Granted effect before after) :
    Booked before (.performed effect (.ok ())) after := by
  obtain ⟨hpos, ⟨player, hplayer⟩, hle, rfl⟩ := hg.removal hremoval
  have hamount : 0 < amount.toInt := Int64.lt_iff_toInt_lt.mp hpos
  have hcovered : amount.toInt ≤ before.held account := Int64.le_iff_toInt_le.mp hle
  have htaken : Call.taken account (.performed effect (.ok ())) = amount.toInt := by
    rw [Call.taken_performed, hremoval, Call.share_self]
  have hgiven : ∀ other, Call.given other (.performed effect (.ok ())) = 0 := fun other => by
    rw [Call.given_performed, Call.gift?_eq_none_of_removal? hremoval, Call.share]
  refine h.booked_put hplayer (hgiven account).ge ?_ (.inr (by omega))
    (fun other hother => ⟨hgiven other, ?_⟩) ?_
  · rw [htaken]
    exact ⟨hamount.le, hcovered⟩
  · rw [Call.taken_performed, hremoval, Call.share_of_ne hother]
  · have hmost := before.held_le account
    -- there is as much as is taken, so the difference is one of the range
    have hfits : FitsInt64 (before.held account - amount.toInt) := by
      have hlow : Int64.minValue.toInt ≤ 0 := by decide
      exact ⟨by omega, by omega⟩
    rw [toInt_saturatingSub, Call.book, hgiven, htaken, Int.add_zero, Int.min_eq_left hmost]
    exact clamp_of_fitsInt64 hfits

/-- **Every call does to the accounts what it says.** -/
theorem booked (h : before.Solvent) (hl : call.Leads before after) : Booked before call after := by
  cases hl with
  | asked query =>
      refine h.booked_of_same (fun _ => rfl) (fun _ => rfl) fun account => ?_
      rcases answer_after query before with hsame | ⟨actor, key, hrecord⟩
      · rw [hsame]
      · rw [hrecord]
        rfl
  | performed effect =>
      cases hrun : Services.perform effect before with
      | mk result after =>
          cases result with
          | error refusal =>
              rw [perform_error hrun]
              exact h.booked_of_same (fun _ => rfl) (fun _ => rfl) fun _ => rfl
          | ok done =>
              have hgranted := perform_ok.mp hrun
              -- an effect gives, takes away, or does not touch the shelves
              cases hgift : effect.gift? with
              | some gift => exact h.booked_gift hgift hgranted
              | none =>
                  cases hremoval : effect.removal? with
                  | some removal => exact h.booked_removal hremoval hgranted
                  | none =>
                      refine h.booked_of_same (fun account => ?_) (fun account => ?_)
                        (hgranted.holding? hgift hremoval)
                      · rw [Call.given_performed, hgift, Call.share]
                      · rw [Call.taken_performed, hremoval, Call.share]

/-- What was there and was not taken is still there. -/
theorem after_call (h : before.Solvent) (hl : call.Leads before after) : after.Solvent := by
  intro account
  have hbooked := h.booked hl
  have hgiven := hbooked.given account
  have htaken := hbooked.taken account
  have hmost := before.held_le account
  rw [hbooked.amount account, Call.book]
  omega

/-- By induction on the calls. -/
theorem after_calls (h : world.Solvent) (hh : History world calls last) : last.Solvent := by
  induction hh with
  | start => exact h
  | call _ hl ih => exact ih.after_call hl

theorem held_after_calls (h : world.Solvent) (hh : History world calls last) (account : Account) :
    last.held account = calls.foldl (Call.book account) (world.held account) := by
  induction hh with
  | start => rfl
  | call hbefore hl ih =>
      rw [List.foldl_concat, ← ih, ((h.after_calls hbefore).booked hl).amount account]

end Solvent

end World

/-! ## Sums -/

namespace Call

/-- All in all. -/
def total (share : Call → Int) (calls : List Call) : Int :=
  calls.foldl (fun sum call => sum + share call) 0

theorem total_concat (share : Call → Int) (calls : List Call) (call : Call) :
    total share (calls ++ [call]) = total share calls + share call :=
  List.foldl_concat ..

theorem given_eq_zero_or_taken (account : Account) (call : Call) :
    call.given account = 0 ∨ call.taken account = 0 := by
  cases hgranted : call.granted? with
  | none => exact .inl (by rw [given, hgranted, Option.bind_none, share])
  | some effect =>
      cases hgift : effect.gift? with
      | none => exact .inl (by rw [given, hgranted, Option.bind_some, hgift, share])
      | some gift =>
          have hnone := removal?_eq_none_of_gift? hgift
          exact .inr (by rw [taken, hgranted, Option.bind_some, hnone, share])

end Call

/-- A world whose calls are a ledger of what players hold. -/
structure Ledger (world : World) : Prop where
  /-- Whatever is done to the world, it comes of the calls that are written down when it is
  watched. -/
  recorded : ∀ {ρ : Type} [RandomSource ρ] (deeds : List (Deed ρ)), ∃ calls,
    Deed.afterAll deeds (⟨world, []⟩ : Watched World) = ⟨Deed.afterAll deeds world, calls⟩ ∧
      History world calls (Deed.afterAll deeds world)
  /-- At no moment somebody holds less than nothing, or more than there are integers for. -/
  range : ∀ {made rest last}, History world (made ++ rest) last →
    ∃ between, History world made between ∧ History between rest last ∧
      ∀ account, 0 ≤ between.held account ∧ between.held account ≤ Int64.maxValue.toInt
  /-- Every call gives or takes what it says if it is not refused, and does nothing else. -/
  booked : ∀ {calls before call after}, History world calls before → call.Leads before after →
    Booked before call after
  /-- The calls alone say what is held in the end. -/
  held : ∀ {calls last} account, History world calls last →
    last.held account = calls.foldl (Call.book account) (world.held account)
  /-- As long as nobody would come to hold more than there are integers for, nothing is lost. -/
  balance : ∀ {calls last} account, History world calls last →
    (∀ made rest, calls = made ++ rest →
      world.held account + Call.total (Call.given account) made
        - Call.total (Call.taken account) made ≤ Int64.maxValue.toInt) →
    last.held account = world.held account + Call.total (Call.given account) calls
      - Call.total (Call.taken account) calls

namespace World.Solvent

variable {world last : World} {calls : List Call} {account : Account}

theorem balance (h : world.Solvent) (hh : History world calls last)
    (hbelow : ∀ made rest, calls = made ++ rest →
      world.held account + Call.total (Call.given account) made
        - Call.total (Call.taken account) made ≤ Int64.maxValue.toInt) :
    last.held account = world.held account + Call.total (Call.given account) calls
      - Call.total (Call.taken account) calls := by
  induction hh with
  | start => rw [Call.total, Call.total, List.foldl_nil, List.foldl_nil, Int.add_zero, Int.sub_zero]
  | @call before after calls call hbefore hl ih =>
      have hfirst := ih fun made rest he =>
        hbelow made (rest ++ [call]) (by rw [he, List.append_assoc])
      have hlast := hbelow (calls ++ [call]) [] (List.append_nil _).symm
      have hmost := before.held_le account
      -- no call both gives and takes, so what stays below the top was not cut off
      have hone := Call.given_eq_zero_or_taken account call
      rw [((h.after_calls hbefore).booked hl).amount account, Call.book]
      rw [Call.total_concat, Call.total_concat] at hlast ⊢
      omega

/-- **A world in which nobody holds less than nothing keeps a ledger** by being called. -/
theorem ledger (h : world.Solvent) : Ledger world := by
  refine ⟨fun deeds => ?recorded, fun hh => ?range, fun hh hl => ?booked, fun account hh => ?held,
    fun account hh hbelow => ?balance⟩
  case recorded => exact Deed.exists_allCalls deeds world
  case range =>
    obtain ⟨between, hmade, hrest⟩ := hh.exists_between
    exact ⟨between, hmade, hrest, fun account =>
      ⟨h.after_calls hmade account, between.held_le account⟩⟩
  case booked => exact (h.after_calls hh).booked hl
  case held => exact h.held_after_calls hh account
  case balance => exact h.balance hh hbelow

end World.Solvent

/-! ## Worlds in which nobody owes anything -/

namespace World

variable {world other : World}

theorem solvent_of_players (h : world.Solvent) (hp : other.players = world.players) :
    other.Solvent := by
  intro account
  have hholding : other.holding? account = world.holding? account := by
    rw [holding?, player?, hp]
    rfl
  rw [held_congr hholding]
  exact h account

theorem solvent_empty : World.empty.Solvent := by
  intro account
  have hnone : World.empty.holding? account = none := by
    rw [holding?, player?, empty, Std.ExtTreeMap.getElem?_empty]
    rfl
  rw [held, World.amount, hnone]
  exact Int.le_refl 0

/-- Players come with empty hands. -/
theorem Solvent.addPlayer (h : world.Solvent) (actor : ActorId) (name : String) :
    (world.addPlayer actor name).Solvent := by
  intro account
  rw [held, World.amount, holding?, player?, World.addPlayer, Std.ExtTreeMap.getElem?_insert]
  split
  · rw [Option.bind_some]
    cases account.shelf with
    | blocks | items =>
        rw [Player.on, Std.ExtTreeMap.getElem?_empty]
        exact Int.le_refl 0
  · exact h account

end World

/-! ## Savings

Coins count as items, and there are blocks of them. A gift doubles the items. -/

namespace Savings

open Toll (coin)

def world : World :=
  ((World.empty.addPlayer ⟨7⟩ "Alex").addBlockType coin).addItemType coin

theorem world_solvent : world.Solvent :=
  World.solvent_of_players (World.solvent_empty.addPlayer ⟨7⟩ "Alex") rfl

def engine : Engine SeededRandom := .create .builtin {} (.ofSeed 0)

def deeds : List (Deed SeededRandom) :=
  [.perform (.giveItems ⟨7⟩ coin 4), .perform (.giveBlocks ⟨7⟩ coin 5),
    .perform (.removeBlocks ⟨7⟩ coin 2), .perform (.removeBlocks ⟨7⟩ coin 4),
    .evaluate engine Gift.script Gift.facts ⟨0⟩]

def excess : Deed SeededRandom := .perform (.giveItems ⟨7⟩ coin Int64.maxValue)

end Savings

namespace World

/-- The second removal is refused. What goes beyond the greatest integer is lost. -/
theorem ledger_savings :
    Ledger Savings.world ∧
      (Deed.afterAll Savings.deeds Savings.world).held ⟨⟨7⟩, .blocks, Toll.coin⟩ = 3 ∧
      (Deed.afterAll Savings.deeds Savings.world).held ⟨⟨7⟩, .items, Toll.coin⟩ = 8 ∧
      (Deed.afterAll (Savings.deeds ++ [Savings.excess]) Savings.world).held
        ⟨⟨7⟩, .items, Toll.coin⟩ = Int64.maxValue.toInt := by
  refine ⟨Savings.world_solvent.ledger, ?_, ?_, ?_⟩
  · rw [Savings.deeds, Savings.engine, Registry.builtin_eq]
    decide +kernel
  · rw [Savings.deeds, Savings.engine, Registry.builtin_eq]
    decide +kernel
  · rw [Savings.deeds, Savings.engine, Registry.builtin_eq]
    decide +kernel

end World

end Rulebook
