import Rulebook.Interchange.LiteralText
import Rulebook.Proofs.Attempt
import Rulebook.Proofs.ResourceKey
import Rulebook.Proofs.Scenario.Regions
import Rulebook.Proofs.Text.Digits
import Rulebook.Proofs.Text.Escape

/-!
# Literals survive being written

A literal that was written is read as the same literal, as long as the host
knows what it names. A region is the exception: it is read as whichever region
of the reading script the text names, its *counterpart* there. In the script that
it was written in a region is its own counterpart.
-/

namespace Rulebook

namespace Text

theorem dropStart?_append (start rest : List Char) :
    dropStart? start (start ++ rest) = some rest := by
  induction start with
  | nil => cases rest <;> rfl
  | cons c start ih =>
      rw [List.cons_append, dropStart?, if_pos rfl]
      exact ih

end Text

namespace Scenario

/-- The region of another script that a text names if it is written for a region of this one:
the region of the same stable identifier, or of the same number if it has none. -/
def counterpart? (scenario other : Scenario) (id : RegionId) : Option RegionId :=
  (scenario.region? id).bind fun region =>
    match region.stableId with
    | some stableId => (other.regionOfStableId? stableId).map Region.id
    | none => (other.region? id).map Region.id

/-- A region is its own counterpart where the regions are the same. -/
theorem counterpart?_self {scenario other : Scenario} (h : Surveyed scenario)
    (hsame : other.regions = scenario.regions) {id : RegionId} {region : Region}
    (hr : scenario.region? id = some region) : scenario.counterpart? other id = some id := by
  obtain ⟨hm, hid⟩ := mem_of_region? hr
  have hother : other.region? id = some region := by rw [region?, hsame, ← region?, hr]
  unfold counterpart?
  rw [hr, Option.bind_some]
  cases hs : region.stableId with
  | some stableId =>
      show (other.regionOfStableId? stableId).map Region.id = some id
      rw [regionOfStableId?, hsame, ← regionOfStableId?, h.regionOfStableId? hm hs, Option.map_some,
        hid]
  | none =>
      show (other.region? id).map Region.id = some id
      rw [hother, Option.map_some, hid]

end Scenario

namespace Literal

/-- What is read in one script where another wrote the literal. -/
def transfer (scenario other : Scenario) : Literal → Literal
  | region id => region ((scenario.counterpart? other id).getD id)
  | literal => literal

/-- The host knows the block or item that the literal names. -/
def KnownTo {σ : Type} [Services σ] (services : σ) : Literal → Prop
  | block key => Services.hasBlock services key = true
  | item key => Services.hasItem services key = true
  | _ => True

/-- A region that the literal names has a counterpart. -/
def ResolvesIn (scenario other : Scenario) : Literal → Prop
  | region id => (scenario.counterpart? other id).isSome = true
  | _ => True

@[simp] theorem type_transfer (scenario other : Scenario) (literal : Literal) :
    (literal.transfer scenario other).type = literal.type := by
  cases literal <;> rfl

end Literal

namespace LiteralText

variable {scenario other : Scenario} {literal : Literal} {text : List Char}

/-- A literal that can be written names a region that exists, if it names one. -/
theorem region_of_write {id : RegionId} (h : write scenario (.region id) = .ok text) :
    ∃ region, scenario.region? id = some region ∧ text = regionText region := by
  unfold write at h
  cases hr : scenario.region? id with
  | none => simp [hr] at h
  | some region =>
      simp only [hr, Except.ok.injEq] at h
      exact ⟨region, rfl, h.symm⟩

theorem resolvesIn_self (hs : scenario.Surveyed) (hsame : other.regions = scenario.regions)
    (h : write scenario literal = .ok text) : literal.ResolvesIn scenario other := by
  cases literal with
  | region id =>
      obtain ⟨region, hr, _⟩ := region_of_write h
      show (scenario.counterpart? other id).isSome = true
      rw [Scenario.counterpart?_self hs hsame hr]
      rfl
  | _ => trivial

theorem transfer_self (hs : scenario.Surveyed) (hsame : other.regions = scenario.regions)
    (h : write scenario literal = .ok text) : literal.transfer scenario other = literal := by
  cases literal with
  | region id =>
      obtain ⟨region, hr, _⟩ := region_of_write h
      show Literal.region ((scenario.counterpart? other id).getD id) = .region id
      rw [Scenario.counterpart?_self hs hsame hr]
      rfl
  | _ => rfl

theorem readRegion_regionText {id found : RegionId} {region : Region}
    (hlt : id.raw < limit32) (hr : scenario.region? id = some region)
    (hc : scenario.counterpart? other id = some found) :
    readRegion other (regionText region) = .ok found := by
  obtain ⟨_, hid⟩ := Scenario.mem_of_region? hr
  unfold Scenario.counterpart? at hc
  rw [hr, Option.bind_some] at hc
  unfold regionText readRegion
  cases hs : region.stableId with
  | some stableId =>
      rw [hs] at hc
      obtain ⟨there, ht, hfound⟩ := Option.map_eq_some_iff.mp hc
      dsimp only
      rw [Text.dropStart?_append]
      dsimp only
      rw [String.ofList_toList, Uuid.parse?_text]
      dsimp only
      rw [ht, ← hfound]
      rfl
  | none =>
      rw [hs] at hc
      obtain ⟨there, ht, hfound⟩ := Option.map_eq_some_iff.mp hc
      -- the mark of a number is not the mark of an identifier
      have hmark : Text.dropStart? stableMark (localMark ++ (toString region.id.raw).toList)
          = none := rfl
      have hnumber : Text.natBelow? limit32 (toString region.id.raw).toList = some id.raw := by
        rw [hid]
        show Text.natBelow? limit32 (id.raw.repr).toList = some id.raw
        rw [Nat.toList_repr, Text.natBelow?_toDigits hlt]
      dsimp only
      rw [hmark, Text.dropStart?_append]
      dsimp only
      rw [hnumber]
      dsimp only
      rw [show (⟨id.raw⟩ : RegionId) = id from rfl, ht, ← hfound]
      rfl

/-- **A literal is read from the text that was written for it.** -/
theorem read_write {σ : Type} [Services σ] {services : σ} (hs : scenario.Surveyed)
    (hrange : scenario.nextRegion < limit32) (h : write scenario literal = .ok text)
    (hk : literal.KnownTo services) (hr : literal.ResolvesIn scenario other) :
    read other services literal.type text = .ok (literal.transfer scenario other) := by
  cases literal with
  | int value =>
      cases h
      show (do return Literal.int (← orInvalid (Text.int64? (integerText value).toList))) = _
      rw [Text.int64?_integerText]
      rfl
  | text value =>
      cases h
      show (do
        return Literal.text (String.ofList (← orInvalid (Text.unescape? (Text.escape value.toList)))))
          = _
      rw [Text.unescape?_escape]
      show Except.ok (Literal.text (String.ofList value.toList)) = _
      rw [String.ofList_toList]
      rfl
  | bool value =>
      cases h
      cases value <;> rfl
  | comparator value =>
      cases h
      cases value <;> rfl
  | damageType value =>
      cases h
      cases value <;> rfl
  | block key =>
      cases h
      unfold read
      dsimp only
      rw [String.ofList_toList, ResourceKey.parse?_text]
      exact if_pos hk
  | item key =>
      cases h
      unfold read
      dsimp only
      rw [String.ofList_toList, ResourceKey.parse?_text]
      exact if_pos hk
  | region id =>
      obtain ⟨region, hregion, rfl⟩ := region_of_write h
      obtain ⟨found, hfound⟩ := Option.isSome_iff_exists.mp hr
      obtain ⟨hm, hid⟩ := Scenario.mem_of_region? hregion
      -- a region that exists has a number below the next one, and that fits
      have hlt : id.raw < limit32 := by
        have hused := hs.used region hm
        rw [hid] at hused
        omega
      show (do return Literal.region (← readRegion other (regionText region))) = _
      rw [readRegion_regionText hlt hregion hfound]
      show Except.ok (Literal.region found)
        = .ok (.region ((scenario.counterpart? other id).getD id))
      rw [hfound]
      rfl

/-- The text of a literal is on one line. -/
theorem not_mem_write (h : write scenario literal = .ok text) : '\n' ∉ text ∧ '\r' ∉ text := by
  cases literal with
  | int value =>
      cases h
      exact Text.not_mem_toString value.toInt
  | text value =>
      cases h
      exact Text.not_mem_escape _
  | bool value =>
      cases h
      cases value <;> decide
  | comparator value =>
      cases h
      cases value <;> decide
  | damageType value =>
      cases h
      cases value <;> decide
  | block key =>
      cases h
      exact key.not_mem_text
  | item key =>
      cases h
      exact key.not_mem_text
  | region id =>
      obtain ⟨region, _, rfl⟩ := region_of_write h
      -- a region is written as a mark and an id, neither of which breaks the line
      unfold regionText
      have hmarks : ('\n' ∉ stableMark ∧ '\r' ∉ stableMark) ∧
          '\n' ∉ localMark ∧ '\r' ∉ localMark := by decide
      cases region.stableId with
      | some stableId => simp [hmarks, stableId.not_mem_text]
      | none =>
          have hdigits := Text.not_mem_toDigits region.id.raw
          simp [hmarks, hdigits]

end LiteralText

end Rulebook
