import Rulebook.Proofs.Interchange.LiteralText

/-!
# What a payload stands for

The texts that are literals of a type, and the literal that each of them stands
for. Blocks and items have to be known to the host, and regions to be there; a
region is named by its stable identifier or by its number, and by the mark in
front one knows which. Reading finds exactly these.
-/

namespace Rulebook

namespace Text

theorem dropStart?_eq_some {start text rest : List Char} :
    dropStart? start text = some rest ↔ text = start ++ rest := by
  induction start generalizing text with
  | nil => cases text <;> simp [dropStart?, eq_comm]
  | cons c start ih =>
      cases text with
      | nil => simp [dropStart?]
      | cons d text =>
          rw [dropStart?]
          split
          · rename_i he
            rw [ih, he, List.cons_append, List.cons_inj_right]
          · rename_i hne
            simp [Ne.symm hne]

end Text

namespace LiteralText

variable {σ : Type} [Services σ] {scenario : Scenario} {services : σ} {type : ValueType}
  {text : List Char} {literal : Literal}

/-- The text names the region. -/
inductive Names (scenario : Scenario) : List Char → Region → Prop where
  | stable {rest : List Char} {stableId : Uuid} {region : Region} :
      Uuid.parse? (String.ofList rest) = some stableId →
      scenario.regionOfStableId? stableId = some region → Names scenario (stableMark ++ rest) region
  | number {rest : List Char} {raw : Nat} {region : Region} :
      Text.natBelow? limit32 rest = some raw → scenario.region? ⟨raw⟩ = some region →
      Names scenario (localMark ++ rest) region

/-- The text is a literal of the type, and what it refers to exists. -/
inductive Denotes (scenario : Scenario) (services : σ) :
    ValueType → List Char → Literal → Prop where
  | int {text : List Char} {value : Int64} :
      Text.int64? text = some value → Denotes scenario services .int text (.int value)
  | text {text value : List Char} : Text.unescape? text = some value →
      Denotes scenario services .text text (.text (String.ofList value))
  | bool (value : Bool) : Denotes scenario services .bool (boolText value) (.bool value)
  | comparator {text : List Char} {value : Comparator} :
      Comparator.ofName? (String.ofList text) = some value →
      Denotes scenario services .comparator text (.comparator value)
  | damageType {text : List Char} {value : DamageType} :
      DamageType.ofName? (String.ofList text) = some value →
      Denotes scenario services .damageType text (.damageType value)
  | block {text : List Char} {key : ResourceKey} :
      ResourceKey.parse? (String.ofList text) = some key → Services.hasBlock services key = true →
      Denotes scenario services .block text (.block key)
  | item {text : List Char} {key : ResourceKey} :
      ResourceKey.parse? (String.ofList text) = some key → Services.hasItem services key = true →
      Denotes scenario services .item text (.item key)
  | region {text : List Char} {region : Region} :
      Names scenario text region → Denotes scenario services .region text (.region region.id)

theorem Names.mem {region : Region} (h : Names scenario text region) :
    region ∈ scenario.regions := by
  cases h with
  | stable _ hr => exact List.mem_of_find?_eq_some hr
  | number _ hr => exact List.mem_of_find?_eq_some hr

theorem Denotes.type_eq (h : Denotes scenario services type text literal) :
    literal.type = type := by
  cases h <;> rfl

theorem orInvalid_ok {α : Type} {found : Option α} {a : α} :
    orInvalid found = .ok a ↔ found = some a := by
  cases found <;> simp [orInvalid]

theorem readRegion_ok {id : RegionId} :
    readRegion scenario text = .ok id ↔ ∃ region, Names scenario text region ∧ region.id = id := by
  constructor
  · intro h
    unfold readRegion at h
    dsimp only at h
    split at h
    · rename_i rest hstable
      rw [Text.dropStart?_eq_some.mp hstable]
      split at h
      · rename_i stableId hid
        obtain ⟨found, hfound, h⟩ := Check.bind_ok.mp h
        cases Check.pure_ok.mp hfound
        cases hr : scenario.regionOfStableId? stableId with
        | none =>
            rw [hr] at h
            exact absurd h (by simp [Check.throw_ok])
        | some region =>
            rw [hr] at h
            exact ⟨region, .stable hid hr, Check.pure_ok.mp h⟩
      · exact absurd h (by simp [Check.bind_ok, Check.throw_ok])
    · split at h
      · rename_i rest hlocal
        rw [Text.dropStart?_eq_some.mp hlocal]
        split at h
        · rename_i raw hraw
          obtain ⟨found, hfound, h⟩ := Check.bind_ok.mp h
          cases Check.pure_ok.mp hfound
          cases hr : scenario.region? ⟨raw⟩ with
          | none =>
              rw [hr] at h
              exact absurd h (by simp [Check.throw_ok])
          | some region =>
              rw [hr] at h
              exact ⟨region, .number hraw hr, Check.pure_ok.mp h⟩
        · exact absurd h (by simp [Check.bind_ok, Check.throw_ok])
      · exact absurd h (by simp [Check.bind_ok, Check.throw_ok])
  · intro hx
    obtain ⟨region, hn, rfl⟩ := hx
    cases hn with
    | stable hid hr =>
        unfold readRegion
        rw [Text.dropStart?_append]
        dsimp only
        rw [hid]
        dsimp only
        rw [hr]
        rfl
    | number hraw hr =>
        rename_i rest raw
        -- the mark of a number is not the mark of an identifier
        have hmark : Text.dropStart? stableMark (localMark ++ rest) = none := rfl
        unfold readRegion
        rw [hmark]
        dsimp only
        rw [Text.dropStart?_append]
        dsimp only
        rw [hraw]
        dsimp only
        rw [hr]
        rfl

/-- **A literal is read exactly from the texts that stand for it.** -/
theorem read_ok :
    read scenario services type text = .ok literal ↔
      Denotes scenario services type text literal := by
  constructor
  · intro h
    cases type with
    | int =>
        obtain ⟨value, hv, h⟩ := Check.bind_ok.mp h
        cases Check.pure_ok.mp h
        exact .int (orInvalid_ok.mp hv)
    | text =>
        obtain ⟨value, hv, h⟩ := Check.bind_ok.mp h
        cases Check.pure_ok.mp h
        exact .text (orInvalid_ok.mp hv)
    | bool =>
        simp only [read, Check.ite_ok, Except.ok.injEq] at h
        obtain ⟨rfl, rfl⟩ | ⟨_, ⟨rfl, rfl⟩ | ⟨_, h⟩⟩ := h
        · exact .bool true
        · exact .bool false
        · exact absurd h (by simp)
    | comparator =>
        obtain ⟨value, hv, h⟩ := Check.bind_ok.mp h
        cases Check.pure_ok.mp h
        exact .comparator (orInvalid_ok.mp hv)
    | damageType =>
        obtain ⟨value, hv, h⟩ := Check.bind_ok.mp h
        cases Check.pure_ok.mp h
        exact .damageType (orInvalid_ok.mp hv)
    | block =>
        obtain ⟨key, hkey, h⟩ := Check.bind_ok.mp h
        simp only [Check.ite_ok, Check.throw_ok, Check.pure_ok, Check.then_ok, and_false,
          false_and, or_false] at h
        obtain ⟨hknown, rfl⟩ := h
        exact .block (orInvalid_ok.mp hkey) hknown
    | item =>
        obtain ⟨key, hkey, h⟩ := Check.bind_ok.mp h
        simp only [Check.ite_ok, Check.throw_ok, Check.pure_ok, Check.then_ok, and_false,
          false_and, or_false] at h
        obtain ⟨hknown, rfl⟩ := h
        exact .item (orInvalid_ok.mp hkey) hknown
    | region =>
        obtain ⟨id, hid, h⟩ := Check.bind_ok.mp h
        cases Check.pure_ok.mp h
        obtain ⟨region, hn, rfl⟩ := readRegion_ok.mp hid
        exact .region hn
    | entity => exact absurd h (by simp [read])
    | unit => exact absurd h (by simp [read])
  · intro h
    cases h with
    | int hv | text hv | comparator hv | damageType hv =>
        exact Check.bind_ok.mpr ⟨_, orInvalid_ok.mpr hv, rfl⟩
    | bool value => cases value <;> rfl
    | block hkey hknown | item hkey hknown =>
        exact Check.bind_ok.mpr ⟨_, orInvalid_ok.mpr hkey, if_pos hknown⟩
    | region hn => exact Check.bind_ok.mpr ⟨_, readRegion_ok.mpr ⟨_, hn, rfl⟩, rfl⟩

end LiteralText

end Rulebook
