import Mathlib.Data.List.Pairwise
import Rulebook.Proofs.Scenario.Conformance

/-!
# Regions are told apart

No two regions of a script have the same number or the same stable identifier,
so whichever of the two a text names a region by, it names one region only.
With what is known of nodes and owners this makes a script *sound*: it can be
written and read back.
-/

namespace Rulebook

namespace Scenario

variable {registry : Registry} {scenario after : Scenario}

/-- Numbers and stable identifiers tell the regions apart. -/
structure Surveyed (scenario : Scenario) : Prop where
  ids : (scenario.regions.map Region.id).Nodup
  used : ∀ region ∈ scenario.regions, region.id.raw < scenario.nextRegion
  stable : (scenario.regions.filterMap Region.stableId).Nodup

theorem not_mem_of_regionOfStableId? {known : Uuid}
    (h : scenario.regionOfStableId? known = none) :
    known ∉ scenario.regions.filterMap Region.stableId := by
  intro hm
  obtain ⟨region, hr, hs⟩ := List.mem_filterMap.mp hm
  have hne := List.find?_eq_none.mp h region hr
  simp [hs] at hne

theorem Surveyed.change (h : Surveyed scenario) (hc : Change registry scenario after) :
    Surveyed after := by
  cases hc with
  | forest _ => exact ⟨h.ids, h.used, h.stable⟩
  | addTrigger => exact ⟨h.ids, h.used, h.stable⟩
  | attach _ _ _ _ _ => exact ⟨h.ids, h.used, h.stable⟩
  | arrange _ _ _ => exact ⟨h.ids, h.used, h.stable⟩
  | @addRegion name stableId bounds hnew =>
      refine ⟨?_, ?_, ?_⟩
      · rw [List.map_append, List.nodup_append]
        refine ⟨h.ids, List.nodup_singleton _, fun a ha b hb hab => ?_⟩
        obtain ⟨region, hr, rfl⟩ := List.mem_map.mp ha
        have hlt := h.used region hr
        have he : region.id = ⟨scenario.nextRegion⟩ := by simpa [hab] using hb
        rw [he] at hlt
        exact Nat.lt_irrefl _ hlt
      · intro region hr
        rcases List.mem_append.mp hr with hr | hr
        · exact Nat.lt_succ_of_lt (h.used region hr)
        · rw [List.mem_singleton.mp hr]
          exact Nat.lt_succ_self _
      · rw [List.filterMap_append, List.nodup_append]
        refine ⟨h.stable, ?_, fun a ha b hb hab => ?_⟩
        · cases stableId <;> simp
        · obtain ⟨region, hr, hs⟩ := List.mem_filterMap.mp hb
          rw [List.mem_singleton.mp hr] at hs
          -- a stable id is added only if no region has it yet
          exact not_mem_of_regionOfStableId? (hnew b hs) (hab ▸ ha)
  | @sift regions hsub =>
      have hids : (regions.map Region.id).Sublist (scenario.regions.map Region.id) := by
        simpa [List.map_map, Function.comp_def] using hsub.map Prod.fst
      have hstable : (regions.filterMap Region.stableId).Sublist
          (scenario.regions.filterMap Region.stableId) := by
        simpa [List.filterMap_map, Function.comp_def] using hsub.filterMap Prod.snd
      refine ⟨h.ids.sublist hids, fun region hr => ?_, h.stable.sublist hstable⟩
      obtain ⟨old, ho, he⟩ := List.mem_map.mp (hids.subset (List.mem_map_of_mem hr))
      rw [← he]
      exact h.used old ho

theorem Reached.surveyed (h : Reached scenario) : Surveyed scenario := by
  induction h with
  | empty name => exact ⟨List.nodup_nil, by simp [Scenario.empty], List.nodup_nil⟩
  | request registry request h hf _ ih =>
      exact (request.changes h.owned hf).keep (fun hc _ hs => hs.change hc) h.owned ih

theorem mem_of_region? {id : RegionId} {region : Region} (h : scenario.region? id = some region) :
    region ∈ scenario.regions ∧ region.id = id :=
  ⟨List.mem_of_find?_eq_some h, by simpa using List.find?_some h⟩

namespace Surveyed

/-- A region is found under its stable identifier. -/
theorem regionOfStableId? (h : Surveyed scenario) {region : Region} {known : Uuid}
    (hr : region ∈ scenario.regions) (hs : region.stableId = some known) :
    scenario.regionOfStableId? known = some region := by
  cases hf : scenario.regionOfStableId? known with
  | none => exact absurd (List.mem_filterMap.mpr ⟨region, hr, hs⟩) (not_mem_of_regionOfStableId? hf)
  | some found =>
      have hm : found ∈ scenario.regions := List.mem_of_find?_eq_some hf
      have hk : found.stableId = some known := by simpa using List.find?_some hf
      -- another region found there would have the same identifier
      have hapart := List.pairwise_filterMap.mp h.stable
      by_contra hne
      have hne' : found ≠ region := fun he => hne (congrArg some he)
      have hsymm : Std.Symm fun a b : Region => ∀ k, a.stableId = some k →
          ∀ k', b.stableId = some k' → k ≠ k' :=
        ⟨fun a b hab k hk k' hk' he => hab k' hk' k hk he.symm⟩
      exact hapart.forall hm hr hne' known hk known hs rfl

end Surveyed

/-! ## Sound scripts -/

/-- What writing a script and reading it back rests on. -/
structure Sound (registry : Registry) (scenario : Scenario) : Prop where
  variants : registry.Sound
  owned : Owned scenario
  conforms : Conforms registry scenario
  surveyed : Surveyed scenario
  /-- Numbers of regions fit in 32 bits. -/
  numbered : scenario.nextRegion < limit32

theorem Reachable.isSound (h : Reachable registry scenario) : Sound registry scenario :=
  ⟨h.sound, h.owned, h.conforms, h.reached.surveyed, h.reached.inRange.regions⟩

/-- A run of changes that adds no regions leaves a sound script sound. -/
theorem Sound.changes (h : Sound registry scenario) (hc : Changes registry scenario after)
    (hr : after.nextRegion = scenario.nextRegion) : Sound registry after := by
  refine ⟨h.variants, hc.owned h.owned, ?_, ?_, hr ▸ h.numbered⟩
  · exact hc.keep (fun hstep ho hp => hp.change h.variants ho hstep) h.owned h.conforms
  · exact hc.keep (fun hstep _ hp => hp.change hstep) h.owned h.surveyed

end Scenario

end Rulebook
