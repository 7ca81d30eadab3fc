import Mathlib.Data.List.Forall2

/-!
# Lists side by side

Two lists whose entries are related pair by pair: what one has, the other has in
the same place. Writing goes from one list to another entry by entry, and so does
reading back, so the two meet in a third list that both are related to.
-/

namespace Rulebook.SideBySide

variable {α β γ : Type} {R : α → β → Prop} {S : α → γ → Prop} {as : List α} {bs : List β}
  {cs : List γ}

theorem exists_right (h : List.Forall₂ R as bs) {a : α} (ha : a ∈ as) : ∃ b ∈ bs, R a b := by
  induction h with
  | nil => simp at ha
  | @cons _ b _ _ hab _ ih =>
      rcases List.mem_cons.mp ha with rfl | ha
      · exact ⟨b, List.mem_cons_self, hab⟩
      · obtain ⟨other, ho, hr⟩ := ih ha
        exact ⟨other, List.mem_cons_of_mem _ ho, hr⟩

theorem exists_left (h : List.Forall₂ R as bs) {b : β} (hb : b ∈ bs) : ∃ a ∈ as, R a b :=
  exists_right h.flip hb

theorem with_mem (h : List.Forall₂ R as bs) : List.Forall₂ (fun a b => b ∈ bs ∧ R a b) as bs := by
  induction h with
  | nil => exact .nil
  | cons hab _ ih =>
      refine .cons ⟨List.mem_cons_self, hab⟩ ?_
      exact ih.imp fun _ _ hr => ⟨List.mem_cons_of_mem _ hr.1, hr.2⟩

theorem map_eq {f : α → γ} {g : β → γ} (h : List.Forall₂ (fun a b => f a = g b) as bs) :
    as.map f = bs.map g := by
  induction h with
  | nil => rfl
  | cons hab _ ih => rw [List.map_cons, List.map_cons, hab, ih]

/-- Two lists that go with a third go with each other. -/
theorem meet (h : List.Forall₂ R as bs) (hc : List.Forall₂ S as cs) :
    List.Forall₂ (fun b c => ∃ a ∈ as, R a b ∧ S a c) bs cs := by
  induction h generalizing cs with
  | nil =>
      rw [List.forall₂_nil_left_iff.mp hc]
      exact .nil
  | @cons a _ _ _ hab _ ih =>
      obtain ⟨c, rest, hac, hrest, rfl⟩ := List.forall₂_cons_left_iff.mp hc
      refine .cons ⟨a, List.mem_cons_self, hab, hac⟩ ?_
      exact (ih hrest).imp fun _ _ ⟨other, ho, hr⟩ => ⟨other, List.mem_cons_of_mem _ ho, hr⟩

/-- If every entry has one to go with it, so has the list. -/
theorem exists_list (h : ∀ a ∈ as, ∃ b, R a b) : ∃ bs, List.Forall₂ R as bs := by
  induction as with
  | nil => exact ⟨[], .nil⟩
  | cons a rest ih =>
      obtain ⟨b, hb⟩ := h a List.mem_cons_self
      obtain ⟨bs, hbs⟩ := ih fun other ho => h other (List.mem_cons_of_mem _ ho)
      exact ⟨b :: bs, .cons hb hbs⟩

/-- Entries that are made from others, made one by one. -/
theorem map_iff {T : α → γ → Prop} {f : γ → β} (h : ∀ a b, R a b ↔ ∃ c, T a c ∧ b = f c) :
    List.Forall₂ R as bs ↔ ∃ cs, List.Forall₂ T as cs ∧ bs = cs.map f := by
  constructor
  · intro hall
    induction hall with
    | nil => exact ⟨[], .nil, rfl⟩
    | cons hab _ ih =>
        obtain ⟨c, hc, rfl⟩ := (h _ _).mp hab
        obtain ⟨cs, hcs, rfl⟩ := ih
        exact ⟨c :: cs, .cons hc hcs, rfl⟩
  · intro hx
    obtain ⟨cs, hcs, rfl⟩ := hx
    rw [List.forall₂_map_right_iff]
    exact hcs.imp fun a c hc => (h a _).mpr ⟨c, hc, rfl⟩

end Rulebook.SideBySide
