import Mathlib.Logic.Relation
import Rulebook.Proofs.Forest.Lookup

/-!
# Linked forests

Who holds a node is written down twice: in the slot that holds it, and as the
owner of the node. A forest is *linked* when the two agree, when nothing is held
twice, and when the way up from every node comes to an end.

The last of these is what the bounds on walks rest on. A walk along a relation
that never comes back can visit every node at most once, so as many steps as
there are nodes are always enough. `walk_induction` says this once, for walks
upward and downward alike.
-/

namespace Rulebook

namespace Forest

/-- A slot of the one node holds the other. -/
def Holds (forest : Forest) (parent child : NodeId) : Prop :=
  ∃ node, forest.get? parent = some node ∧ child ∈ node.children

/-- The second node is the first, or lies somewhere below it. -/
def Below (forest : Forest) : NodeId → NodeId → Prop := Relation.ReflTransGen forest.Holds

/-- The way up from the node, along its owners, ends at a node that no slot holds. -/
inductive Grounded (forest : Forest) : NodeId → Prop where
  | root {id : NodeId} {node : Node} :
      forest.get? id = some node → (∀ parent, node.owner ≠ .argument parent) → Grounded forest id
  | held {id parent : NodeId} {node : Node} :
      forest.get? id = some node → node.owner = .argument parent → Grounded forest parent →
      Grounded forest id

/-- Slots and owners of a forest agree, and no node lies below itself. -/
structure Linked (forest : Forest) : Prop where
  /-- A node stands under its own number. -/
  key : ∀ {id node}, forest.get? id = some node → node.id = id
  /-- Numbers in use lie below the next one. -/
  used : ∀ {id node}, forest.get? id = some node → id.raw < forest.nextId
  /-- No slot of a node is filled twice. -/
  names : ∀ {id node}, forest.get? id = some node → (node.arguments.map Binding.param).Nodup
  /-- No node is in two slots of one node. -/
  nodup : ∀ {id node}, forest.get? id = some node → node.children.Nodup
  /-- What a slot holds exists and knows who holds it. -/
  down : ∀ {parent node child}, forest.get? parent = some node → child ∈ node.children →
    ∃ inner, forest.get? child = some inner ∧ inner.owner = .argument parent
  /-- Who is said to hold a node does. -/
  up : ∀ {child inner parent}, forest.get? child = some inner → inner.owner = .argument parent →
    forest.Holds parent child
  /-- Every way up ends. -/
  grounded : ∀ {id node}, forest.get? id = some node → Grounded forest id

theorem linked_empty : Linked .empty := by
  constructor <;> intros <;> simp_all [Forest.empty, Forest.get?]

variable {forest : Forest} {parent other child id : NodeId}

theorem holds_of_argument? {node : Node} {param : String} (hn : forest.get? id = some node)
    (ha : node.argument? param = some child) : forest.Holds id child :=
  ⟨node, hn, Node.mem_children.mpr ⟨_, Node.mem_of_argument? ha, rfl⟩⟩

theorem ne_of_not_below (h : ¬ forest.Below child parent) : parent ≠ child := by
  rintro rfl
  exact h .refl

namespace Linked

theorem holds_iff (h : Linked forest) :
    forest.Holds parent child ↔
      ∃ inner, forest.get? child = some inner ∧ inner.owner = .argument parent :=
  ⟨fun ⟨_, hn, hc⟩ => h.down hn hc, fun ⟨_, hi, ho⟩ => h.up hi ho⟩

/-- Nothing is held twice. -/
theorem holds_unique (h : Linked forest) (hp : forest.Holds parent child)
    (ho : forest.Holds other child) : parent = other := by
  obtain ⟨inner, hi, hip⟩ := h.holds_iff.mp hp
  obtain ⟨inner', hi', hio⟩ := h.holds_iff.mp ho
  rw [hi] at hi'
  cases hi'
  rw [hip] at hio
  exact Owner.argument.inj hio

theorem exists_of_holds (h : Linked forest) (hp : forest.Holds parent child) :
    ∃ inner, forest.get? child = some inner := by
  obtain ⟨inner, hi, _⟩ := h.holds_iff.mp hp
  exact ⟨inner, hi⟩

/-- What no slot holds is below nothing but itself. -/
theorem eq_of_below_root (h : Linked forest) {node : Node} (hid : forest.get? id = some node)
    (hroot : ∀ parent, node.owner ≠ .argument parent) (hb : forest.Below other id) :
    other = id := by
  rcases Relation.ReflTransGen.cases_tail hb with he | ⟨parent, _, hp⟩
  · exact he.symm
  · obtain ⟨inner, hi, ho⟩ := h.holds_iff.mp hp
    rw [hid] at hi
    cases hi
    exact absurd ho (hroot parent)

/-- **No node lies below one that it holds.** -/
theorem not_below_of_holds (h : Linked forest) (hp : forest.Holds parent child) :
    ¬ forest.Below child parent := by
  obtain ⟨node, hn, -⟩ := id hp
  -- along the way up from the parent, which ends
  have hg := h.grounded hn
  clear hn
  induction hg generalizing child with
  | root hid hroot =>
      intro hb
      have he := h.eq_of_below_root hid hroot hb
      subst he
      obtain ⟨inner, hi, ho⟩ := h.holds_iff.mp hp
      rw [hid] at hi
      cases hi
      exact hroot _ ho
  | @held id above node hid ho _ ih =>
      intro hb
      have hup : forest.Holds above id := h.up hid ho
      refine ih hup ?_
      rcases Relation.ReflTransGen.cases_tail hb with he | ⟨q, hbq, hq⟩
      · subst he
        rw [h.holds_unique hup hp]
        exact .refl
      · rw [h.holds_unique hup hq]
        exact .head hp hbq

/-- What holds a node that lies strictly below another lies below that other too. -/
theorem below_of_holds (h : Linked forest) (hb : forest.Below other child)
    (hp : forest.Holds parent child) : other = child ∨ forest.Below other parent := by
  rcases Relation.ReflTransGen.cases_tail hb with he | ⟨q, hq, hqc⟩
  · exact Or.inl he.symm
  · rw [h.holds_unique hp hqc]
    exact Or.inr hq

end Linked

/-! ## Walks that never come back -/

/--
What is to be shown of a walk with a bound may be shown one step at a time, once
the bound is no less than the number of nodes. The walk follows a relation that
leads to nodes only and never leads back.
-/
theorem walk_induction {R : NodeId → NodeId → Prop} {motive : Nat → NodeId → Prop}
    (hex : ∀ {x y}, R x y → ∃ node, forest.get? y = some node)
    (hback : ∀ {x y}, R x y → ¬ Relation.ReflTransGen R y x)
    (hstep : ∀ fuel x node, forest.get? x = some node → (∀ y, R x y → motive fuel y) →
      motive (fuel + 1) x) :
    ∀ {fuel x node}, forest.size ≤ fuel → forest.get? x = some node → motive fuel x := by
  -- the nodes seen so far are all different, so there cannot be more of them than nodes
  have key : ∀ fuel (seen : List NodeId) x node, seen.Nodup →
      (∀ s ∈ seen, (∃ node, forest.get? s = some node) ∧ Relation.TransGen R s x) →
      forest.size ≤ seen.length + fuel → forest.get? x = some node → motive fuel x := by
    intro fuel
    induction fuel with
    | zero =>
        intro seen x node hn hs hle hx
        have hnew : (x :: seen).Nodup := by
          refine List.nodup_cons.mpr ⟨fun hm => ?_, hn⟩
          obtain ⟨y, hy, hyx⟩ := Relation.TransGen.head'_iff.mp (hs x hm).2
          exact hback hy hyx
        have hlen : (x :: seen).length ≤ forest.size := length_le_size hnew (fun s hm => by
          rcases List.mem_cons.mp hm with he | hm
          · exact ⟨node, he ▸ hx⟩
          · exact (hs s hm).1)
        simp only [List.length_cons] at hlen
        omega
    | succ fuel ih =>
        intro seen x node hn hs hle hx
        refine hstep fuel x node hx fun y hy => ?_
        obtain ⟨inner, hi⟩ := hex hy
        refine ih (x :: seen) y inner ?_ ?_ ?_ hi
        · refine List.nodup_cons.mpr ⟨fun hm => ?_, hn⟩
          obtain ⟨z, hz, hzx⟩ := Relation.TransGen.head'_iff.mp (hs x hm).2
          exact hback hz hzx
        · intro s hm
          rcases List.mem_cons.mp hm with he | hm
          · exact ⟨⟨node, he ▸ hx⟩, he ▸ .single hy⟩
          · exact ⟨(hs s hm).1, (hs s hm).2.tail hy⟩
        · simp only [List.length_cons]
          omega
  intro fuel x node hle hx
  exact key fuel [] x node List.nodup_nil (by simp) (by simpa using hle) hx

/-- Walking down through the slots. -/
theorem Linked.descend (h : Linked forest) {motive : Nat → NodeId → Prop}
    (hstep : ∀ fuel x node, forest.get? x = some node → (∀ c ∈ node.children, motive fuel c) →
      motive (fuel + 1) x) {fuel : Nat} {node : Node} (hle : forest.size ≤ fuel)
    (hid : forest.get? id = some node) : motive fuel id :=
  walk_induction (R := forest.Holds) h.exists_of_holds h.not_below_of_holds
    (fun fuel x node hx ih => hstep fuel x node hx fun c hc => ih c ⟨node, hx, hc⟩) hle hid

/-- Walking up along the owners. -/
theorem Linked.ascend (h : Linked forest) {motive : Nat → NodeId → Prop}
    (hstep : ∀ fuel x node, forest.get? x = some node →
      (∀ parent, node.owner = .argument parent → motive fuel parent) → motive (fuel + 1) x)
    {fuel : Nat} {node : Node} (hle : forest.size ≤ fuel)
    (hid : forest.get? id = some node) : motive fuel id := by
  refine walk_induction (R := fun x y => forest.Holds y x) ?_ ?_ ?_ hle hid
  · rintro x y ⟨node, hy, _⟩
    exact ⟨node, hy⟩
  · intro x y hy hb
    exact h.not_below_of_holds hy (Relation.reflTransGen_swap.mp hb)
  · intro fuel x node hx ih
    exact hstep fuel x node hx fun parent ho => ih parent (h.up hx ho)

/-! ## The nodes above a node -/

theorem below_of_mem_climb (h : Linked forest) :
    ∀ {fuel : Nat} {id : NodeId}, other ∈ forest.climb fuel id → forest.Below other id := by
  intro fuel
  induction fuel with
  | zero => intro id hm; simp [climb] at hm
  | succ fuel ih =>
      intro id hm
      rw [climb] at hm
      split at hm
      · rename_i parent ho
        obtain ⟨node, hn, hno⟩ := Option.map_eq_some_iff.mp ho
        rcases List.mem_cons.mp hm with he | hm
        · exact he ▸ .refl
        · exact (ih hm).tail (h.up hn hno)
      · rw [List.mem_singleton.mp hm]
        exact .refl

/-- **The lineage of a node is made of the nodes that it is below.** -/
theorem mem_lineage (h : Linked forest) {node : Node} (hid : forest.get? id = some node) :
    other ∈ forest.lineage id ↔ forest.Below other id := by
  refine ⟨below_of_mem_climb h, ?_⟩
  refine h.ascend (motive := fun fuel x => forest.Below other x → other ∈ forest.climb fuel x)
    ?_ (Nat.le_succ _) hid
  intro fuel x node hx ih hb
  rw [climb, hx, Option.map_some]
  rcases Relation.ReflTransGen.cases_tail hb with he | ⟨q, hbq, hq⟩
  · subst he
    split <;> exact List.mem_cons_self
  · obtain ⟨inner, hi, ho⟩ := h.holds_iff.mp hq
    rw [hx] at hi
    cases hi
    rw [ho]
    exact List.mem_cons_of_mem _ (ih q ho hbq)

/-- A node is in its own lineage. -/
theorem ne_of_not_mem_lineage (h : Linked forest) {node : Node}
    (hid : forest.get? id = some node) (hn : other ∉ forest.lineage id) : id ≠ other := by
  rintro rfl
  exact hn ((mem_lineage h hid).mpr .refl)

/-- The lineage of a node ends at one that no slot holds. -/
theorem lineage_ends (h : Linked forest) {node : Node} (hid : forest.get? id = some node) :
    ∃ top root, (forest.lineage id).getLast? = some top ∧ forest.get? top = some root ∧
      ∀ parent, root.owner ≠ .argument parent := by
  refine h.ascend
    (motive := fun fuel x => ∃ top root, (forest.climb fuel x).getLast? = some top ∧
      forest.get? top = some root ∧ ∀ parent, root.owner ≠ .argument parent)
    ?_ (Nat.le_succ _) hid
  intro fuel x node hx ih
  rw [climb, hx, Option.map_some]
  cases ho : node.owner with
  | argument parent =>
      obtain ⟨top, root, hl, hr⟩ := ih parent ho
      refine ⟨top, root, ?_, hr⟩
      show (x :: forest.climb fuel parent).getLast? = some top
      rw [List.getLast?_cons, hl]
      rfl
  | detached => exact ⟨x, node, rfl, hx, by simp [ho]⟩
  | trigger t => exact ⟨x, node, rfl, hx, by simp [ho]⟩

end Forest

end Rulebook
