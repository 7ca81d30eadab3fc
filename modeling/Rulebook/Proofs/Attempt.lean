import Mathlib.Data.List.Forall2
import Rulebook.Attempt

/-!
# Taking an attempt apart

What a step of several parts ends with was said in `Rulebook.Attempt`, as an
equation. Proofs more often have the end and ask for the way there, so here the
same facts are read backwards: a step that succeeded did so through each of its
parts, one after the other.

A step that checks everything before it acts has nothing to undo when it fails;
`Spares` says so, and is shown along the shape of the step. `Keeps` is for the
others. An invariant has to survive a step whichever way the step ends, and that
question is answered part by part as well. `Ends` is about the outcome instead of
the state: what a step can end with, and for what reasons it can fail. `Parallel`
and `Continues` compare two steps that are begun in the same state, and `Mirrors`
two steps whose states and faults differ in a way that can be said.
-/

namespace Rulebook

/-! ## Checks that passed -/

namespace Check

variable {ε α β : Type}

theorem bind_ok {check : Except ε α} {next : α → Except ε β} {b : β} :
    (check >>= next) = .ok b ↔ ∃ a, check = .ok a ∧ next a = .ok b := by
  cases check <;> simp [bind, Except.bind]

theorem then_ok {check : Except ε PUnit} {next : Except ε β} {b : β} :
    (check >>= fun _ => next) = .ok b ↔ check = .ok () ∧ next = .ok b := by
  cases check <;> simp [bind, Except.bind]

theorem pure_ok {a b : α} : (pure a : Except ε α) = .ok b ↔ a = b := by
  simp [pure, Except.pure]

theorem throw_ok {e : ε} {a : α} : (throw e : Except ε α) = .ok a ↔ False := by
  simp [throw, throwThe, MonadExceptOf.throw]

theorem ite_ok {p : Prop} [Decidable p] {yes no : Except ε α} {a : α} :
    (if p then yes else no) = .ok a ↔ (p ∧ yes = .ok a) ∨ (¬ p ∧ no = .ok a) := by
  split <;> simp_all

theorem mapError_ok {δ : Type} {rename : ε → δ} {check : Except ε α} {a : α} :
    check.mapError rename = .ok a ↔ check = .ok a := by
  cases check <;> simp [Except.mapError]

/-- A list is gone through if every entry of it passes. -/
theorem mapM_ok {f : α → Except ε β} {as : List α} :
    ∀ {bs : List β}, as.mapM f = .ok bs ↔ List.Forall₂ (fun a b => f a = .ok b) as bs := by
  induction as with
  | nil =>
      intro bs
      rw [List.mapM_nil, List.forall₂_nil_left_iff, pure_ok, eq_comm]
  | cons a rest ih =>
      intro bs
      rw [List.mapM_cons, List.forall₂_cons_left_iff, bind_ok]
      constructor
      · intro hx
        obtain ⟨b, hb, h⟩ := hx
        obtain ⟨others, ho, he⟩ := bind_ok.mp h
        exact ⟨b, others, hb, ih.mp ho, (pure_ok.mp he).symm⟩
      · intro hx
        obtain ⟨b, others, hb, ho, rfl⟩ := hx
        exact ⟨b, hb, bind_ok.mpr ⟨others, ih.mpr ho, rfl⟩⟩

theorem bind_error {check : Except ε α} {next : α → Except ε β} {e : ε} :
    (check >>= next) = .error e ↔ check = .error e ∨ ∃ a, check = .ok a ∧ next a = .error e := by
  cases check <;> simp [Bind.bind, Except.bind]

/-- A list is not gone through because of one of its entries. -/
theorem exists_of_mapM_error {f : α → Except ε β} {e : ε} {as : List α} :
    as.mapM f = .error e → ∃ a ∈ as, f a = .error e := by
  induction as with
  | nil => exact fun h => absurd h (by simp [Pure.pure, Except.pure])
  | cons a rest ih =>
      intro h
      rw [List.mapM_cons, bind_error] at h
      rcases h with hfirst | ⟨_, _, h⟩
      · exact ⟨a, List.mem_cons_self, hfirst⟩
      · rcases bind_error.mp h with hrest | ⟨_, _, hpure⟩
        · obtain ⟨other, ho, hother⟩ := ih hrest
          exact ⟨other, List.mem_cons_of_mem _ ho, hother⟩
        · exact absurd hpure (by simp [Pure.pure, Except.pure])

/-- What the check yields satisfies `P`, and what it complains of satisfies `E`. -/
def Ends (P : α → Prop) (E : ε → Prop) : Except ε α → Prop
  | .ok a => P a
  | .error e => E e

theorem Ends.mono {P P' : α → Prop} {E E' : ε → Prop} {check : Except ε α} (h : Ends P E check)
    (hP : ∀ a, P a → P' a) (hE : ∀ e, E e → E' e) : Ends P' E' check := by
  cases check with
  | ok a => exact hP a h
  | error e => exact hE e h

/-- Both checks yield the same, or complain of things that go together. -/
inductive Agree (E : ε → ε → Prop) : Except ε α → Except ε α → Prop where
  | ok (a : α) : Agree E (.ok a) (.ok a)
  | error {e e' : ε} : E e e' → Agree E (.error e) (.error e')

theorem Agree.mono {E E' : ε → ε → Prop} {check twin : Except ε α} (h : Agree E check twin)
    (hE : ∀ e e', E e e' → E' e e') : Agree E' check twin := by
  cases h with
  | ok a => exact .ok a
  | error he => exact .error (hE _ _ he)

/-- The other check yields and complains of what this one does, under other names. -/
def Mirrors {δ : Type} (yields : α → β) (rename : ε → δ) (check : Except ε α)
    (twin : Except δ β) : Prop :=
  twin = (check.map yields).mapError rename

namespace Mirrors

variable {δ α' β' : Type} {yields : α → α'} {yields' : β → β'} {rename : ε → δ}

/-- A check whose complaint is worded in two ways. -/
theorem worded {ε' : Type} (check : Except ε' α) {word : ε' → ε} {word' : ε' → δ}
    (h : ∀ e, word' e = rename (word e)) :
    Mirrors id rename (check.mapError word) (check.mapError word') := by
  cases check with
  | ok a => rfl
  | error e => exact congrArg Except.error (h e)

theorem bind {check : Except ε α} {twin : Except δ α'} {next : α → Except ε β}
    {next' : α' → Except δ β'} (hs : Mirrors yields rename check twin)
    (hn : ∀ a, Mirrors yields' rename (next a) (next' (yields a))) :
    Mirrors yields' rename (check >>= next) (twin >>= next') := by
  cases hs
  cases check with
  | ok a => exact hn a
  | error e => rfl

theorem mapM {f : α → Except ε β} {f' : α' → Except δ β'}
    (h : ∀ a, Mirrors yields' rename (f a) (f' (yields a))) (as : List α) :
    Mirrors (List.map yields') rename (as.mapM f) ((as.map yields).mapM f') := by
  induction as with
  | nil => rfl
  | cons a rest ih =>
      rw [List.map_cons, List.mapM_cons, List.mapM_cons]
      exact .bind (h a) fun _ => .bind ih fun _ => rfl

end Mirrors

end Check

namespace Attempt

variable {ε δ σ τ α β : Type}

/-! ## A step that succeeded -/

theorem bind_ok {step : Attempt ε σ α} {next : α → Attempt ε σ β} {s t : σ} {b : β} :
    (step >>= next).runOn s = (.ok b, t) ↔
      ∃ a u, step.runOn s = (.ok a, u) ∧ (next a).runOn u = (.ok b, t) := by
  rw [runOn_bind]
  constructor
  · intro h
    split at h
    · rename_i a u hs
      exact ⟨a, u, hs, h⟩
    · -- the first part failed, so the whole did
      exact absurd (congrArg Prod.fst h) (by simp)
  · intro hx
    obtain ⟨a, u, hs, hn⟩ := hx
    rw [hs]
    exact hn

theorem pure_ok {a b : α} {s t : σ} :
    (pure a : Attempt ε σ α).runOn s = (.ok b, t) ↔ a = b ∧ s = t := by
  rw [runOn_pure, Prod.mk.injEq, Except.ok.injEq]

theorem check_ok {result : Except ε α} {a : α} {s t : σ} :
    (liftM result : Attempt ε σ α).runOn s = (.ok a, t) ↔ result = .ok a ∧ s = t := by
  rw [runOn_check, Prod.mk.injEq]

/-- A check before the rest has passed, and has left the state as it is. -/
theorem checked_ok {result : Except ε α} {next : α → Attempt ε σ β} {b : β} {s t : σ} :
    ((liftM result : Attempt ε σ α) >>= next).runOn s = (.ok b, t) ↔
      ∃ a, result = .ok a ∧ (next a).runOn s = (.ok b, t) := by
  rw [bind_ok]
  constructor
  · rintro ⟨a, _, hcheck, hnext⟩
    obtain ⟨hresult, rfl⟩ := check_ok.mp hcheck
    exact ⟨a, hresult, hnext⟩
  · rintro ⟨a, hresult, hnext⟩
    exact ⟨a, s, check_ok.mpr ⟨hresult, rfl⟩, hnext⟩

theorem modify_ok {f : σ → σ} {s t : σ} :
    (modify f : Attempt ε σ PUnit).runOn s = (.ok (), t) ↔ t = f s := by
  rw [runOn_modify, Prod.mk.injEq]
  exact (and_iff_right rfl).trans eq_comm

theorem mapError_ok {rename : ε → δ} {step : Attempt ε σ α} {a : α} {s t : σ} :
    (step.mapError rename).runOn s = (.ok a, t) ↔ step.runOn s = (.ok a, t) := by
  rw [runOn_mapError, Prod.mk.injEq]
  cases h : step.runOn s with
  | mk result after => cases result <;> simp [Except.mapError]

/-- A step whose outcome is known has led somewhere. -/
theorem exists_after {step : Attempt ε σ α} {s : σ} {a : α} (h : (step.runOn s).1 = .ok a) :
    ∃ t, step.runOn s = (.ok a, t) := ⟨(step.runOn s).2, by rw [← h]⟩

theorem onFailure_ok {step : Attempt ε σ α} {repair : σ → σ} {a : α} {s t : σ} :
    (step.onFailure repair).runOn s = (.ok a, t) ↔ step.runOn s = (.ok a, t) := by
  rw [runOn_onFailure]
  cases h : step.runOn s with
  | mk result after => cases result <;> simp

theorem onFailure_error {step : Attempt ε σ α} {repair : σ → σ} {e : ε} {s t : σ} :
    (step.onFailure repair).runOn s = (.error e, t) ↔
      ∃ u, step.runOn s = (.error e, u) ∧ repair u = t := by
  rw [runOn_onFailure]
  cases h : step.runOn s with
  | mk result after => cases result <;> simp [and_assoc]

/-- A step of two parts failed in the first, or in the second after the first. -/
theorem bind_error {step : Attempt ε σ α} {next : α → Attempt ε σ β} {e : ε} {s t : σ} :
    (step >>= next).runOn s = (.error e, t) ↔
      step.runOn s = (.error e, t) ∨
        ∃ a u, step.runOn s = (.ok a, u) ∧ (next a).runOn u = (.error e, t) := by
  rw [runOn_bind]
  cases hr : step.runOn s with
  | mk result u => cases result <;> simp

theorem check_error {result : Except ε α} {e : ε} {s t : σ} :
    (liftM result : Attempt ε σ α).runOn s = (.error e, t) ↔ result = .error e ∧ s = t := by
  rw [runOn_check, Prod.mk.injEq]

theorem runOn_ite {p : Prop} [Decidable p] (yes no : Attempt ε σ α) (s : σ) :
    (if p then yes else no).runOn s = if p then yes.runOn s else no.runOn s := by
  split <;> rfl

/-! ## A step that is gone through part by part -/

theorem runOn_get_bind {next : σ → Attempt ε σ β} (s : σ) :
    (MonadState.get >>= next).runOn s = (next s).runOn s := rfl

/-- A check that passes is passed over. -/
theorem runOn_passed {result : Except ε α} {a : α} (h : result = .ok a)
    (next : α → Attempt ε σ β) (s : σ) :
    ((liftM result : Attempt ε σ α) >>= next).runOn s = (next a).runOn s := by
  rw [runOn_bind, runOn_check, h]

/-- A check that does not pass is where the step ends. -/
theorem runOn_refused {result : Except ε α} {e : ε} (h : result = .error e)
    (next : α → Attempt ε σ β) (s : σ) :
    ((liftM result : Attempt ε σ α) >>= next).runOn s = (.error e, s) := by
  rw [runOn_bind, runOn_check, h]

/-! ## What a step leaves behind -/

section After

variable {P : σ → Prop} {s : σ}

/-- The first part leaves what is left if it fails, and the second part otherwise. -/
theorem bind_after {step : Attempt ε σ α} {next : α → Attempt ε σ β}
    (hok : ∀ a t, step.runOn s = (.ok a, t) → P ((next a).runOn t).2)
    (herror : ∀ e t, step.runOn s = (.error e, t) → P t) : P ((step >>= next).runOn s).2 := by
  rw [runOn_bind]
  cases hr : step.runOn s with
  | mk result t =>
      cases result with
      | ok a => exact hok a t hr
      | error e => exact herror e t hr

theorem get_after {next : σ → Attempt ε σ β} (h : P ((next s).runOn s).2) :
    P ((MonadState.get >>= next).runOn s).2 := h

theorem checked_after {result : Except ε α} {next : α → Attempt ε σ β} (hs : P s)
    (hok : ∀ a, result = .ok a → P ((next a).runOn s).2) :
    P ((liftM result >>= next).runOn s).2 := by
  rw [runOn_bind, runOn_check]
  cases result with
  | ok a => exact hok a rfl
  | error e => exact hs

theorem onFailure_after {step : Attempt ε σ α} {repair : σ → σ}
    (hok : ∀ a t, step.runOn s = (.ok a, t) → P t)
    (herror : ∀ e t, step.runOn s = (.error e, t) → P (repair t)) :
    P ((step.onFailure repair).runOn s).2 := by
  rw [runOn_onFailure]
  cases hr : step.runOn s with
  | mk result t =>
      cases result with
      | ok a => exact hok a t hr
      | error e => exact herror e t hr

end After

/-! ## Steps that check before they act -/

/-- The step cannot fail. -/
def Sure (step : Attempt ε σ α) : Prop := ∀ s, ∃ a t, step.runOn s = (.ok a, t)

namespace Sure

theorem pure (a : α) : Sure (Pure.pure a : Attempt ε σ α) := fun s => ⟨a, s, rfl⟩

theorem set (t : σ) : Sure (MonadStateOf.set t : Attempt ε σ PUnit) := fun _ => ⟨(), t, rfl⟩

theorem modify (f : σ → σ) : Sure (modifyThe σ f : Attempt ε σ PUnit) := fun s => ⟨(), f s, rfl⟩

theorem bind {step : Attempt ε σ α} {next : α → Attempt ε σ β} (hs : Sure step)
    (hn : ∀ a, Sure (next a)) : Sure (step >>= next) := by
  intro s
  obtain ⟨a, u, hstep⟩ := hs s
  obtain ⟨b, t, hnext⟩ := hn a u
  exact ⟨b, t, bind_ok.mpr ⟨a, u, hstep, hnext⟩⟩

end Sure

/-- The step leaves things alone when it fails. -/
def Spares (step : Attempt ε σ α) : Prop := ∀ s e t, step.runOn s = (.error e, t) → t = s

theorem Sure.spares {step : Attempt ε σ α} (h : Sure step) : Spares step := by
  intro s e t herror
  obtain ⟨a, u, hok⟩ := h s
  rw [hok] at herror
  exact absurd (congrArg Prod.fst herror) (by simp)

namespace Spares

theorem throw (e : ε) : Spares (MonadExcept.throw e : Attempt ε σ α) := by
  intro s _ t h
  exact (congrArg Prod.snd h).symm

theorem throw_bind (e : ε) (next : α → Attempt ε σ β) : Spares (MonadExcept.throw e >>= next) := by
  intro s _ t h
  exact (congrArg Prod.snd h).symm

/-- Looking at the state does not change it. -/
theorem get {next : σ → Attempt ε σ β} (h : ∀ s, Spares (next s)) :
    Spares (MonadState.get >>= next) := by
  intro s e t hrun
  exact h s s e t hrun

/-- Nor does a check, whether it passes or not. -/
theorem checked {result : Except ε α} {next : α → Attempt ε σ β}
    (h : ∀ a, result = .ok a → Spares (next a)) : Spares (liftM result >>= next) := by
  intro s e t hrun
  rw [runOn_bind, runOn_check] at hrun
  cases result with
  | ok a => exact h a rfl s e t hrun
  | error _ => exact (congrArg Prod.snd hrun).symm

theorem ite {p : Prop} [Decidable p] {yes no : Attempt ε σ α} (hy : Spares yes)
    (hn : Spares no) : Spares (if p then yes else no) := by
  split
  · exact hy
  · exact hn

/-- What follows a step that spares things may do what it likes, if it cannot fail. -/
theorem bind {step : Attempt ε σ α} {next : α → Attempt ε σ β} (hs : Spares step)
    (hn : ∀ a, Sure (next a)) : Spares (step >>= next) := by
  intro s e t hrun
  rcases bind_error.mp hrun with hstep | ⟨a, u, _, hnext⟩
  · exact hs s e t hstep
  · obtain ⟨b, v, hok⟩ := hn a u
    rw [hok] at hnext
    exact absurd (congrArg Prod.fst hnext) (by simp)

/-- What holds before a step and after its success holds after it in any case. -/
theorem after {P : σ → Prop} {step : Attempt ε σ α} (h : Spares step) {s : σ} (hs : P s)
    (hok : ∀ a t, step.runOn s = (.ok a, t) → P t) : P (step.runOn s).2 := by
  cases hr : step.runOn s with
  | mk result t =>
      cases result with
      | ok a => exact hok a t hr
      | error e =>
          rw [h s e t hr]
          exact hs

end Spares

/-! ## Properties that a step keeps -/

/-- The step leaves the property standing, whether it succeeds or fails. -/
def Keeps (P : σ → Prop) (step : Attempt ε σ α) : Prop := ∀ s, P s → P (step.runOn s).2

namespace Keeps

variable {P : σ → Prop}

theorem pure (a : α) : Keeps P (Pure.pure a : Attempt ε σ α) := fun _ h => h

theorem throw (e : ε) : Keeps P (MonadExcept.throw e : Attempt ε σ α) := fun _ h => h

theorem get : Keeps P (MonadState.get : Attempt ε σ σ) := fun _ h => h

theorem check (result : Except ε α) : Keeps P (liftM result : Attempt ε σ α) := fun s h => by
  rw [runOn_check]
  exact h

/-- A check that is followed by a step may as well have succeeded. -/
theorem checked {result : Except ε α} {next : α → Attempt ε σ β}
    (hn : ∀ a, result = .ok a → Keeps P (next a)) : Keeps P (liftM result >>= next) :=
  fun s h => checked_after h fun a ha => hn a ha s h

theorem modify {f : σ → σ} (hf : ∀ s, P s → P (f s)) :
    Keeps P (modifyThe σ f : Attempt ε σ PUnit) := hf

/-- What the first part has brought about, the second keeps. -/
theorem after {step : Attempt ε σ α} {next : α → Attempt ε σ β} {s : σ} (hs : P (step.runOn s).2)
    (hn : ∀ a, Keeps P (next a)) : P ((step >>= next).runOn s).2 := by
  refine bind_after (fun a t hr => ?_) fun e t hr => ?_
  · rw [hr] at hs
    exact hn a t hs
  · rw [hr] at hs
    exact hs

theorem bind {step : Attempt ε σ α} {next : α → Attempt ε σ β} (hs : Keeps P step)
    (hn : ∀ a, Keeps P (next a)) : Keeps P (step >>= next) := fun s h => after (hs s h) hn

theorem ite {p : Prop} [Decidable p] {yes no : Attempt ε σ α} (hy : Keeps P yes)
    (hn : Keeps P no) : Keeps P (if p then yes else no) := by
  split
  · exact hy
  · exact hn

theorem mapError {step : Attempt ε σ α} (rename : ε → δ) (h : Keeps P step) :
    Keeps P (step.mapError rename) := fun s hs => by
  rw [runOn_mapError]
  exact h s hs

end Keeps

/-! ## What a step ends with -/

/-- In whatever state the step begins, what it ends with satisfies `P`, and what it fails with
satisfies `E`. -/
def Ends (P : α → Prop) (E : ε → Prop) (step : Attempt ε σ α) : Prop :=
  ∀ s, Check.Ends P E (step.runOn s).1

namespace Ends

variable {P : α → Prop} {Q : β → Prop} {E : ε → Prop}

theorem pure {a : α} (h : P a) : Ends P E (Pure.pure a : Attempt ε σ α) := fun _ => h

theorem throw {e : ε} (h : E e) : Ends P E (MonadExcept.throw e : Attempt ε σ α) := fun _ => h

theorem check {result : Except ε α} (h : Check.Ends P E result) :
    Ends P E (liftM result : Attempt ε σ α) := fun s => by
  rw [runOn_check]
  exact h

theorem get {next : σ → Attempt ε σ β} (h : ∀ s, Ends Q E (next s)) :
    Ends Q E (MonadState.get >>= next) := fun s => h s s

theorem bind {step : Attempt ε σ α} {next : α → Attempt ε σ β} (hs : Ends P E step)
    (hn : ∀ a, P a → Ends Q E (next a)) : Ends Q E (step >>= next) := by
  intro s
  have hfirst := hs s
  rw [runOn_bind]
  cases hr : step.runOn s with
  | mk result t =>
      rw [hr] at hfirst
      cases result with
      | ok a => exact hn a hfirst t
      | error e => exact hfirst

theorem mono {step : Attempt ε σ α} {P' : α → Prop} {E' : ε → Prop} (h : Ends P E step)
    (hP : ∀ a, P a → P' a) (hE : ∀ e, E e → E' e) : Ends P' E' step := fun s => (h s).mono hP hE

end Ends

/-- What follows a step has to keep the property only for what the step can end with. -/
theorem Keeps.bind_ends {P : σ → Prop} {Q : α → Prop} {E : ε → Prop} {step : Attempt ε σ α}
    {next : α → Attempt ε σ β} (hs : Keeps P step) (he : Ends Q E step)
    (hn : ∀ a, Q a → Keeps P (next a)) : Keeps P (step >>= next) := by
  intro s h
  have hkept := hs s h
  have hended := he s
  refine bind_after (fun a t hr => ?_) fun e t hr => ?_
  · rw [hr] at hkept hended
    exact hn a hended t hkept
  · rw [hr] at hkept
    exact hkept

/-! ## Two steps side by side -/

/-- Begun in the same state, the two steps end alike and leave the same state behind. -/
def Parallel (E : ε → ε → Prop) (step twin : Attempt ε σ α) : Prop :=
  ∀ s, Check.Agree E (step.runOn s).1 (twin.runOn s).1 ∧ (step.runOn s).2 = (twin.runOn s).2

namespace Parallel

variable {E : ε → ε → Prop}

theorem pure (a : α) : Parallel E (Pure.pure a : Attempt ε σ α) (Pure.pure a) :=
  fun _ => ⟨.ok a, rfl⟩

theorem throw {e e' : ε} (h : E e e') :
    Parallel E (MonadExcept.throw e : Attempt ε σ α) (MonadExcept.throw e') :=
  fun _ => ⟨.error h, rfl⟩

theorem check {result twin : Except ε α} (h : Check.Agree E result twin) :
    Parallel E (liftM result : Attempt ε σ α) (liftM twin) := fun s => by
  rw [runOn_check, runOn_check]
  exact ⟨h, rfl⟩

theorem get {next next' : σ → Attempt ε σ β} (h : ∀ s, Parallel E (next s) (next' s)) :
    Parallel E (MonadState.get >>= next) (MonadState.get >>= next') := fun s => h s s

theorem bind {step twin : Attempt ε σ α} {next next' : α → Attempt ε σ β}
    (hs : Parallel E step twin) (hn : ∀ a, Parallel E (next a) (next' a)) :
    Parallel E (step >>= next) (twin >>= next') := by
  intro s
  have hfirst := hs s
  rw [runOn_bind, runOn_bind]
  cases hr : step.runOn s with
  | mk result t =>
      cases hr' : twin.runOn s with
      | mk result' t' =>
          rw [hr, hr'] at hfirst
          obtain ⟨hagree, hsame⟩ := hfirst
          cases hsame
          cases hagree with
          | ok a => exact hn a t
          | error he => exact ⟨.error he, rfl⟩

theorem mono {step twin : Attempt ε σ α} {E' : ε → ε → Prop} (h : Parallel E step twin)
    (hE : ∀ e e', E e e' → E' e e') : Parallel E' step twin :=
  fun s => ⟨(h s).1.mono hE, (h s).2⟩

end Parallel

/-- The other step does what this one does, in a state of the other kind and with other names for
the faults. -/
def Mirrors (view : σ → τ) (rename : ε → δ) (step : Attempt ε σ α) (twin : Attempt δ τ α) : Prop :=
  ∀ s, twin.runOn (view s) = ((step.runOn s).1.mapError rename, view (step.runOn s).2)

namespace Mirrors

variable {view : σ → τ} {rename : ε → δ}

theorem pure (a : α) :
    Mirrors view rename (Pure.pure a : Attempt ε σ α) (Pure.pure a) := fun _ => rfl

theorem throw (e : ε) : Mirrors view rename (MonadExcept.throw e : Attempt ε σ α)
    (MonadExcept.throw (rename e)) := fun _ => rfl

theorem get {next : σ → Attempt ε σ β} {next' : τ → Attempt δ τ β}
    (h : ∀ s, Mirrors view rename (next s) (next' (view s))) :
    Mirrors view rename (MonadState.get >>= next) (MonadState.get >>= next') := fun s => h s s

theorem modify {f : σ → σ} {f' : τ → τ} (h : ∀ s, f' (view s) = view (f s)) :
    Mirrors view rename (modifyThe σ f : Attempt ε σ PUnit) (modifyThe τ f') :=
  fun s => congrArg (Prod.mk (Except.ok ())) (h s)

theorem bind {step : Attempt ε σ α} {twin : Attempt δ τ α} {next : α → Attempt ε σ β}
    {next' : α → Attempt δ τ β} (hs : Mirrors view rename step twin)
    (hn : ∀ a, Mirrors view rename (next a) (next' a)) :
    Mirrors view rename (step >>= next) (twin >>= next') := by
  intro s
  rw [runOn_bind, runOn_bind, hs s]
  cases step.runOn s with
  | mk result t =>
      cases result with
      | ok a => exact hn a t
      | error e => rfl

/-- The checks may also yield different things, if what follows treats them alike. -/
theorem checked {α' : Type} {yields : α → α'} {result : Except ε α} {twin : Except δ α'}
    {next : α → Attempt ε σ β} {next' : α' → Attempt δ τ β}
    (h : Check.Mirrors yields rename result twin)
    (hn : ∀ a, Mirrors view rename (next a) (next' (yields a))) :
    Mirrors view rename (liftM result >>= next) (liftM twin >>= next') := by
  intro s
  cases h
  rw [runOn_bind, runOn_bind, runOn_check, runOn_check]
  cases result with
  | ok a => exact hn a s
  | error e => rfl

theorem ite {p : Prop} [Decidable p] {yes no : Attempt ε σ α} {yes' no' : Attempt δ τ α}
    (hy : Mirrors view rename yes yes') (hn : Mirrors view rename no no') :
    Mirrors view rename (if p then yes else no) (if p then yes' else no') := by
  split
  · exact hy
  · exact hn

theorem mapError {ε' δ' : Type} {step : Attempt ε σ α} {twin : Attempt δ τ α} {outer : ε → ε'}
    {outer' : δ → δ'} {rename' : ε' → δ'} (h : Mirrors view rename step twin)
    (hr : ∀ e, outer' (rename e) = rename' (outer e)) :
    Mirrors view rename' (step.mapError outer) (twin.mapError outer') := by
  intro s
  rw [runOn_mapError, runOn_mapError, h s]
  cases step.runOn s with
  | mk result t =>
      cases result with
      | ok a => rfl
      | error e => exact congrArg (fun e => (Except.error e, view t)) (hr e)

theorem onFailure {step : Attempt ε σ α} {twin : Attempt δ τ α} {repair : σ → σ} {repair' : τ → τ}
    (h : Mirrors view rename step twin) (hr : ∀ s, repair' (view s) = view (repair s)) :
    Mirrors view rename (step.onFailure repair) (twin.onFailure repair') := by
  intro s
  rw [runOn_onFailure, runOn_onFailure, h s]
  cases step.runOn s with
  | mk result t =>
      cases result with
      | ok a => rfl
      | error e => exact congrArg (Prod.mk _) (hr t)

end Mirrors

/-- Begun in the same state, the other step does the same, unless the first fails with an `E`. -/
def Continues (E : ε → Prop) (step twin : Attempt ε σ α) : Prop :=
  ∀ s, (∀ e, E e → (step.runOn s).1 ≠ .error e) → twin.runOn s = step.runOn s

namespace Continues

variable {E : ε → Prop}

theorem refl (step : Attempt ε σ α) : Continues E step step := fun _ _ => rfl

/-- A step that fails with an `E` promises nothing. -/
theorem of_fails {step twin : Attempt ε σ α} (h : ∀ s, ∃ e, E e ∧ (step.runOn s).1 = .error e) :
    Continues E step twin := by
  intro s hnot
  obtain ⟨e, he, hfails⟩ := h s
  exact absurd hfails (hnot e he)

theorem bind {step twin : Attempt ε σ α} {next next' : α → Attempt ε σ β}
    (hs : Continues E step twin) (hn : ∀ a, Continues E (next a) (next' a)) :
    Continues E (step >>= next) (twin >>= next') := by
  intro s hnot
  have hfirst := hs s
  rw [runOn_bind] at hnot
  rw [runOn_bind, runOn_bind]
  cases hr : step.runOn s with
  | mk result t =>
      rw [hr] at hnot hfirst
      cases result with
      | ok a =>
          rw [hfirst fun _ _ he => by cases he]
          exact hn a t hnot
      | error e =>
          rw [hfirst fun _ he hfails => hnot _ he (by cases hfails; rfl)]

end Continues

end Attempt

end Rulebook
