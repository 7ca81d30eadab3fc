/-!
# Attempts

A step that may fail and carries a state on. Success and failure both come
with the state that they leave behind: that a refused edit leaves everything
as it was is a fact to be proved, not a matter of how the step is typed.
-/

namespace Rulebook

/-- A step on a state `σ` that ends with an `α` or fails with an `ε`. -/
abbrev Attempt (ε σ α : Type) := ExceptT ε (StateM σ) α

namespace Attempt

variable {ε δ σ τ α : Type}

/-- The step that does what the function says. -/
def ofRun (f : σ → Except ε α × σ) : Attempt ε σ α := ExceptT.mk fun s => f s

/-- What the step ends with, and in which state. -/
def runOn (step : Attempt ε σ α) (s : σ) : Except ε α × σ := StateT.run (ExceptT.run step) s

/-- Renames the failures of a step. -/
def mapError (rename : ε → δ) (step : Attempt ε σ α) : Attempt δ σ α :=
  ofRun fun s =>
    let (result, after) := step.runOn s
    (result.mapError rename, after)

/-- Repairs the state if the step fails. -/
def onFailure (step : Attempt ε σ α) (repair : σ → σ) : Attempt ε σ α :=
  ofRun fun s =>
    match step.runOn s with
    | (.ok a, after) => (.ok a, after)
    | (.error e, after) => (.error e, repair after)

/-- A step on a part of a state, as a step on the whole. -/
def within (get : σ → τ) (put : τ → σ → σ) (step : Attempt ε τ α) : Attempt ε σ α :=
  ofRun fun s =>
    let (result, part) := step.runOn (get s)
    (result, put part s)

/-! ## What the parts of a step do

Steps are written with `do`; these say what such a step ends with, part by part. -/

@[simp] theorem runOn_ofRun (f : σ → Except ε α × σ) (s : σ) : (ofRun f).runOn s = f s := rfl

@[simp] theorem runOn_pure (a : α) (s : σ) :
    (pure a : Attempt ε σ α).runOn s = (.ok a, s) := rfl

@[simp] theorem runOn_throw (e : ε) (s : σ) :
    (throw e : Attempt ε σ α).runOn s = (.error e, s) := rfl

@[simp] theorem runOn_get (s : σ) : (get : Attempt ε σ σ).runOn s = (.ok s, s) := rfl

@[simp] theorem runOn_set (t s : σ) :
    (set t : Attempt ε σ PUnit).runOn s = (.ok (), t) := rfl

@[simp] theorem runOn_modify (f : σ → σ) (s : σ) :
    (modify f : Attempt ε σ PUnit).runOn s = (.ok (), f s) := rfl

theorem runOn_bind {β : Type} (step : Attempt ε σ α) (next : α → Attempt ε σ β) (s : σ) :
    (step >>= next).runOn s =
      match step.runOn s with
      | (.ok a, after) => (next a).runOn after
      | (.error e, after) => (.error e, after) := by
  show StateT.run (ExceptT.run (step >>= next)) s = _
  rw [ExceptT.run_bind, StateT.run_bind]
  cases h : StateT.run (ExceptT.run step) s with
  | mk result after => cases result <;> simp [runOn, h] <;> rfl

@[simp] theorem runOn_check (result : Except ε α) (s : σ) :
    (liftM result : Attempt ε σ α).runOn s = (result, s) := by
  cases result <;> rfl

theorem runOn_mapError (rename : ε → δ) (step : Attempt ε σ α) (s : σ) :
    (step.mapError rename).runOn s = ((step.runOn s).1.mapError rename, (step.runOn s).2) := rfl

theorem runOn_onFailure (step : Attempt ε σ α) (repair : σ → σ) (s : σ) :
    (step.onFailure repair).runOn s =
      match step.runOn s with
      | (.ok a, after) => (.ok a, after)
      | (.error e, after) => (.error e, repair after) := rfl

theorem runOn_within (get : σ → τ) (put : τ → σ → σ) (step : Attempt ε τ α) (s : σ) :
    (step.within get put).runOn s =
      ((step.runOn (get s)).1, put (step.runOn (get s)).2 s) := rfl

end Attempt

end Rulebook
