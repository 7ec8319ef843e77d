/-!
# Runs that leave a state behind

A run returns or fails, and either way it leaves a state behind. `after` is that
state, and `Moves R` says that it is related to the state before by `R`, on
whatever exit. A relation that is reflexive and transitive is `Sequential`: what
is put together from parts that move by it moves by it. `FailsOnly F` says how a
run may fail.
-/

namespace Stencil

variable {ε σ α β : Type} {R : σ → σ → Prop}

theorem bind_run (e : EStateM ε σ α) (f : α → EStateM ε σ β) (s : σ) :
    (e >>= f) s = match e s with
      | .ok a t => f a t
      | .error x t => .error x t := by
  cases h : e s <;> simp only [bind, EStateM.bind, h]

/-- A sequence whose first part returns. -/
theorem bind_of_ok {e : EStateM ε σ α} {f : α → EStateM ε σ β} {s t : σ} {a : α}
    (h : e s = .ok a t) : (e >>= f) s = f a t := by
  rw [bind_run, h]

/-- A sequence whose first part fails. -/
theorem bind_of_error {e : EStateM ε σ α} {f : α → EStateM ε σ β} {s t : σ} {x : ε}
    (h : e s = .error x t) : (e >>= f) s = .error x t := by
  rw [bind_run, h]

/-- A sequence that returns: its first part does, and the second part from there. -/
theorem bind_ok {e : EStateM ε σ α} {f : α → EStateM ε σ β} {s u : σ} {b : β}
    (h : (e >>= f) s = .ok b u) : ∃ a t, e s = .ok a t ∧ f a t = .ok b u := by
  rw [bind_run] at h
  cases he : e s with
  | ok a t =>
    rw [he] at h
    exact ⟨a, t, rfl, h⟩
  | error x t =>
    rw [he] at h
    cases h

theorem pure_run (a : α) (s : σ) : (pure a : EStateM ε σ α) s = .ok a s := rfl

theorem throw_run (x : ε) (s : σ) : (throw x : EStateM ε σ α) s = .error x s := rfl

theorem get_run (s : σ) : (get : EStateM ε σ σ) s = .ok s s := rfl

/-- The state that a run leaves behind, whether it returns or fails. -/
def after (e : EStateM ε σ α) (s : σ) : σ :=
  match e s with
  | .ok _ t => t
  | .error _ t => t

theorem after_of_ok {e : EStateM ε σ α} {s t : σ} {a : α} (h : e s = .ok a t) : after e s = t := by
  rw [after, h]

theorem after_of_error {e : EStateM ε σ α} {s t : σ} {x : ε} (h : e s = .error x t) :
    after e s = t := by
  rw [after, h]

theorem after_bind_of_ok {e : EStateM ε σ α} {f : α → EStateM ε σ β} {s t : σ} {a : α}
    (h : e s = .ok a t) : after (e >>= f) s = after (f a) t := by
  simp only [after, bind_run, h]

theorem after_bind_of_error {e : EStateM ε σ α} {f : α → EStateM ε σ β} {s t : σ} {x : ε}
    (h : e s = .error x t) : after (e >>= f) s = t := by
  simp only [after, bind_run, h]

/-- On whatever exit, the state before and the state after are related. -/
def Moves (R : σ → σ → Prop) (e : EStateM ε σ α) : Prop := ∀ s, R s (after e s)

/-- A relation that sequences of runs move by if their parts do. -/
structure Sequential (R : σ → σ → Prop) : Prop where
  refl (s : σ) : R s s
  trans {s t u : σ} : R s t → R t u → R s u

namespace Sequential

variable (S : Sequential R)

include S

/-- A sequence, from one state: the second part only has to be looked at where
the first one returns. -/
theorem bind_at {e : EStateM ε σ α} {f : α → EStateM ε σ β} {s : σ} (he : R s (after e s))
    (hf : ∀ a t, e s = .ok a t → R t (after (f a) t)) : R s (after (e >>= f) s) := by
  cases h : e s with
  | ok a t =>
    rw [after_bind_of_ok h]
    rw [after_of_ok h] at he
    exact S.trans he (hf a t h)
  | error x t =>
    rw [after_bind_of_error h]
    rwa [after_of_error h] at he

protected theorem bind {e : EStateM ε σ α} {f : α → EStateM ε σ β} (he : Moves R e)
    (hf : ∀ a, Moves R (f a)) : Moves R (e >>= f) :=
  fun s => S.bind_at (he s) fun a t _ => hf a t

protected theorem pure (a : α) : Moves R (pure a : EStateM ε σ α) := fun s => S.refl s

protected theorem throw (x : ε) : Moves R (throw x : EStateM ε σ α) := fun s => S.refl s

protected theorem get : Moves R (get : EStateM ε σ σ) := fun s => S.refl s

theorem mapM {f : α → EStateM ε σ β} {l : List α} (h : ∀ a ∈ l, Moves R (f a)) :
    Moves R (l.mapM f) := by
  induction l with
  | nil => exact S.pure _
  | cons a l ih =>
    rw [List.mapM_cons]
    exact S.bind (h a List.mem_cons_self) fun _ =>
      S.bind (ih fun b hb => h b (List.mem_cons_of_mem a hb)) fun _ => S.pure _

theorem forM {f : α → EStateM ε σ PUnit} (h : ∀ a, Moves R (f a)) (l : List α) :
    Moves R (l.forM f) := by
  induction l with
  | nil => exact S.pure _
  | cons a l ih => exact S.bind (h a) fun _ => ih

end Sequential

/-- However a run fails, it is with `F`. -/
def FailsOnly (F : ε → Prop) (e : EStateM ε σ α) : Prop :=
  ∀ s x t, e s = .error x t → F x

namespace FailsOnly

variable {F : ε → Prop}

protected theorem pure (a : α) : FailsOnly F (pure a : EStateM ε σ α) := nofun

protected theorem get : FailsOnly F (get : EStateM ε σ σ) := by
  rintro s _ _ ⟨⟩

protected theorem modify (f : σ → σ) : FailsOnly F (modify f : EStateM ε σ Unit) := by
  rintro s _ _ ⟨⟩

protected theorem throw {x : ε} (h : F x) : FailsOnly F (throw x : EStateM ε σ α) := by
  rintro s _ _ ⟨⟩
  exact h

protected theorem bind {e : EStateM ε σ α} {k : α → EStateM ε σ β} (h : FailsOnly F e)
    (hk : ∀ a, FailsOnly F (k a)) : FailsOnly F (e >>= k) := by
  intro s x t hrun
  rw [bind_run] at hrun
  cases he : e s with
  | ok a u =>
    rw [he] at hrun
    exact hk a u x t hrun
  | error y u =>
    rw [he] at hrun
    cases hrun
    exact h s _ _ he

end FailsOnly

end Stencil
