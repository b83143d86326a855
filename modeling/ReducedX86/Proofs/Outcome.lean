/-!
How actions end.

`Outcome x done failed s` says that `x`, run in the state `s`, ends as `done` admits or fails as
`failed` admits. The equations below take it through an action step by step, so that what is left
of a statement about an action speaks of states only.
-/
namespace ReducedX86

variable {ε σ α β : Type} {x : EStateM ε σ α} {done : α → σ → Prop} {failed : ε → σ → Prop} {s : σ}

def Outcome (x : EStateM ε σ α) (done : α → σ → Prop) (failed : ε → σ → Prop) (s : σ) : Prop :=
  match x.run s with
  | .ok a t => done a t
  | .error e t => failed e t

theorem Outcome.mono {done' : α → σ → Prop} {failed' : ε → σ → Prop} (h : Outcome x done failed s)
    (of_done : ∀ a t, done a t → done' a t) (of_failed : ∀ e t, failed e t → failed' e t) :
    Outcome x done' failed' s := by
  cases ran : x.run s with
  | ok a t =>
      rw [Outcome, ran] at h ⊢
      exact of_done a t h
  | error e t =>
      rw [Outcome, ran] at h ⊢
      exact of_failed e t h

theorem Outcome.of_ok {a : α} {t : σ} (h : Outcome x done failed s) (ran : x.run s = .ok a t) :
    done a t := by
  rwa [Outcome, ran] at h

theorem Outcome.of_error {e : ε} {t : σ} (h : Outcome x done failed s)
    (ran : x.run s = .error e t) : failed e t := by
  rwa [Outcome, ran] at h

theorem Outcome.and {done' : α → σ → Prop} {failed' : ε → σ → Prop} (h : Outcome x done failed s)
    (h' : Outcome x done' failed' s) :
    Outcome x (fun a t => done a t ∧ done' a t) (fun e t => failed e t ∧ failed' e t) s := by
  cases ran : x.run s with
  | ok a t =>
      rw [Outcome, ran]
      exact ⟨h.of_ok ran, h'.of_ok ran⟩
  | error e t =>
      rw [Outcome, ran]
      exact ⟨h.of_error ran, h'.of_error ran⟩

/-- An action ends as it does. -/
theorem Outcome.of_run (x : EStateM ε σ α) (s : σ) :
    Outcome x (fun a t => x.run s = .ok a t) (fun e t => x.run s = .error e t) s := by
  rw [Outcome]
  cases x.run s <;> rfl

/-- An action that can only end in `t` with `a` does so. -/
theorem Outcome.run_eq_ok {a : α} {t : σ}
    (h : Outcome x (fun b u => b = a ∧ u = t) (fun _ _ => False) s) : x.run s = .ok a t := by
  cases ran : x.run s with
  | ok b u =>
      obtain ⟨rfl, rfl⟩ := h.of_ok ran
      rfl
  | error e u => exact (h.of_error ran).elim

/-- An action that can only fail in `t` with `e` does so. -/
theorem Outcome.run_eq_error {e : ε} {t : σ}
    (h : Outcome x (fun _ _ => False) (fun f u => f = e ∧ u = t) s) : x.run s = .error e t := by
  cases ran : x.run s with
  | ok a u => exact (h.of_ok ran).elim
  | error f u =>
      obtain ⟨rfl, rfl⟩ := h.of_error ran
      rfl

/-- What `x` does to a state, `y` does to the image of the state under `f`. -/
def Carries {τ : Type} (f : σ → τ) (x : EStateM ε σ α) (y : EStateM ε τ α) : Prop :=
  ∀ s (done : α → τ → Prop) (failed : ε → τ → Prop),
    Outcome y done failed (f s) ↔
      Outcome x (fun a t => done a (f t)) (fun e t => failed e (f t)) s

section Carries

variable {τ : Type} {f : σ → τ} {y : EStateM ε τ α}

theorem Carries.run_ok (carries : Carries f x y) {a : α} {t : σ} (ran : x.run s = .ok a t) :
    y.run (f s) = .ok a (f t) := by
  apply Outcome.run_eq_ok
  rw [carries, Outcome, ran]
  exact ⟨rfl, rfl⟩

theorem Carries.run_error (carries : Carries f x y) {e : ε} {t : σ} (ran : x.run s = .error e t) :
    y.run (f s) = .error e (f t) := by
  apply Outcome.run_eq_error
  rw [carries, Outcome, ran]
  exact ⟨rfl, rfl⟩

end Carries

@[simp] theorem outcome_pure (a : α) :
    Outcome (pure a : EStateM ε σ α) done failed s ↔ done a s := Iff.rfl

@[simp] theorem outcome_bind {done : β → σ → Prop} (x : EStateM ε σ α) (k : α → EStateM ε σ β) :
    Outcome (x >>= k) done failed s ↔
      Outcome x (fun a t => Outcome (k a) done failed t) failed s := by
  simp only [Outcome, EStateM.run_bind]
  cases x.run s <;> rfl

@[simp] theorem outcome_map {done : β → σ → Prop} (f : α → β) (x : EStateM ε σ α) :
    Outcome (f <$> x) done failed s ↔ Outcome x (fun a t => done (f a) t) failed s := by
  simp only [Outcome, EStateM.run, Functor.map, EStateM.map]
  cases x s <;> rfl

@[simp] theorem outcome_discard {done : Unit → σ → Prop} (x : EStateM ε σ α) :
    Outcome (discard x) done failed s ↔ Outcome x (fun _ t => done () t) failed s :=
  outcome_map _ x

@[simp] theorem outcome_ite {c : Prop} [Decidable c] (x y : EStateM ε σ α) :
    Outcome (if c then x else y) done failed s ↔
      (c → Outcome x done failed s) ∧ (¬ c → Outcome y done failed s) := by
  split <;> rename_i h <;> simp [h]

@[simp] theorem outcome_get {done : σ → σ → Prop} :
    Outcome (get : EStateM ε σ σ) done failed s ↔ done s s := Iff.rfl

@[simp] theorem outcome_modify {done : PUnit → σ → Prop} (f : σ → σ) :
    Outcome (modify f : EStateM ε σ PUnit) done failed s ↔ done () (f s) := Iff.rfl

@[simp] theorem outcome_modifyGet (f : σ → α × σ) :
    Outcome (modifyGet f : EStateM ε σ α) done failed s ↔ done (f s).1 (f s).2 := Iff.rfl

@[simp] theorem outcome_throw (e : ε) :
    Outcome (throw e : EStateM ε σ α) done failed s ↔ failed e s := Iff.rfl

/-- Both actions end with the same value, or fail with the same error, in states that `R` relates. -/
inductive Agree (R : σ → σ → Prop) (x y : EStateM ε σ α) (s t : σ) : Prop
  | done {a : α} {s' t' : σ} (first : x.run s = .ok a s') (second : y.run t = .ok a t')
      (alike : R s' t') : Agree R x y s t
  | failed {e : ε} {s' t' : σ} (first : x.run s = .error e s') (second : y.run t = .error e t')
      (alike : R s' t') : Agree R x y s t

section Agree

variable {R : σ → σ → Prop} {y : EStateM ε σ α} {t : σ}

/-- What runs the same way ends the same way. -/
theorem Agree.of_runs {x' y' : EStateM ε σ α} {s' t' : σ} (h : Agree R x' y' s' t')
    (first : x.run s = x'.run s') (second : y.run t = y'.run t') : Agree R x y s t := by
  cases h with
  | done ran ran' alike => exact .done (first.trans ran) (second.trans ran') alike
  | failed ran ran' alike => exact .failed (first.trans ran) (second.trans ran') alike

theorem Agree.bind {k l : α → EStateM ε σ β} (h : Agree R x y s t)
    (rest : ∀ a s' t', x.run s = .ok a s' → R s' t' → Agree R (k a) (l a) s' t') :
    Agree R (x >>= k) (y >>= l) s t := by
  cases h with
  | @done a s' t' first second alike =>
      have first' : (x >>= k).run s = (k a).run s' := by rw [EStateM.run_bind, first]
      have second' : (y >>= l).run t = (l a).run t' := by rw [EStateM.run_bind, second]
      exact (rest a s' t' first alike).of_runs first' second'
  | @failed e s' t' first second alike =>
      have first' : (x >>= k).run s = .error e s' := by rw [EStateM.run_bind, first]
      have second' : (y >>= l).run t = .error e t' := by rw [EStateM.run_bind, second]
      exact .failed first' second' alike

end Agree

end ReducedX86
