/-!
Runs of steps over a state, and runs that agree. Two steps over different states are alike if from
related states they give the same value or the same error and leave related states; then what is
put together from such steps is alike as well.
-/

namespace IntervalCalc

variable {ε β γ σ τ : Type}

theorem exists_of_isOk {x : Except ε β} (h : x.isOk) : ∃ value, x = .ok value := by
  cases x with
  | error error => cases h
  | ok value => exact ⟨value, rfl⟩

namespace Run

variable {x : EStateM ε σ β} {f : β → EStateM ε σ γ} {s s' : σ}

theorem bind_ok {value : β} (h : x s = .ok value s') : (x >>= f) s = f value s' := by
  change EStateM.bind x f s = _
  unfold EStateM.bind
  rw [h]

theorem bind_error {error : ε} (h : x s = .error error s') : (x >>= f) s = .error error s' := by
  change EStateM.bind x f s = _
  unfold EStateM.bind
  rw [h]

theorem bind_congr {y : EStateM ε σ β} (h : x s = y s) : (x >>= f) s = (y >>= f) s := by
  change EStateM.bind x f s = EStateM.bind y f s
  unfold EStateM.bind
  rw [h]

theorem bind_eq_ok {result : γ} (h : (x >>= f) s = .ok result s') :
    ∃ value middle, x s = .ok value middle ∧ f value middle = .ok result s' := by
  change EStateM.bind x f s = _ at h
  unfold EStateM.bind at h
  cases first : x s with
  | ok value middle =>
      rw [first] at h
      exact ⟨value, middle, rfl, h⟩
  | error error middle =>
      rw [first] at h
      cases h

theorem bind_eq_error {error : ε} (h : (x >>= f) s = .error error s') :
    x s = .error error s' ∨
      ∃ value middle, x s = .ok value middle ∧ f value middle = .error error s' := by
  change EStateM.bind x f s = _ at h
  unfold EStateM.bind at h
  cases first : x s with
  | ok value middle =>
      rw [first] at h
      exact .inr ⟨value, middle, rfl, h⟩
  | error error middle =>
      rw [first] at h
      exact .inl (by cases h; rfl)

theorem get_bind (f : σ → EStateM ε σ β) (s : σ) : (MonadState.get >>= f) s = f s s := rfl

end Run

/-- Equal values or equal errors, with related states behind them. -/
def Agree (R : σ → τ → Prop) : EStateM.Result ε σ β → EStateM.Result ε τ β → Prop
  | .ok value s, .ok other t => value = other ∧ R s t
  | .error error s, .error other t => error = other ∧ R s t
  | _, _ => False

/-- Steps that agree from all related states. -/
def Alike (R : σ → τ → Prop) (x : EStateM ε σ β) (y : EStateM ε τ β) : Prop :=
  ∀ s t, R s t → Agree R (x s) (y t)

variable {x : EStateM ε σ β} {y : EStateM ε τ β} {f : β → EStateM ε σ γ} {g : β → EStateM ε τ γ}

namespace Agree

variable {R R' : σ → τ → Prop}

theorem imp {x : EStateM.Result ε σ β} {y : EStateM.Result ε τ β} (h : Agree R x y)
    (more : ∀ s t, R s t → R' s t) : Agree R' x y := by
  cases x with
  | ok value s =>
      cases y with
      | ok other t => exact ⟨h.1, more s t h.2⟩
      | error error t => exact h
  | error error s =>
      cases y with
      | ok other t => exact h
      | error other t => exact ⟨h.1, more s t h.2⟩

/-- What follows has to agree on the value that the first steps give, and behind the states that
they leave. -/
theorem bind {s : σ} {t : τ} (h : Agree R (x s) (y t)) (failed : ∀ s t, R s t → R' s t)
    (h' : ∀ value s' t', x s = .ok value s' → y t = .ok value t' → R s' t' →
      Agree R' (f value s') (g value t')) : Agree R' ((x >>= f) s) ((y >>= g) t) := by
  change Agree R' (EStateM.bind x f s) (EStateM.bind y g t)
  unfold EStateM.bind
  cases left : x s with
  | ok value s' =>
      cases right : y t with
      | ok other t' =>
          rw [left, right] at h
          obtain ⟨rfl, related⟩ := h
          exact h' value s' t' left right related
      | error error t' => rw [left, right] at h; exact h.elim
  | error error s' =>
      cases right : y t with
      | ok other t' => rw [left, right] at h; exact h.elim
      | error other t' =>
          rw [left, right] at h
          exact ⟨h.1, failed s' t' h.2⟩

end Agree

namespace Alike

variable {R : σ → τ → Prop}

theorem pure (value : β) :
    Alike R (Pure.pure value : EStateM ε σ β) (Pure.pure value : EStateM ε τ β) :=
  fun _ _ related => ⟨rfl, related⟩

theorem throw (error : ε) :
    Alike R (MonadExcept.throw error : EStateM ε σ β) (MonadExcept.throw error : EStateM ε τ β) :=
  fun _ _ related => ⟨rfl, related⟩

/-- The steps that follow need to agree only on the values that the first step can give. -/
theorem bind_of (h : Alike R x y)
    (h' : ∀ s t value s', R s t → x s = .ok value s' → Alike R (f value) (g value)) :
    Alike R (x >>= f) (y >>= g) := fun s t related =>
  (h s t related).bind (fun _ _ => id) fun value s' t' ran _ => h' s t value s' related ran s' t'

theorem bind (h : Alike R x y) (h' : ∀ value, Alike R (f value) (g value)) :
    Alike R (x >>= f) (y >>= g) :=
  h.bind_of fun _ _ value _ _ _ => h' value

end Alike

/-- Related values or equal errors, with related states behind them. What values and states have to
do with each other may be part of the relation. -/
def AgreeOn (ok : β → γ → σ → τ → Prop) (failed : σ → τ → Prop) :
    EStateM.Result ε σ β → EStateM.Result ε τ γ → Prop
  | .ok value s, .ok other t => ok value other s t
  | .error error s, .error other t => error = other ∧ failed s t
  | _, _ => False

namespace AgreeOn

variable {β' γ' : Type} {ok : β → γ → σ → τ → Prop} {failed : σ → τ → Prop}

theorem imp {ok' : β → γ → σ → τ → Prop} {failed' : σ → τ → Prop}
    {x : EStateM.Result ε σ β} {y : EStateM.Result ε τ γ} (h : AgreeOn ok failed x y)
    (more : ∀ value other s t, ok value other s t → ok' value other s t)
    (more' : ∀ s t, failed s t → failed' s t) : AgreeOn ok' failed' x y := by
  cases x with
  | ok value s =>
      cases y with
      | ok other t => exact more value other s t h
      | error error t => exact h
  | error error s =>
      cases y with
      | ok other t => exact h
      | error other t => exact ⟨h.1, more' s t h.2⟩

/-- What follows has to agree behind values and states that the first steps can end with. -/
theorem bind {ok' : β' → γ' → σ → τ → Prop} {x : EStateM ε σ β} {y : EStateM ε τ γ}
    {f : β → EStateM ε σ β'} {g : γ → EStateM ε τ γ'} {s : σ} {t : τ}
    (h : AgreeOn ok failed (x s) (y t))
    (h' : ∀ value other s' t', ok value other s' t' →
      AgreeOn ok' failed (f value s') (g other t')) :
    AgreeOn ok' failed ((x >>= f) s) ((y >>= g) t) := by
  change AgreeOn ok' failed (EStateM.bind x f s) (EStateM.bind y g t)
  unfold EStateM.bind
  cases left : x s with
  | ok value s' =>
      cases right : y t with
      | ok other t' => rw [left, right] at h; exact h' value other s' t' h
      | error error t' => rw [left, right] at h; exact h.elim
  | error error s' =>
      cases right : y t with
      | ok other t' => rw [left, right] at h; exact h.elim
      | error other t' => rw [left, right] at h; exact h

end AgreeOn

/-- Results that are related or the same error. -/
inductive Except.Related (V : β → γ → Prop) : Except ε β → Except ε γ → Prop
  | ok {value : β} {other : γ} : V value other → Related V (.ok value) (.ok other)
  | error (error : ε) : Related V (.error error) (.error error)

theorem Except.Related.bind {β' : Type} {V : β' → γ → Prop} {x : Except ε β}
    {f : β → Except ε β'} {g : β → Except ε γ} (h : ∀ value, Related V (f value) (g value)) :
    Related V (x >>= f) (x >>= g) := by
  cases x with
  | ok value => exact h value
  | error error => exact .error error

end IntervalCalc
