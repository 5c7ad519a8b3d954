import Mathlib.Order.Defs.Unbundled

/-!
# What an `EStateM` program does to its state

The Go functions of the tracer mutate their receiver in place and return early with an `error`;
what they did before the error stays done. `EStateM` has the same shape: a thrown error still
carries the state reached. `Stays R x` says that every state `x` ends in, returned or thrown, is
`R`-related to the state it started from. For a preorder `R` it is closed under `pure`, `throw`,
`bind`, `if` and `List.forM`, so a property of every primitive step is a property of every loop
built from them.
-/

namespace BeylaTracer

variable {ε σ α β : Type}

/-- The state an `EStateM` program ends in, whether it returns or throws. -/
def final (x : EStateM ε σ α) (s : σ) : σ :=
  match x s with
  | .ok _ s' => s'
  | .error _ s' => s'

/-- Every state `x` ends in is `R`-related to the state it starts from. -/
def Stays (R : σ → σ → Prop) (x : EStateM ε σ α) : Prop := ∀ s, R s (final x s)

theorem bind_ok {x : EStateM ε σ α} {f : α → EStateM ε σ β} {s s' : σ} {a : α}
    (h : x s = .ok a s') : (x >>= f) s = f a s' := by
  show EStateM.bind x f s = _
  simp only [EStateM.bind, h]

theorem bind_error {x : EStateM ε σ α} {f : α → EStateM ε σ β} {s s' : σ} {e : ε}
    (h : x s = .error e s') : (x >>= f) s = .error e s' := by
  show EStateM.bind x f s = _
  simp only [EStateM.bind, h]

/-- A bind that returns ran both of its parts to a return. -/
theorem bind_eq_ok {x : EStateM ε σ α} {f : α → EStateM ε σ β} {s s' : σ} {b : β}
    (h : (x >>= f) s = .ok b s') : ∃ a s₁, x s = .ok a s₁ ∧ f a s₁ = .ok b s' := by
  cases hx : x s with
  | ok a s₁ => exact ⟨a, s₁, rfl, by rwa [bind_ok hx] at h⟩
  | error e s₁ =>
    rw [bind_error hx] at h
    cases h

variable {R : σ → σ → Prop}

theorem Stays.of_ok {x : EStateM ε σ α} (h : Stays R x) {s s' : σ} {a : α}
    (hx : x s = .ok a s') : R s s' := by
  simpa only [final, hx] using h s

theorem Stays.of_error {x : EStateM ε σ α} (h : Stays R x) {s s' : σ} {e : ε}
    (hx : x s = .error e s') : R s s' := by
  simpa only [final, hx] using h s

theorem Stays.imp {R' : σ → σ → Prop} {x : EStateM ε σ α} (hR : ∀ s s', R s s' → R' s s')
    (h : Stays R x) : Stays R' x := fun s => hR _ _ (h s)

theorem stays_modify {f : σ → σ} (h : ∀ s, R s (f s)) : Stays R (modify f : EStateM ε σ PUnit) :=
  h

theorem Stays.ite {c : Prop} [Decidable c] {x y : EStateM ε σ α} (hx : Stays R x)
    (hy : Stays R y) : Stays R (if c then x else y) := by
  split <;> assumption

section Preorder

variable [IsPreorder σ R]

theorem stays_pure (a : α) : Stays (ε := ε) R (pure a) := fun s => refl_of R s

theorem stays_throw (e : ε) : Stays R (throw e : EStateM ε σ α) := fun s => refl_of R s

theorem stays_get : Stays R (get : EStateM ε σ σ) := fun s => refl_of R s

theorem Stays.bind {x : EStateM ε σ α} {f : α → EStateM ε σ β} (hx : Stays R x)
    (hf : ∀ a, Stays R (f a)) : Stays R (x >>= f) := by
  intro s
  cases h : x s with
  | ok a s' => simpa only [final, bind_ok h] using trans_of R (hx.of_ok h) (hf a s')
  | error e s' => simpa only [final, bind_error h] using hx.of_error h

theorem Stays.forM {xs : List α} {f : α → EStateM ε σ PUnit} (hf : ∀ a ∈ xs, Stays R (f a)) :
    Stays R (xs.forM f) := by
  induction xs with
  | nil => exact stays_pure _
  | cons a as ih =>
    rw [List.forM_cons']
    exact (hf a (List.mem_cons_self _ _)).bind fun _ =>
      ih fun b hb => hf b (List.mem_cons_of_mem _ hb)

end Preorder

/-! ## Programs that return -/

/-- `x` returns a value, without an error, from every state. -/
def Returns (x : EStateM ε σ α) : Prop := ∀ s, ∃ a s', x s = .ok a s'

theorem returns_pure (a : α) : Returns (pure a : EStateM ε σ α) := fun s => ⟨a, s, rfl⟩

theorem Returns.bind {x : EStateM ε σ α} {f : α → EStateM ε σ β} (hx : Returns x)
    (hf : ∀ a, Returns (f a)) : Returns (x >>= f) := fun s => by
  obtain ⟨a, s', h⟩ := hx s
  rw [bind_ok h]
  exact hf a s'

theorem Returns.ite {c : Prop} [Decidable c] {x y : EStateM ε σ α} (hx : Returns x)
    (hy : Returns y) : Returns (if c then x else y) := by
  split <;> assumption

theorem Returns.forM {xs : List α} {f : α → EStateM ε σ PUnit} (hf : ∀ a ∈ xs, Returns (f a)) :
    Returns (xs.forM f) := by
  induction xs with
  | nil => exact returns_pure _
  | cons a as ih =>
    rw [List.forM_cons']
    exact (hf a (List.mem_cons_self _ _)).bind fun _ =>
      ih fun b hb => hf b (List.mem_cons_of_mem _ hb)

/-- `P` carried from a state to a later one: a preorder, so `Stays (Keeps P)` is an invariant. -/
def Keeps (P : σ → Prop) (s s' : σ) : Prop := P s → P s'

instance (P : σ → Prop) : IsPreorder σ (Keeps P) where
  refl _ := id
  trans _ _ _ h₁ h₂ := h₂ ∘ h₁

end BeylaTracer
