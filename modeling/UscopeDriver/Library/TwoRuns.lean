import UscopeDriver.Library.Exec

/-!
# Two runs of one computation

`SameAt R E m s t` : from the states `s` and `t` the computation returns the same value, in states
that `R` relates, or fails in the same way, in states that `E` relates. So it does not use what `s`
and `t` differ in. There is one rule per construct.
-/

namespace Exec

variable {ε σ τ α β : Type}

/-- The runs from `s` and `t` have the same outcome, up to states that `R` and `E` relate. -/
def SameAt (R : α → σ → σ → Prop) (E : σ → σ → Prop) (m : Exec ε σ α) (s t : σ) : Prop :=
  (∃ a s' t', m.run s = .ok a s' ∧ m.run t = .ok a t' ∧ R a s' t') ∨
    ∃ e s' t', m.run s = .error e s' ∧ m.run t = .error e t' ∧ E s' t'

variable {R : α → σ → σ → Prop} {E : σ → σ → Prop} {s t : σ}

/-- A value from related states. -/
theorem sameAt_pure {a : α} (h : R a s t) : SameAt R E (pure a : Exec ε σ α) s t :=
  Or.inl ⟨a, s, t, rfl, rfl, h⟩

/-- An exception from related states. -/
theorem sameAt_throw (e : ε) (h : E s t) : SameAt R E (throw e : Exec ε σ α) s t :=
  Or.inr ⟨e, s, t, rfl, rfl, h⟩

/-- Computations one after the other. -/
theorem SameAt.bind {Q : β → σ → σ → Prop} {m : Exec ε σ α} {f : α → Exec ε σ β}
    (hm : SameAt R E m s t) (hf : ∀ a s' t', R a s' t' → SameAt Q E (f a) s' t') :
    SameAt Q E (m >>= f) s t := by
  unfold SameAt
  rw [EStateM.run_bind, EStateM.run_bind]
  rcases hm with ⟨a, s', t', hs, ht, hR⟩ | ⟨e, s', t', hs, ht, hE⟩
  · rw [hs, ht]
    exact hf a s' t' hR
  · rw [hs, ht]
    exact Or.inr ⟨e, s', t', rfl, rfl, hE⟩

/-- What is made of the value. -/
theorem SameAt.map {Q : β → σ → σ → Prop} {m : Exec ε σ α} (f : α → β)
    (hm : SameAt R E m s t) (hf : ∀ a s' t', R a s' t' → Q (f a) s' t') :
    SameAt Q E (f <$> m) s t := by
  rw [map_eq_pure_bind]
  exact hm.bind fun a s' t' h => sameAt_pure (hf a s' t' h)

/-- A value that may be missing. Both runs then throw. -/
theorem sameAt_require {o : Option α} {e : ε} (h : ∀ a, o = some a → R a s t)
    (hnone : o = none → E s t) : SameAt R E (require o e) s t := by
  cases o with
  | none => exact sameAt_throw e (hnone rfl)
  | some a => exact sameAt_pure (h a rfl)

/-- A part on which the states agree. -/
theorem sameAt_gets {f : σ → α} (h : f s = f t) (hR : R (f s) s t) :
    SameAt R E (gets f : Exec ε σ α) s t :=
  Or.inl ⟨f s, s, t, rfl, h ▸ rfl, hR⟩

/-- A change that relates the states. -/
theorem sameAt_modify {R : PUnit → σ → σ → Prop} {f : σ → σ} (h : R ⟨⟩ (f s) (f t)) :
    SameAt R E (modify f : Exec ε σ PUnit) s t :=
  Or.inl ⟨⟨⟩, f s, f t, rfl, rfl, h⟩

/-- The runs on a part, put back on both sides. -/
theorem SameAt.zoom {get : τ → σ} {set : σ → τ → τ} {Q : α → τ → τ → Prop} {F : τ → τ → Prop}
    {m : Exec ε σ α} {s t : τ} (h : SameAt R E m (get s) (get t))
    (hQ : ∀ a s' t', R a s' t' → Q a (set s' s) (set t' t))
    (hF : ∀ s' t', E s' t' → F (set s' s) (set t' t)) :
    SameAt Q F (zoom get set m) s t := by
  unfold SameAt
  rw [run_zoom, run_zoom]
  rcases h with ⟨a, s', t', hs, ht, hR⟩ | ⟨e, s', t', hs, ht, hE⟩
  · rw [hs, ht]
    exact Or.inl ⟨a, _, _, rfl, rfl, hQ a s' t' hR⟩
  · rw [hs, ht]
    exact Or.inr ⟨e, _, _, rfl, rfl, hF s' t' hE⟩

/-- From one state there is one run. -/
theorem sameAt_self (m : Exec ε σ α) (s : σ) :
    SameAt (fun _ s' t' => s' = t') (fun s' t' => s' = t') m s s := by
  cases h : m.run s with
  | ok a s' => exact Or.inl ⟨a, s', s', h, h, rfl⟩
  | error e s' => exact Or.inr ⟨e, s', s', h, h, rfl⟩

end Exec
