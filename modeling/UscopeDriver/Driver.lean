import UscopeDriver.Requests

/-!
# States that hold the bridge

A component of the driver is a state with the bridge in it (`Drives`). What a call does to it
is a list of requests and a change of the rest of the state. The rest does not depend on the
bridge (`Round`). `forM_emit` is the loop rule : the requests of the rounds one after the other
(`requestsAlong`), and the changes of the rounds. It is simpler when no round affects the
requests of another (`forM_emit_uniform`). A loop whose failures can be caught is safe as long as
it goes on (`Stopping.failsOnly_forM`).
-/

namespace UscopeDriver

/-- A state that holds the bridge. `emit` performs requests on it. -/
class Drives (σ : Type) where
  hw : σ → FpgaBridge
  emit : σ → List Request → σ
  hw_emit : ∀ s rs, hw (emit s rs) = (hw s).performAll rs
  emit_nil : ∀ s, emit s [] = s
  emit_emit : ∀ s rs rs', emit (emit s rs) rs' = emit s (rs ++ rs')

/-- The bridge itself. -/
instance : Drives FpgaBridge where
  hw := id
  emit := FpgaBridge.performAll
  hw_emit := fun _ _ => rfl
  emit_nil := FpgaBridge.performAll_nil
  emit_emit := FpgaBridge.performAll_performAll

namespace Drives

variable {σ α : Type} [Drives σ]

/-- A change of the state beside the bridge. -/
structure Record (F : σ → σ) : Prop where
  hw : ∀ s, hw (F s) = hw s
  emit : ∀ s rs, F (emit s rs) = emit (F s) rs

/-- Records one after the other are a record. -/
theorem record_foldl {F : α → σ → σ} (h : ∀ x, Record (F x)) (xs : List α) :
    Record fun s => xs.foldl (fun t x => F x t) s := by
  induction xs with
  | nil => exact ⟨fun _ => rfl, fun _ _ => rfl⟩
  | cons x xs ih =>
    refine ⟨fun s => ?_, fun s rs => ?_⟩
    · simpa only [List.foldl_cons, (h x).hw] using ih.hw (F x s)
    · simpa only [List.foldl_cons, (h x).emit] using ih.emit (F x s) rs

/-- A round of a loop : under the condition `G`, it makes the requests `R` and the change `F`. -/
structure Round (f : α → Exec Failure σ PUnit) (G : α → σ → Prop) (R : α → σ → List Request)
    (F : α → σ → σ) : Prop where
  run : ∀ x s u s', (f x).run s = .ok u s' ↔
    G x s ∧ (hw s).Admits (R x s) ∧ s' = emit (F x s) (R x s)
  record : ∀ x, Record (F x)
  guard_emit : ∀ x s rs, G x (emit s rs) ↔ G x s
  requests_emit : ∀ x s rs, R x (emit s rs) = R x s

/-- The conditions of all rounds. -/
def GuardAlong (G : α → σ → Prop) (F : α → σ → σ) : List α → σ → Prop
  | [], _ => True
  | x :: xs, s => G x s ∧ GuardAlong G F xs (F x s)

/-- The requests of all rounds. -/
def requestsAlong (R : α → σ → List Request) (F : α → σ → σ) : List α → σ → List Request
  | [], _ => []
  | x :: xs, s => R x s ++ requestsAlong R F xs (F x s)

section Round

variable {f : α → Exec Failure σ PUnit} {G : α → σ → Prop} {R : α → σ → List Request}
  {F : α → σ → σ}

/-- The guards of the rounds do not depend on the bridge. -/
theorem Round.guardAlong_emit (h : Round f G R F) (xs : List α) :
    ∀ (s : σ) (rs : List Request), GuardAlong G F xs (emit s rs) ↔ GuardAlong G F xs s := by
  induction xs with
  | nil => exact fun _ _ => Iff.rfl
  | cons x xs ih =>
    intro s rs
    simp only [GuardAlong, h.guard_emit, (h.record x).emit, ih]

/-- Neither do their requests. -/
theorem Round.requestsAlong_emit (h : Round f G R F) (xs : List α) :
    ∀ (s : σ) (rs : List Request), requestsAlong R F xs (emit s rs) = requestsAlong R F xs s := by
  induction xs with
  | nil => exact fun _ _ => rfl
  | cons x xs ih =>
    intro s rs
    simp only [requestsAlong, h.requests_emit, (h.record x).emit, ih]

/-- A loop of rounds makes their requests exactly if each guard holds in its turn. -/
theorem Round.forM_emit (h : Round f G R F) (xs : List α) {s s' : σ} {u : PUnit} :
    (forM xs f).run s = .ok u s' ↔ GuardAlong G F xs s ∧
      (hw s).Admits (requestsAlong R F xs s) ∧
        s' = emit (xs.foldl (fun t x => F x t) s) (requestsAlong R F xs s) := by
  induction xs generalizing s with
  | nil =>
    rw [Exec.forM_nil_eq_ok]
    simp [GuardAlong, requestsAlong, emit_nil]
  | cons x xs ih =>
    have hfold := (record_foldl h.record xs).emit
    have step : (forM xs f).run (emit (F x s) (R x s)) = .ok u s' ↔ GuardAlong G F xs (F x s) ∧
        (hw s).Admits (requestsAlong R F xs (F x s)) ∧
          s' = emit (xs.foldl (fun t x => F x t) (F x s))
            (R x s ++ requestsAlong R F xs (F x s)) := by
      rw [ih, h.guardAlong_emit, h.requestsAlong_emit, hw_emit, (h.record x).hw,
        FpgaBridge.admits_performAll, hfold, emit_emit]
    rw [Exec.forM_cons_eq_ok]
    simp only [h.run, GuardAlong, requestsAlong, FpgaBridge.admits_append, List.foldl_cons]
    constructor
    · rintro ⟨_, ⟨hg, ha, rfl⟩, hxs⟩
      obtain ⟨hgs, has, rfl⟩ := step.1 hxs
      exact ⟨⟨hg, hgs⟩, ⟨ha, has⟩, rfl⟩
    · rintro ⟨⟨hg, hgs⟩, ⟨ha, has⟩, rfl⟩
      exact ⟨_, ⟨hg, ha, rfl⟩, step.2 ⟨hgs, has, rfl⟩⟩

omit [Drives σ] in
/-- Guards that the rounds do not change can be checked at the start. -/
theorem guardAlong_uniform (hG : ∀ x y s, G x (F y s) ↔ G x s) (xs : List α) (s : σ) :
    GuardAlong G F xs s ↔ ∀ x ∈ xs, G x s := by
  induction xs generalizing s with
  | nil => simp [GuardAlong]
  | cons x xs ih => simp only [GuardAlong, ih, hG, List.forall_mem_cons]

omit [Drives σ] in
/-- Requests that the rounds do not change can be collected at the start. -/
theorem requestsAlong_uniform (hR : ∀ x y s, R x (F y s) = R x s) (xs : List α) (s : σ) :
    requestsAlong R F xs s = xs.flatMap (R · s) := by
  induction xs generalizing s with
  | nil => rfl
  | cons x xs ih => simp only [requestsAlong, ih, hR, List.flatMap_cons]

omit [Drives σ] in
/-- The requests of a round are among those of all rounds. -/
theorem subset_requestsAlong {x : α} {xs : List α} (hx : x ∈ xs) (s : σ) :
    ∃ t, R x t ⊆ requestsAlong R F xs s := by
  induction xs generalizing s with
  | nil => simp at hx
  | cons y xs ih =>
    rcases List.mem_cons.1 hx with rfl | hx
    · exact ⟨s, List.subset_append_left _ _⟩
    · obtain ⟨t, ht⟩ := ih hx (F y s)
      exact ⟨t, List.subset_append_of_subset_right _ ht⟩

omit [Drives σ] in
/-- Rounds without requests make none. -/
theorem requestsAlong_eq_nil {xs : List α} (h : ∀ x ∈ xs, ∀ s, R x s = []) (s : σ) :
    requestsAlong R F xs s = [] := by
  induction xs generalizing s with
  | nil => rfl
  | cons x xs ih =>
    rw [List.forall_mem_cons] at h
    rw [requestsAlong, h.1, ih h.2, List.append_nil]

/-- The loop rule when no round affects the condition or the requests of another. -/
theorem Round.forM_emit_uniform (h : Round f G R F) (hG : ∀ x y s, G x (F y s) ↔ G x s)
    (hR : ∀ x y s, R x (F y s) = R x s) (xs : List α) {s s' : σ} {u : PUnit} :
    (forM xs f).run s = .ok u s' ↔ (∀ x ∈ xs, G x s) ∧
      (hw s).Admits (xs.flatMap (R · s)) ∧
        s' = emit (xs.foldl (fun t x => F x t) s) (xs.flatMap (R · s)) := by
  rw [h.forM_emit, guardAlong_uniform hG, requestsAlong_uniform hR]

end Round

/-- A loop whose rounds only make requests. -/
theorem forM_requests {f : α → Exec Failure σ PUnit} {G : α → Prop} {R : α → List Request}
    (h : ∀ x s u s', (f x).run s = .ok u s' ↔
      G x ∧ (hw s).Admits (R x) ∧ s' = emit s (R x))
    (xs : List α) {s s' : σ} {u : PUnit} :
    (forM xs f).run s = .ok u s' ↔
      (∀ x ∈ xs, G x) ∧ (hw s).Admits (xs.flatMap R) ∧ s' = emit s (xs.flatMap R) := by
  have hround : Round f (fun x _ => G x) (fun x _ => R x) (fun _ s => s) :=
    ⟨h, fun _ => ⟨fun _ => rfl, fun _ _ => rfl⟩, fun _ _ _ => Iff.rfl, fun _ _ _ => rfl⟩
  rw [hround.forM_emit_uniform (fun _ _ _ => Iff.rfl) (fun _ _ _ => rfl), List.foldl_fixed]

/-! ## Loops that a failure ends -/

/-- The rounds up to the first that ends the loop are safe. -/
def SafeAlong (Safe Goes : α → σ → Prop) (F : α → σ → σ) : List α → σ → Prop
  | [], _ => True
  | x :: xs, s => Safe x s ∧ (Goes x s → SafeAlong Safe Goes F xs (F x s))

omit [Drives σ] in
/-- Rounds that all go on and do not affect each other. -/
theorem safeAlong_of_goes {Safe Goes : α → σ → Prop} {F : α → σ → σ}
    (hS : ∀ x y s, Safe x (F y s) ↔ Safe x s) (hG : ∀ x y s, Goes x (F y s) ↔ Goes x s)
    {xs : List α} {s : σ} (h : ∀ x ∈ xs, Goes x s) :
    SafeAlong Safe Goes F xs s ↔ ∀ x ∈ xs, Safe x s := by
  induction xs generalizing s with
  | nil => simp [SafeAlong]
  | cons x xs ih =>
    rw [List.forall_mem_cons] at h
    have hxs : ∀ y ∈ xs, Goes y (F x s) := fun y hy => (hG y x s).2 (h.2 y hy)
    rw [SafeAlong, forall_prop_of_true h.1, ih hxs, List.forall_mem_cons]
    simp only [hS]

/-- A round that a failure can end. It is caught exactly when the round is `Safe`, and a safe round
that `Goes` on makes requests and the change `F`. -/
structure Stopping (caught : Failure → Prop) (f : α → Exec Failure σ PUnit)
    (Safe Goes : α → σ → Prop) (F : α → σ → σ) : Prop where
  failsOnly : ∀ x s, Exec.FailsOnly caught (f x) s ↔ Safe x s
  goes : ∀ x s, Safe x s → (Goes x s ↔ ∃ u s', (f x).run s = .ok u s')
  moves : ∀ x s u s', (f x).run s = .ok u s' → ∃ rs, s' = emit (F x s) rs
  record : ∀ x s rs, F x (emit s rs) = emit (F x s) rs
  safe_emit : ∀ x s rs, Safe x (emit s rs) ↔ Safe x s
  goes_emit : ∀ x s rs, Goes x (emit s rs) ↔ Goes x s

section Stopping

variable {caught : Failure → Prop} {f : α → Exec Failure σ PUnit} {Safe Goes : α → σ → Prop}
  {F : α → σ → σ}

/-- A round whose requests and change are known. -/
theorem Round.stopping {G : α → σ → Prop} {R : α → σ → List Request} (h : Round f G R F)
    (failsOnly : ∀ x s, Exec.FailsOnly caught (f x) s ↔ Safe x s)
    (goes : ∀ x s, Safe x s → (Goes x s ↔ ∃ u s', (f x).run s = .ok u s'))
    (safe_emit : ∀ x s rs, Safe x (emit s rs) ↔ Safe x s)
    (goes_emit : ∀ x s rs, Goes x (emit s rs) ↔ Goes x s) : Stopping caught f Safe Goes F where
  failsOnly := failsOnly
  goes := goes
  moves := fun x s u s' hrun => ⟨_, ((h.run x s u s').1 hrun).2.2⟩
  record := fun x => (h.record x).emit
  safe_emit := safe_emit
  goes_emit := goes_emit

theorem Stopping.safeAlong_emit (h : Stopping caught f Safe Goes F) (xs : List α) (s : σ)
    (rs : List Request) : SafeAlong Safe Goes F xs (emit s rs) ↔ SafeAlong Safe Goes F xs s := by
  induction xs generalizing s with
  | nil => exact Iff.rfl
  | cons x xs ih => simp only [SafeAlong, h.safe_emit, h.goes_emit, h.record, ih]

theorem Stopping.guardAlong_emit (h : Stopping caught f Safe Goes F) (xs : List α) (s : σ)
    (rs : List Request) : GuardAlong Goes F xs (emit s rs) ↔ GuardAlong Goes F xs s := by
  induction xs generalizing s with
  | nil => exact Iff.rfl
  | cons x xs ih => simp only [GuardAlong, h.goes_emit, h.record, ih]

/-- The failures of a loop are caught exactly when it is safe up to its end. -/
theorem Stopping.failsOnly_forM (h : Stopping caught f Safe Goes F) (xs : List α) (s : σ) :
    Exec.FailsOnly caught (forM xs f) s ↔ SafeAlong Safe Goes F xs s := by
  induction xs generalizing s with
  | nil => exact iff_of_true (Exec.failsOnly_pure _ s) trivial
  | cons x xs ih =>
    rw [Exec.failsOnly_forM_cons, h.failsOnly, SafeAlong]
    refine and_congr_right fun hsafe => ?_
    constructor
    · intro hrest hgoes
      obtain ⟨⟨⟩, s', hrun⟩ := (h.goes x s hsafe).1 hgoes
      obtain ⟨rs, rfl⟩ := h.moves x s _ s' hrun
      rw [← h.safeAlong_emit xs (F x s) rs]
      exact (ih _).1 (hrest _ hrun)
    · intro hrest s' hrun
      obtain ⟨rs, rfl⟩ := h.moves x s _ s' hrun
      rw [ih, h.safeAlong_emit]
      exact hrest ((h.goes x s hsafe).2 ⟨_, _, hrun⟩)

/-- A safe loop returns exactly when every round goes on. -/
theorem Stopping.guardAlong_iff (h : Stopping caught f Safe Goes F) {xs : List α} {s : σ}
    (hsafe : SafeAlong Safe Goes F xs s) :
    GuardAlong Goes F xs s ↔ ∃ u s', (forM xs f).run s = .ok u s' := by
  induction xs generalizing s with
  | nil => exact iff_of_true trivial ⟨_, s, rfl⟩
  | cons x xs ih =>
    obtain ⟨hx, hxs⟩ := hsafe
    simp only [GuardAlong, Exec.forM_cons_eq_ok]
    constructor
    · rintro ⟨hgoes, hrest⟩
      obtain ⟨⟨⟩, s', hrun⟩ := (h.goes x s hx).1 hgoes
      obtain ⟨rs, rfl⟩ := h.moves x s _ s' hrun
      obtain ⟨u, s'', hrun'⟩ := (ih ((h.safeAlong_emit xs (F x s) rs).2 (hxs hgoes))).1
        ((h.guardAlong_emit xs (F x s) rs).2 hrest)
      exact ⟨u, s'', _, hrun, hrun'⟩
    · rintro ⟨u, s'', s', hrun, hrun'⟩
      have hgoes := (h.goes x s hx).2 ⟨_, _, hrun⟩
      obtain ⟨rs, rfl⟩ := h.moves x s _ s' hrun
      refine ⟨hgoes, (h.guardAlong_emit xs (F x s) rs).1 ?_⟩
      exact (ih ((h.safeAlong_emit xs (F x s) rs).2 (hxs hgoes))).2 ⟨u, s'', hrun'⟩

/-- A safe loop whose rounds do not affect each other. -/
theorem Stopping.forall_goes_iff (h : Stopping caught f Safe Goes F)
    (hG : ∀ x y s, Goes x (F y s) ↔ Goes x s) {xs : List α} {s : σ}
    (hsafe : SafeAlong Safe Goes F xs s) :
    (∀ x ∈ xs, Goes x s) ↔ ∃ u s', (forM xs f).run s = .ok u s' := by
  rw [← guardAlong_uniform hG, h.guardAlong_iff hsafe]

/-- A loop before a computation that is caught on the condition `C`. -/
theorem Stopping.failsOnly_forM_bind (h : Stopping caught f Safe Goes F)
    (hG : ∀ x y s, Goes x (F y s) ↔ Goes x s) {β : Type} {m : PUnit → Exec Failure σ β}
    {xs : List α} {s : σ} {C : Prop}
    (hafter : ∀ u t, (forM xs f).run s = .ok u t → (Exec.FailsOnly caught (m u) t ↔ C)) :
    Exec.FailsOnly caught (forM xs f >>= m) s ↔
      SafeAlong Safe Goes F xs s ∧ ((∀ x ∈ xs, Goes x s) → C) := by
  rw [Exec.failsOnly_bind, h.failsOnly_forM]
  refine and_congr_right fun hsafe => ?_
  rw [h.forall_goes_iff hG hsafe]
  constructor
  · rintro hrest ⟨u, t, hrun⟩
    exact (hafter u t hrun).1 (hrest u t hrun)
  · exact fun hC u t hrun => (hafter u t hrun).2 (hC ⟨u, t, hrun⟩)

end Stopping

end Drives

end UscopeDriver
