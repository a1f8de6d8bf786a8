import Mathlib.Data.List.Basic
import Mathlib.Order.Defs.Unbundled

/-!
# State computations that can fail

An `Exec ε σ α` reads and writes a state `σ` and either returns or fails with an `ε`. A
failure keeps the state it happened in. Runs that return are taken apart with the `_eq_ok`
lemmas. `Frame` bounds by a preorder what a computation can do to the state, whether it returns
or fails, and says what a failure means. It has one rule per construct.
-/

/-- A computation over the state `σ` that returns an `α` or fails with an `ε`. -/
abbrev Exec (ε σ α : Type) := EStateM ε σ α

namespace Exec

variable {ε σ τ α β : Type}

/-! ## Building blocks -/

/-- Read a function of the state. -/
def gets (f : σ → α) : Exec ε σ α := fun s => .ok (f s) s

/-- Run `m` when the condition holds. -/
def when (c : Prop) [Decidable c] (m : Exec ε σ Unit) : Exec ε σ Unit :=
  if c then m else pure ()

/-- Fail with `e` when the condition holds. -/
def throwIf (c : Prop) [Decidable c] (e : ε) : Exec ε σ Unit :=
  when c (throw e)

/-- Unwrap an optional value, failing with `e` when there is none. -/
def require (o : Option α) (e : ε) : Exec ε σ α :=
  match o with
  | some a => pure a
  | none => throw e

/-- The outcome of a function that does not touch the state. -/
def ofExcept : Except ε α → Exec ε σ α
  | .ok a => pure a
  | .error e => throw e

/-- Handle the failures that `caught` admits. -/
def catching (caught : ε → Prop) [DecidablePred caught] (m : Exec ε σ α)
    (handler : ε → Exec ε σ α) : Exec ε σ α := fun s =>
  match m.run s with
  | .ok a s' => .ok a s'
  | .error e s' => if caught e then (handler e).run s' else .error e s'

/-- What a computation gives that needs no state. -/
def outcome (m : Exec ε Unit α) : Except ε α :=
  match m.run () with
  | .ok a _ => .ok a
  | .error e _ => .error e

/-- Run a computation on a component of a larger state. -/
def zoom (get : τ → σ) (set : σ → τ → τ) (m : Exec ε σ α) : Exec ε τ α := fun t =>
  match m.run (get t) with
  | .ok a s => .ok a (set s t)
  | .error e s => .error e (set s t)

/-- Computations that run alike are the same. -/
theorem ext_run {m m' : Exec ε σ α} (h : ∀ s, m.run s = m'.run s) : m = m' := funext h

theorem run_gets (f : σ → α) (s : σ) : (gets f : Exec ε σ α).run s = .ok (f s) s := rfl

theorem run_gets_bind (f : σ → α) (g : α → Exec ε σ β) (s : σ) :
    (gets f >>= g).run s = (g (f s)).run s := rfl

theorem run_throw (e : ε) (s : σ) : (throw e : Exec ε σ α).run s = .error e s := rfl

theorem run_require_none (e : ε) (s : σ) :
    (require none e : Exec ε σ α).run s = .error e s := rfl

theorem run_require_some (a : α) (e : ε) (s : σ) :
    (require (some a) e : Exec ε σ α).run s = .ok a s := rfl

/-- A check ends the run or lets it go on. -/
theorem run_throwIf_bind {c : Prop} [Decidable c] (e : ε) (f : Unit → Exec ε σ β) (s : σ) :
    (throwIf c e >>= f).run s = if c then .error e s else (f ()).run s := by
  unfold throwIf when
  split_ifs <;> rfl

/-- On a part the run is that of the part, put back. -/
theorem run_zoom (get : τ → σ) (set : σ → τ → τ) (m : Exec ε σ α) (t : τ) :
    (zoom get set m).run t =
      match m.run (get t) with
      | .ok a s => .ok a (set s t)
      | .error e s => .error e (set s t) := rfl

section Zoom

variable {get : τ → σ} {set : σ → τ → τ}

/-- With a lawful component, the parts of a computation run on it one after the other. -/
theorem zoom_bind (get_set : ∀ s t, get (set s t) = s)
    (set_set : ∀ s s' t, set s' (set s t) = set s' t) (m : Exec ε σ α) (f : α → Exec ε σ β) :
    zoom get set (m >>= f) = zoom get set m >>= fun a => zoom get set (f a) := by
  refine ext_run fun t => ?_
  rw [run_zoom, EStateM.run_bind, EStateM.run_bind, run_zoom]
  cases m.run (get t) with
  | ok a s =>
    simp only [run_zoom, get_set]
    cases (f a).run s <;> simp only [set_set]
  | error e s => rfl

/-- A value needs no part. -/
theorem zoom_pure (set_get : ∀ t, set (get t) t = t) (a : α) :
    zoom get set (pure a : Exec ε σ α) = pure a :=
  ext_run fun t => congrArg (EStateM.Result.ok a) (set_get t)

end Zoom

/-- Continuations that agree on what is returned. -/
theorem bind_congr_of_ok {m : Exec ε σ α} {f g : α → Exec ε σ β}
    (h : ∀ a s s', m.run s = .ok a s' → f a = g a) : m >>= f = m >>= g := by
  refine ext_run fun s => ?_
  rw [EStateM.run_bind, EStateM.run_bind]
  cases hm : m.run s with
  | ok a s' => simp only [h a s s' hm]
  | error e s' => rfl

/-- A run goes on from where the first part returns. -/
theorem run_bind_of_ok {m : Exec ε σ α} {f : α → Exec ε σ β} {a : α} {s t : σ}
    (h : m.run s = .ok a t) : (m >>= f).run s = (f a).run t := by
  rw [EStateM.run_bind, h]

/-! ## Runs that return -/

/-- A sequence returns if both parts do, one after the other. -/
theorem bind_eq_ok {m : Exec ε σ α} {f : α → Exec ε σ β} {s s'' : σ} {b : β} :
    (m >>= f).run s = .ok b s'' ↔ ∃ a s', m.run s = .ok a s' ∧ (f a).run s' = .ok b s'' := by
  rw [EStateM.run_bind]
  cases m.run s with
  | ok a s' => simp
  | error e s' => simp

/-- A value returns itself and keeps the state. -/
theorem pure_eq_ok {a b : α} {s s' : σ} :
    (pure a : Exec ε σ α).run s = .ok b s' ↔ b = a ∧ s' = s := by
  simp [eq_comm]

theorem gets_eq_ok {f : σ → α} {b : α} {s s' : σ} :
    (gets f : Exec ε σ α).run s = .ok b s' ↔ b = f s ∧ s' = s := by
  rw [run_gets]
  simp [eq_comm]

theorem modify_eq_ok {f : σ → σ} {u : PUnit} {s s' : σ} :
    (modify f : Exec ε σ PUnit).run s = .ok u s' ↔ s' = f s := by
  simp [eq_comm]

theorem throw_eq_ok {e : ε} {a : α} {s s' : σ} :
    (throw e : Exec ε σ α).run s = .ok a s' ↔ False := by
  rw [run_throw]
  simp

/-- A guarded computation returns as it does where the guard holds, and keeps the state
otherwise. -/
theorem when_eq_ok {c : Prop} [Decidable c] {m : Exec ε σ Unit} {u : Unit} {s s' : σ} :
    (when c m).run s = .ok u s' ↔ (c → m.run s = .ok u s') ∧ (¬c → s' = s) := by
  unfold when
  split_ifs with h
  · simp [h]
  · simp [h, eq_comm]

/-- The branch that is taken returns. -/
theorem ite_eq_ok {c : Prop} [Decidable c] {m m' : Exec ε σ α} {a : α} {s s' : σ} :
    (if c then m else m').run s = .ok a s' ↔
      c ∧ m.run s = .ok a s' ∨ ¬c ∧ m'.run s = .ok a s' := by
  by_cases hc : c <;> simp [hc]

/-- A check returns if it does not throw. -/
theorem throwIf_eq_ok {c : Prop} [Decidable c] {e : ε} {u : Unit} {s s' : σ} :
    (throwIf c e : Exec ε σ Unit).run s = .ok u s' ↔ ¬c ∧ s' = s := by
  rw [throwIf, when_eq_ok, throw_eq_ok]
  by_cases h : c <;> simp [h]

/-- A value that is there is returned. -/
theorem require_eq_ok {o : Option α} {e : ε} {a : α} {s s' : σ} :
    (require o e : Exec ε σ α).run s = .ok a s' ↔ o = some a ∧ s' = s := by
  cases o with
  | none => simp [require, throw_eq_ok]
  | some b => simp [require, eq_comm]

/-- What is no error is returned. -/
theorem ofExcept_eq_ok {x : Except ε α} {a : α} {s s' : σ} :
    (ofExcept x).run s = .ok a s' ↔ x = .ok a ∧ s' = s := by
  cases x with
  | error e => simp [ofExcept, throw_eq_ok]
  | ok b => simp [ofExcept, eq_comm]

theorem outcome_eq_ok {m : Exec ε Unit α} {a : α} : outcome m = .ok a ↔ m.run () = .ok a () := by
  unfold outcome
  cases m.run () <;> simp

/-- On a part the computation returns as it does there. -/
theorem zoom_eq_ok {get : τ → σ} {set : σ → τ → τ} {m : Exec ε σ α} {t t' : τ} {a : α} :
    (zoom get set m).run t = .ok a t' ↔ ∃ s', m.run (get t) = .ok a s' ∧ t' = set s' t := by
  rw [run_zoom]
  cases m.run (get t) with
  | ok b s => simp [eq_comm]
  | error e s => simp

/-- A loop without rounds keeps the state. -/
theorem forM_nil_eq_ok {f : α → Exec ε σ PUnit} {u : PUnit} {s s' : σ} :
    (forM ([] : List α) f).run s = .ok u s' ↔ s' = s := by
  rw [List.forM_nil, pure_eq_ok]
  exact and_iff_right rfl

/-- A loop returns if its first round and the rest do. -/
theorem forM_cons_eq_ok {x : α} {xs : List α} {f : α → Exec ε σ PUnit} {u : PUnit} {s s'' : σ} :
    (forM (x :: xs) f).run s = .ok u s'' ↔
      ∃ s', (f x).run s = .ok PUnit.unit s' ∧ (forM xs f).run s' = .ok u s'' := by
  rw [List.forM_cons, bind_eq_ok]
  constructor
  · rintro ⟨⟨⟩, s', hx, hxs⟩
    exact ⟨s', hx, hxs⟩
  · rintro ⟨s', hx, hxs⟩
    exact ⟨PUnit.unit, s', hx, hxs⟩

/-- A loop over blocks is a loop of loops. -/
theorem forM_flatMap {m : Type → Type} [Monad m] [LawfulMonad m] (xs : List α) (g : α → List β)
    (f : β → m PUnit) : forM (xs.flatMap g) f = forM xs fun x => forM (g x) f := by
  induction xs with
  | nil => rfl
  | cons x xs ih => rw [List.flatMap_cons, List.forM_append, ih, List.forM_cons]

/-- A loop whose rounds check an element and run a block, as one loop over all blocks. The blocks
come from a part of the state that they keep. -/
theorem forM_blocks_eq_ok {f : α → Exec ε σ PUnit} {g : β → Exec ε σ PUnit} {P : α → Prop}
    (get : σ → τ) (block : τ → α → List β)
    (round : ∀ x (u : PUnit) s s', (f x).run s = .ok u s' ↔
      P x ∧ (forM (block (get s) x) g).run s = .ok u s')
    (keep : ∀ {ys : List β} {u : PUnit} {s s' : σ}, (forM ys g).run s = .ok u s' → get s' = get s)
    {xs : List α} {u : PUnit} {s s' : σ} :
    (forM xs f).run s = .ok u s' ↔
      (∀ x ∈ xs, P x) ∧ (forM (xs.flatMap (block (get s))) g).run s = .ok u s' := by
  induction xs generalizing s with
  | nil => simp
  | cons x xs ih =>
    rw [List.flatMap_cons, List.forM_append, List.forM_cons, bind_eq_ok, bind_eq_ok,
      List.forall_mem_cons]
    constructor
    · rintro ⟨v, s₁, h₁, h₂⟩
      obtain ⟨hx, h₁⟩ := (round _ _ _ _).1 h₁
      obtain ⟨hxs, h₂⟩ := ih.1 h₂
      rw [keep h₁] at h₂
      exact ⟨⟨hx, hxs⟩, v, s₁, h₁, h₂⟩
    · rintro ⟨⟨hx, hxs⟩, v, s₁, h₁, h₂⟩
      rw [← keep h₁] at h₂
      exact ⟨v, s₁, (round _ _ _ _).2 ⟨hx, h₁⟩, ih.2 ⟨hxs, h₂⟩⟩

/-- In the run of a loop from `s` to `s'`, the round of the element in position `k` runs from `t` to
`t'`. -/
structure RoundAt (f : α → Exec ε σ PUnit) (xs : List α) (k : Nat) (s s' : σ) (x : α) (t t' : σ) :
    Prop where
  getElem? : xs[k]? = some x
  before : (forM (xs.take k) f).run s = .ok PUnit.unit t
  round : (f x).run t = .ok PUnit.unit t'
  after : (forM (xs.drop (k + 1)) f).run t' = .ok PUnit.unit s'

/-- A loop that returns has a round for each element. -/
theorem exists_roundAt {f : α → Exec ε σ PUnit} {xs : List α} {k : Nat} {x : α} {s s' : σ}
    (hx : xs[k]? = some x) (h : (forM xs f).run s = .ok PUnit.unit s') :
    ∃ t t', RoundAt f xs k s s' x t t' := by
  obtain ⟨hk, rfl⟩ := List.getElem?_eq_some_iff.1 hx
  have hsplit : xs = xs.take k ++ xs[k] :: xs.drop (k + 1) := by
    rw [List.getElem_cons_drop, List.take_append_drop]
  rw [hsplit, List.forM_append, bind_eq_ok] at h
  obtain ⟨⟨⟩, t, hbefore, h⟩ := h
  obtain ⟨t', hround, hafter⟩ := forM_cons_eq_ok.1 h
  exact ⟨t, t', hx, hbefore, hround, hafter⟩

/-- A loop whose rounds return and leave the state. -/
theorem run_mapM_of_ok {f : α → Exec ε σ β} {g : α → β} {xs : List α} {s : σ}
    (h : ∀ x ∈ xs, (f x).run s = .ok (g x) s) : (xs.mapM f).run s = .ok (xs.map g) s := by
  induction xs with
  | nil => rfl
  | cons x xs ih =>
    rw [List.forall_mem_cons] at h
    rw [List.mapM_cons, EStateM.run_bind, h.1]
    simp only [EStateM.run_bind, ih h.2, List.map_cons]
    rfl

/-- Every value that the computation returns has `p`. -/
def Returns (p : α → Prop) (m : Exec ε σ α) : Prop :=
  ∀ s a s', m.run s = .ok a s' → p a

theorem returns_pure {p : α → Prop} {a : α} (h : p a) : Returns p (pure a : Exec ε σ α) := by
  intro s b s' hrun
  obtain ⟨rfl, -⟩ := pure_eq_ok.1 hrun
  exact h

/-- What the last part returns is what the sequence returns. -/
theorem returns_bind {p : β → Prop} {m : Exec ε σ α} {f : α → Exec ε σ β}
    (h : ∀ a, (∃ s s', m.run s = .ok a s') → Returns p (f a)) : Returns p (m >>= f) := by
  intro s b s'' hrun
  obtain ⟨a, s', hm, hf⟩ := bind_eq_ok.1 hrun
  exact h a ⟨s, s', hm⟩ s' b s'' hf

/-- A guarded part returns, or the handler does after what it catches. -/
theorem catching_eq_ok {caught : ε → Prop} [DecidablePred caught] {m : Exec ε σ α}
    {handler : ε → Exec ε σ α} {s s' : σ} {a : α} :
    (catching caught m handler).run s = .ok a s' ↔ m.run s = .ok a s' ∨
      ∃ e s₁, m.run s = .error e s₁ ∧ caught e ∧ (handler e).run s₁ = .ok a s' := by
  have hrun : (catching caught m handler).run s = match m.run s with
    | .ok a s' => .ok a s'
    | .error e s' => if caught e then (handler e).run s' else .error e s' := rfl
  rw [hrun]
  cases m.run s with
  | ok b t => simp
  | error e t => by_cases he : caught e <;> simp [he]

/-- Part and handler return alike. -/
theorem returns_catching {p : α → Prop} {caught : ε → Prop} [DecidablePred caught] {m : Exec ε σ α}
    {handler : ε → Exec ε σ α} (hm : Returns p m) (hh : ∀ e, Returns p (handler e)) :
    Returns p (catching caught m handler) := by
  intro s a s' h
  rcases catching_eq_ok.1 h with hok | ⟨e, t, -, -, hhandler⟩
  · exact hm s a s' hok
  · exact hh e t a s' hhandler

/-! ## Runs that can be evaluated -/

/-- The run returns in a state with `p`. -/
def returnsIn (p : σ → Prop) [DecidablePred p] (m : Exec ε σ α) (s : σ) : Bool :=
  match m.run s with
  | .ok _ s' => p s'
  | .error _ _ => false

/-- What a test has evaluated is a run. -/
theorem exists_of_returnsIn {p : σ → Prop} [DecidablePred p] {m : Exec ε σ α} {s : σ}
    (h : returnsIn p m s = true) : ∃ a s', m.run s = .ok a s' ∧ p s' := by
  unfold returnsIn at h
  cases hs : m.run s with
  | ok a s' => exact ⟨a, s', rfl, by simpa [hs] using h⟩
  | error e s' => simp [hs] at h

/-! ## Runs of several computations -/

/-- The state that a run ends in, none when it fails fatally. -/
def settle (fatal : ε → Prop) [DecidablePred fatal] (m : Exec ε σ α) (s : σ) : Option σ :=
  match m.run s with
  | .ok _ s' => some s'
  | .error e s' => if fatal e then none else some s'

/-- A call settles if it returns or throws what can be caught. -/
theorem settle_eq_some {fatal : ε → Prop} [DecidablePred fatal] {m : Exec ε σ α} {s s' : σ} :
    settle fatal m s = some s' ↔
      (∃ a, m.run s = .ok a s') ∨ ∃ e, ¬fatal e ∧ m.run s = .error e s' := by
  unfold settle
  cases m.run s with
  | ok a t => simp
  | error e t => by_cases h : fatal e <;> simp [h]

theorem settle_of_ok {fatal : ε → Prop} [DecidablePred fatal] {m : Exec ε σ α} {s s' : σ} {a : α}
    (h : m.run s = .ok a s') : settle fatal m s = some s' :=
  settle_eq_some.2 (Or.inl ⟨a, h⟩)

/-- The state after one computation for each element of a list. -/
def settleAll (fatal : ε → Prop) [DecidablePred fatal] (f : β → Exec ε σ α) (xs : List β) (s : σ) :
    Option σ :=
  xs.foldlM (fun t x => settle fatal (f x) t) s

/-- Calls settle if the first one and the rest do. -/
theorem settleAll_cons {fatal : ε → Prop} [DecidablePred fatal] {f : β → Exec ε σ α} {x : β}
    {xs : List β} {s s' : σ} : settleAll fatal f (x :: xs) s = some s' ↔
      ∃ t, settle fatal (f x) s = some t ∧ settleAll fatal f xs t = some s' := by
  rw [settleAll, List.foldlM_cons]
  exact Option.bind_eq_some_iff

/-- A history settles in two parts. -/
theorem settleAll_append {fatal : ε → Prop} [DecidablePred fatal] {f : β → Exec ε σ α}
    {xs ys : List β} {s s' : σ} : settleAll fatal f (xs ++ ys) s = some s' ↔
      ∃ t, settleAll fatal f xs s = some t ∧ settleAll fatal f ys t = some s' := by
  rw [settleAll, List.foldlM_append]
  exact Option.bind_eq_some_iff

/-- What a call returns does not matter. -/
theorem settle_discard {fatal : ε → Prop} [DecidablePred fatal] (m : Exec ε σ α) (s : σ) :
    settle fatal (discard m) s = settle fatal m s := by
  have hrun : (discard m).run s = match m.run s with
    | .ok _ s' => .ok ⟨⟩ s'
    | .error e s' => .error e s' := rfl
  rw [settle, hrun, settle]
  cases m.run s <;> rfl

/-- Neither does what is made of it. -/
theorem settle_bind_pure {fatal : ε → Prop} [DecidablePred fatal] (m : Exec ε σ α) (f : α → β)
    (s : σ) : settle fatal (m >>= fun a => pure (f a)) s = settle fatal m s := by
  rw [settle, EStateM.run_bind, settle]
  cases m.run s <;> rfl

/-- What a `catch` answers, a run that ends in an exception has left. -/
theorem settle_of_catching {fatal caught : ε → Prop} [DecidablePred fatal] [DecidablePred caught]
    (hcaught : ∀ e, caught e → ¬fatal e) {m : Exec ε σ α} {f : ε → α} {s s' : σ} {a : α}
    (h : (catching caught m fun e => pure (f e)).run s = .ok a s') :
    settle fatal m s = some s' := by
  rw [settle_eq_some]
  rcases catching_eq_ok.1 h with hok | ⟨e, t, herror, he, hpure⟩
  · exact Or.inl ⟨a, hok⟩
  · obtain ⟨-, rfl⟩ := pure_eq_ok.1 hpure
    exact Or.inr ⟨e, hcaught e he, herror⟩

/-- On a part a call settles as it does there. -/
theorem settle_zoom {fatal : ε → Prop} [DecidablePred fatal] {get : τ → σ} {set : σ → τ → τ}
    {m : Exec ε σ α} {t t' : τ} (h : settle fatal (zoom get set m) t = some t') :
    ∃ s, settle fatal m (get t) = some s ∧ t' = set s t := by
  unfold settle at h ⊢
  rw [run_zoom] at h
  cases hm : m.run (get t) with
  | ok a s => exact ⟨s, rfl, by simpa [hm, eq_comm] using h⟩
  | error e s =>
    by_cases he : fatal e
    · simp [hm, he] at h
    · exact ⟨s, by simp [he], by simpa [hm, he, eq_comm] using h⟩

/-- Every computation of a run meets `P` in the state where it starts. -/
def Along (fatal : ε → Prop) [DecidablePred fatal] (f : β → Exec ε σ α) (P : β → σ → Prop) :
    List β → σ → Prop
  | [], _ => True
  | x :: xs, s => P x s ∧ ∀ t, settle fatal (f x) s = some t → Along fatal f P xs t

/-- Properties that agree agree along a run. -/
theorem along_congr {fatal : ε → Prop} [DecidablePred fatal] {f : β → Exec ε σ α}
    {P Q : β → σ → Prop} (h : ∀ x s, P x s ↔ Q x s) {xs : List β} {s : σ} :
    Along fatal f P xs s ↔ Along fatal f Q xs s := by
  induction xs generalizing s with
  | nil => exact Iff.rfl
  | cons x xs ih => exact and_congr (h x s) (forall_congr' fun t => imp_congr_right fun _ => ih)

/-- A loop that collects returns exactly when each of its rounds does where it starts. -/
theorem exists_mapM_iff {f : β → Exec ε σ α} {xs : List β} {s : σ} :
    (∃ ys s', (xs.mapM f).run s = .ok ys s' ∧ ys.length = xs.length) ↔
      Along (fun _ => True) f (fun x s => ∃ y s', (f x).run s = .ok y s') xs s := by
  induction xs generalizing s with
  | nil => exact iff_of_true ⟨[], s, rfl, rfl⟩ trivial
  | cons x xs ih =>
    have hsettle : ∀ t, settle (fun _ => True) (f x) s = some t ↔ ∃ y, (f x).run s = .ok y t := by
      intro t
      unfold settle
      cases (f x).run s <;> simp
    simp only [Along, hsettle, ← ih]
    constructor
    · rintro ⟨_, s', hrun, hlength⟩
      rw [List.mapM_cons] at hrun
      obtain ⟨y, t, hx, hrest⟩ := bind_eq_ok.1 hrun
      obtain ⟨ys, t', hxs, hpure⟩ := bind_eq_ok.1 hrest
      obtain ⟨rfl, rfl⟩ := pure_eq_ok.1 hpure
      refine ⟨⟨y, t, hx⟩, ?_⟩
      rintro t₁ ⟨y₁, hx₁⟩
      cases hx.symm.trans hx₁
      exact ⟨ys, _, hxs, Nat.succ.inj hlength⟩
    · rintro ⟨⟨y, t, hx⟩, hrest⟩
      obtain ⟨ys, s', hxs, hlength⟩ := hrest t ⟨y, hx⟩
      refine ⟨y :: ys, s', ?_, congrArg Nat.succ hlength⟩
      rw [List.mapM_cons]
      exact bind_eq_ok.2 ⟨y, t, hx, bind_eq_ok.2 ⟨ys, s', hxs, rfl⟩⟩

/-- What every computation with `P` keeps, a run of such computations keeps. -/
theorem settleAll_invariant {fatal : ε → Prop} [DecidablePred fatal] {f : β → Exec ε σ α}
    {P : β → σ → Prop} {I : σ → Prop}
    (step : ∀ x s s', I s → P x s → settle fatal (f x) s = some s' → I s') {xs : List β}
    {s s' : σ} (hP : Along fatal f P xs s) (h₀ : I s) (h : settleAll fatal f xs s = some s') :
    I s' := by
  induction xs generalizing s with
  | nil =>
    obtain rfl : s = s' := by simpa [settleAll] using h
    exact h₀
  | cons x xs ih =>
    obtain ⟨t, ht, hrest⟩ := settleAll_cons.1 h
    exact ih (hP.2 t ht) (step x s t h₀ hP.1 ht) hrest

/-- A run follows an abstract machine `g` through `Sim`, if each of its computations does. -/
theorem settleAll_simulation {γ : Type*} {fatal : ε → Prop} [DecidablePred fatal]
    {f : β → Exec ε σ α} {g : γ → β → γ} {Sim : γ → σ → Prop}
    (step : ∀ x b s s', Sim b s → settle fatal (f x) s = some s' → Sim (g b x) s') {xs : List β}
    {b : γ} {s s' : σ} (h₀ : Sim b s) (h : settleAll fatal f xs s = some s') :
    Sim (xs.foldl g b) s' := by
  induction xs generalizing b s with
  | nil =>
    obtain rfl : s = s' := by simpa [settleAll] using h
    exact h₀
  | cons x xs ih =>
    obtain ⟨t, ht, hrest⟩ := settleAll_cons.1 h
    exact ih (step x b s t h₀ ht) hrest

/-- A run from `s` is followed by an abstract machine `g` that sees `view` of the state, if each of
its computations is, as long as the states have `I`. -/
theorem settleAll_refines {γ : Type*} {fatal : ε → Prop} [DecidablePred fatal]
    {f : β → Exec ε σ α} {g : γ → β → γ} {view : σ → γ} {I : σ → Prop} {xs : List β}
    (step : ∀ x ∈ xs, ∀ s s', I s → settle fatal (f x) s = some s' →
      I s' ∧ view s' = g (view s) x) {s s' : σ} (h₀ : I s)
    (h : settleAll fatal f xs s = some s') : I s' ∧ view s' = xs.foldl g (view s) := by
  induction xs generalizing s with
  | nil =>
    obtain rfl : s = s' := by simpa [settleAll] using h
    exact ⟨h₀, rfl⟩
  | cons x xs ih =>
    obtain ⟨t, ht, hrest⟩ := settleAll_cons.1 h
    obtain ⟨hI, hview⟩ := step x (by simp) s t h₀ ht
    rw [List.foldl_cons, ← hview]
    exact ih (fun y hy => step y (by simp [hy])) hI hrest

/-! ## Failures that can be caught -/

/-- From `s`, the run returns or fails with a failure that `caught` admits. -/
def FailsOnly (caught : ε → Prop) (m : Exec ε σ α) (s : σ) : Prop :=
  ∀ e s', m.run s = .error e s' → caught e

section FailsOnly

variable {caught : ε → Prop}

/-- What returns does not fail. -/
theorem failsOnly_of_ok {m : Exec ε σ α} {s s' : σ} {a : α} (h : m.run s = .ok a s') :
    FailsOnly caught m s := by
  intro e t he
  rw [h] at he
  cases he

/-- Without failures that are caught, a run returns. -/
theorem failsOnly_false {m : Exec ε σ α} {s : σ} :
    FailsOnly (fun _ => False) m s ↔ ∃ a s', m.run s = .ok a s' := by
  unfold FailsOnly
  cases m.run s <;> simp

theorem failsOnly_pure (a : α) (s : σ) : FailsOnly caught (pure a : Exec ε σ α) s :=
  failsOnly_of_ok rfl

theorem failsOnly_modify (f : σ → σ) (s : σ) :
    FailsOnly caught (modify f : Exec ε σ PUnit) s :=
  failsOnly_of_ok rfl

/-- An exception is caught or not. -/
theorem failsOnly_throw {e : ε} {s : σ} :
    FailsOnly caught (throw e : Exec ε σ α) s ↔ caught e := by
  unfold FailsOnly
  rw [run_throw]
  simp

theorem failsOnly_when {c : Prop} [Decidable c] {m : Exec ε σ Unit} {s : σ} :
    FailsOnly caught (when c m) s ↔ (c → FailsOnly caught m s) := by
  unfold when
  split_ifs with h
  · simp [h]
  · simp [h, failsOnly_pure]

theorem failsOnly_throwIf {c : Prop} [Decidable c] {e : ε} {s : σ} :
    FailsOnly caught (throwIf c e : Exec ε σ Unit) s ↔ (c → caught e) := by
  rw [throwIf, failsOnly_when, failsOnly_throw]

theorem failsOnly_require {o : Option α} {e : ε} {s : σ} :
    FailsOnly caught (require o e : Exec ε σ α) s ↔ (o = none → caught e) := by
  cases o with
  | none => simp [require, failsOnly_throw]
  | some a => simp [require, failsOnly_pure]

/-- A sequence fails only so if both parts do. -/
theorem failsOnly_bind {m : Exec ε σ α} {f : α → Exec ε σ β} {s : σ} :
    FailsOnly caught (m >>= f) s ↔
      FailsOnly caught m s ∧ ∀ a s', m.run s = .ok a s' → FailsOnly caught (f a) s' := by
  unfold FailsOnly
  rw [EStateM.run_bind]
  cases m.run s with
  | ok a s' => simp
  | error e s' => simp

/-- A first part that returns. -/
theorem failsOnly_bind_of_ok {m : Exec ε σ α} {f : α → Exec ε σ β} {s s' : σ} {a : α}
    (h : m.run s = .ok a s') : FailsOnly caught (m >>= f) s ↔ FailsOnly caught (f a) s' := by
  rw [failsOnly_bind, h]
  simp [failsOnly_of_ok h]

theorem failsOnly_gets_bind {g : σ → α} {f : α → Exec ε σ β} {s : σ} :
    FailsOnly caught (gets g >>= f) s ↔ FailsOnly caught (f (g s)) s :=
  failsOnly_bind_of_ok (run_gets g s)

theorem failsOnly_modify_bind {g : σ → σ} {f : PUnit → Exec ε σ β} {s : σ} :
    FailsOnly caught (modify g >>= f) s ↔ FailsOnly caught (f ⟨⟩) (g s) :=
  failsOnly_bind_of_ok rfl

/-- On a part a computation fails as it does there. -/
theorem failsOnly_zoom {get : τ → σ} {set : σ → τ → τ} {m : Exec ε σ α} {t : τ} :
    FailsOnly caught (zoom get set m) t ↔ FailsOnly caught m (get t) := by
  unfold FailsOnly
  rw [run_zoom]
  cases m.run (get t) <;> simp

/-- What is caught is answered. -/
theorem failsOnly_catching {handled : ε → Prop} [DecidablePred handled] {m : Exec ε σ α}
    {handler : ε → Exec ε σ α} {s : σ}
    (h : ∀ e s', handled e → FailsOnly (fun _ => False) (handler e) s') :
    FailsOnly (fun _ => False) (catching handled m handler) s ↔ FailsOnly handled m s := by
  have hrun : (catching handled m handler).run s = match m.run s with
    | .ok a s' => .ok a s'
    | .error e s' => if handled e then (handler e).run s' else .error e s' := rfl
  unfold FailsOnly
  rw [hrun]
  cases m.run s with
  | ok a s' => simp
  | error e s' =>
    by_cases he : handled e
    · simpa [he, FailsOnly] using h e s' he
    · simp [he]

/-- A loop goes on after the rounds that return. -/
theorem failsOnly_forM_cons {f : α → Exec ε σ PUnit} {x : α} {xs : List α} {s : σ} :
    FailsOnly caught (forM (x :: xs) f) s ↔ FailsOnly caught (f x) s ∧
      ∀ s', (f x).run s = .ok PUnit.unit s' → FailsOnly caught (forM xs f) s' := by
  rw [List.forM_cons, failsOnly_bind]
  exact and_congr_right fun _ => ⟨fun h s' => h PUnit.unit s', fun h _ s' => h s'⟩

end FailsOnly

/-! ## What a computation can do to the state -/

/-- From `s`, short of a `fatal` failure, the state moves along `R`, and a failure means `E`. -/
def FrameAt (fatal : ε → Prop) (E : Prop) (R : σ → σ → Prop) (m : Exec ε σ α) (s : σ) : Prop :=
  match m.run s with
  | .ok _ s' => R s s'
  | .error e s' => fatal e ∨ E ∧ R s s'

/-- The same from every state. -/
def Frame (fatal : ε → Prop) (E : Prop) (R : σ → σ → Prop) (m : Exec ε σ α) : Prop :=
  ∀ s, FrameAt fatal E R m s

section Frame

variable {fatal : ε → Prop} {E E' : Prop} {R R' : σ → σ → Prop}

/-- What a frame says about a run that returns. -/
theorem FrameAt.of_ok {m : Exec ε σ α} {s s' : σ} {a : α} (h : FrameAt fatal E R m s)
    (hm : m.run s = .ok a s') : R s s' := by
  simpa [FrameAt, hm] using h

/-- What it says about one that throws. -/
theorem FrameAt.of_error {m : Exec ε σ α} {s s' : σ} {e : ε} (h : FrameAt fatal E R m s)
    (hm : m.run s = .error e s') (he : ¬fatal e) : E ∧ R s s' := by
  simpa [FrameAt, hm, he] using h

/-- What it says about a call that settles. -/
theorem FrameAt.of_settle [DecidablePred fatal] {m : Exec ε σ α} {s s' : σ}
    (h : FrameAt fatal E R m s) (hm : settle fatal m s = some s') : R s s' := by
  rcases settle_eq_some.1 hm with ⟨a, hm⟩ | ⟨e, he, hm⟩
  · exact h.of_ok hm
  · exact (h.of_error hm he).2

/-- Where every failure is fatal, a run that goes on has returned. -/
theorem FrameAt.exists_ok [DecidablePred fatal] {m : Exec ε σ α} {s s' : σ}
    (h : FrameAt fatal False R m s) (hm : settle fatal m s = some s') :
    ∃ a, m.run s = .ok a s' := by
  rcases settle_eq_some.1 hm with hm | ⟨e, he, hm⟩
  · exact hm
  · exact (h.of_error hm he).1.elim

/-- A frame may say less. -/
theorem FrameAt.mono {m : Exec ε σ α} {s : σ} (h : FrameAt fatal E R m s) (hE : E → E')
    (hR : ∀ s', R s s' → R' s s') : FrameAt fatal E' R' m s := by
  unfold FrameAt at h ⊢
  cases hm : m.run s with
  | ok a s' => exact hR s' (by simpa [hm] using h)
  | error e s' =>
    simp only [hm] at h ⊢
    exact h.imp_right (And.imp hE (hR s'))

/-- Where nothing that happens is caught, a run returns. -/
theorem FrameAt.failsOnly_iff {m : Exec ε σ α} {s : σ} {caught : ε → Prop}
    (h : FrameAt fatal False R m s) (hfatal : ∀ e, fatal e → ¬caught e) :
    FailsOnly caught m s ↔ ∃ a s', m.run s = .ok a s' := by
  unfold FrameAt at h
  unfold FailsOnly
  cases hm : m.run s with
  | ok a s' => simp
  | error e s' =>
    rw [hm] at h
    simpa using hfatal e (h.resolve_right fun h => h.1)

/-- A computation that only fails fatally moves as its runs that return. -/
theorem frame_of_ok {m : Exec ε σ α} (h : Frame fatal False (fun _ _ => True) m)
    (hR : ∀ s a s', m.run s = .ok a s' → R s s') : Frame fatal E R m := by
  intro s
  have hs := h s
  unfold FrameAt at hs ⊢
  cases hm : m.run s with
  | ok a s' => exact hR s a s' hm
  | error e s' =>
    rw [hm] at hs
    exact Or.inl (hs.resolve_right fun h => h.1)

/-- Where every failure is fatal, the runs that return decide. -/
theorem frame_of_returns {m : Exec ε σ α} (hR : ∀ s a s', m.run s = .ok a s' → R s s') :
    Frame (fun _ => True) E R m := by
  refine frame_of_ok (fun s => ?_) hR
  unfold FrameAt
  cases m.run s <;> simp

/-- Nothing is said about the state. -/
theorem frame_true (m : Exec ε σ α) : Frame fatal True (fun _ _ => True) m := by
  intro s
  unfold FrameAt
  cases m.run s <;> simp

/-- A change along the relation. -/
theorem frame_modify {f : σ → σ} (h : ∀ s, R s (f s)) :
    Frame fatal E R (modify f : Exec ε σ PUnit) :=
  fun s => h s

/-- A frame of the part is one of the whole. -/
theorem FrameAt.zoom {S : τ → τ → Prop} {get : τ → σ} {set : σ → τ → τ} {m : Exec ε σ α} {t : τ}
    (h : FrameAt fatal E R m (get t)) (hS : ∀ s', R (get t) s' → S t (set s' t)) :
    FrameAt fatal E S (zoom get set m) t := by
  unfold FrameAt at h ⊢
  rw [run_zoom]
  cases hs : m.run (get t) with
  | ok a s => exact hS s (by simpa [hs] using h)
  | error e s =>
    simp only [hs] at h ⊢
    exact h.imp_right (And.imp_right (hS s))

instance : IsPreorder σ fun _ _ => True where
  refl := fun _ => trivial
  trans := fun _ _ _ _ _ => trivial

variable [IsPreorder σ R]

theorem frame_gets (f : σ → α) : Frame fatal E R (gets f : Exec ε σ α) :=
  fun s => refl_of R s

theorem frame_pure (a : α) : Frame fatal E R (pure a : Exec ε σ α) :=
  fun s => refl_of R s

theorem frame_throw {e : ε} (h : fatal e ∨ E) : Frame fatal E R (throw e : Exec ε σ α) :=
  fun s => h.imp_right fun hE => ⟨hE, refl_of R s⟩

omit [IsPreorder σ R] in
theorem frame_ite {c : Prop} [Decidable c] {m m' : Exec ε σ α} (h : c → Frame fatal E R m)
    (h' : ¬c → Frame fatal E R m') : Frame fatal E R (if c then m else m') := by
  split_ifs with hc
  · exact h hc
  · exact h' hc

theorem frame_when {c : Prop} [Decidable c] {m : Exec ε σ Unit} (h : c → Frame fatal E R m) :
    Frame fatal E R (when c m) := by
  unfold when
  split_ifs with hc
  · exact h hc
  · exact frame_pure ()

theorem frame_throwIf {c : Prop} [Decidable c] {e : ε} (h : c → fatal e ∨ E) :
    Frame fatal E R (throwIf c e : Exec ε σ Unit) :=
  frame_when fun hc => frame_throw (h hc)

theorem frame_require {o : Option α} {e : ε} (h : o = none → fatal e ∨ E) :
    Frame fatal E R (require o e : Exec ε σ α) := by
  cases o with
  | none => exact frame_throw (h rfl)
  | some a => exact frame_pure a

/-- The first part may have moved from an earlier state. -/
theorem FrameAt.bind_from {m : Exec ε σ α} {f : α → Exec ε σ β} {s s₀ : σ}
    (hm : FrameAt fatal E (fun _ => R s₀) m s)
    (hf : ∀ a s', m.run s = .ok a s' → R s₀ s' → FrameAt fatal E R (f a) s') :
    FrameAt fatal E (fun _ => R s₀) (m >>= f) s := by
  unfold FrameAt at hm ⊢
  rw [EStateM.run_bind]
  cases hs : m.run s with
  | error e s' => simpa [hs] using hm
  | ok a s' =>
    simp only [hs] at hm ⊢
    have h' : FrameAt fatal E (fun _ => R s₀) (f a) s' :=
      (hf a s' hs hm).mono id fun _ => trans_of R hm
    exact h'

/-- The rest of a computation starts where a run of the first part ended. -/
theorem FrameAt.bind {m : Exec ε σ α} {f : α → Exec ε σ β} {s : σ}
    (hm : FrameAt fatal E R m s)
    (hf : ∀ a s', m.run s = .ok a s' → R s s' → FrameAt fatal E R (f a) s') :
    FrameAt fatal E R (m >>= f) s :=
  FrameAt.bind_from hm hf

/-- A first part that returns only moves the start. -/
theorem FrameAt.bind_of_eq_ok {m : Exec ε σ α} {f : α → Exec ε σ β} {s s₁ : σ} {a : α}
    (hm : m.run s = .ok a s₁) (hf : FrameAt fatal E (fun _ => R' s) (f a) s₁) :
    FrameAt fatal E R' (m >>= f) s := by
  unfold FrameAt at hf ⊢
  rw [EStateM.run_bind, hm]
  exact hf

omit [IsPreorder σ R] in
/-- A first part whose failures are all fatal. -/
theorem FrameAt.bind_of_fatal {m : Exec ε σ α} {f : α → Exec ε σ β} {s : σ}
    (hm : FrameAt fatal False R m s)
    (hf : ∀ a s', m.run s = .ok a s' → R s s' → FrameAt fatal E (fun _ => R' s) (f a) s') :
    FrameAt fatal E R' (m >>= f) s := by
  cases hs : m.run s with
  | ok a s' => exact FrameAt.bind_of_eq_ok hs (hf a s' hs (hm.of_ok hs))
  | error e s' =>
    unfold FrameAt at hm ⊢
    rw [hs] at hm
    rw [EStateM.run_bind, hs]
    exact Or.inl (hm.resolve_right fun h => h.1)

/-- Frames one after the other. -/
theorem Frame.bind {m : Exec ε σ α} {f : α → Exec ε σ β}
    (hm : Frame fatal E R m) (hf : ∀ a, Frame fatal E R (f a)) : Frame fatal E R (m >>= f) :=
  fun s => (hm s).bind fun a s' _ _ => hf a s'

/-- What is caught is not fatal, and the handler goes on from where the exception was thrown. -/
theorem FrameAt.catching {fatal' : ε → Prop} {caught : ε → Prop} [DecidablePred caught]
    {m : Exec ε σ α} {handler : ε → Exec ε σ α} {s : σ} (hm : FrameAt fatal' True R m s)
    (hcaught : ∀ e, caught e → ¬fatal' e) (hrest : ∀ e, ¬caught e → fatal e)
    (hh : ∀ e, caught e → Frame fatal E R (handler e)) :
    FrameAt fatal E R (catching caught m handler) s := by
  have hrun : (Exec.catching caught m handler).run s = match m.run s with
      | .ok a s' => .ok a s'
      | .error e s' => if caught e then (handler e).run s' else .error e s' := rfl
  unfold FrameAt at hm ⊢
  rw [hrun]
  cases hs : m.run s with
  | ok a s' => simpa [hs] using hm
  | error e s' =>
    by_cases he : caught e
    · simp only [hs] at hm
      have hR := (hm.resolve_left (hcaught e he)).2
      have h' : FrameAt fatal E (fun _ => R s) (handler e) s' :=
        (hh e he s').mono id fun _ => trans_of R hR
      simp only [if_pos he]
      exact h'
    · simp only [if_neg he]
      exact Or.inl (hrest e he)

/-- A loop, with an invariant that every round that returns keeps. -/
theorem frameAt_forM {f : α → Exec ε σ PUnit} {I : σ → Prop} {xs : List α}
    (hI : ∀ x ∈ xs, ∀ s u s', I s → (f x).run s = .ok u s' → I s')
    (h : ∀ x ∈ xs, ∀ s, I s → FrameAt fatal E R (f x) s) {s : σ} (hs : I s) :
    FrameAt fatal E R (forM xs f) s := by
  induction xs generalizing s with
  | nil => exact frame_pure _ s
  | cons x xs ih =>
    rw [List.forM_cons]
    exact (h x (by simp) s hs).bind fun u s' hrun _ =>
      ih (fun y hy => hI y (by simp [hy])) (fun y hy => h y (by simp [hy]))
        (hI x (by simp) s u s' hs hrun)

/-- A loop has the frame of its rounds. -/
theorem frame_forM {f : α → Exec ε σ PUnit} {xs : List α}
    (h : ∀ x ∈ xs, Frame fatal E R (f x)) : Frame fatal E R (forM xs f) :=
  fun _ => frameAt_forM (I := fun _ => True) (fun _ _ _ _ _ _ _ => trivial)
    (fun x hx s _ => h x hx s) trivial

/-- So has a loop that collects. -/
theorem frame_mapM {f : β → Exec ε σ α} {xs : List β} (h : ∀ x ∈ xs, Frame fatal E R (f x)) :
    Frame fatal E R (xs.mapM f) := by
  induction xs with
  | nil => exact frame_pure []
  | cons x xs ih =>
    rw [List.mapM_cons]
    exact (h x (by simp)).bind fun _ =>
      (ih fun y hy => h y (by simp [hy])).bind fun _ => frame_pure _

end Frame

/-! ## What the runs that return do -/

/-- A run that returns moves the state along `R`. -/
abbrev Moves (R : σ → σ → Prop) (m : Exec ε σ α) : Prop :=
  Frame (fun _ => True) True R m

section Moves

variable {R R' : σ → σ → Prop}

/-- A run that returns has moved. -/
theorem Moves.of_ok {m : Exec ε σ α} (h : Moves R m) {s s' : σ} {a : α}
    (hm : m.run s = .ok a s') : R s s' :=
  (h s).of_ok hm

/-- A computation may move less narrowly. -/
theorem Moves.mono {m : Exec ε σ α} (h : Moves R m) (hR : ∀ s s', R s s' → R' s s') :
    Moves R' m :=
  frame_of_returns fun s _ s' hm => hR s s' (h.of_ok hm)

/-- The whole moves as its part. -/
theorem moves_zoom {S : τ → τ → Prop} {get : τ → σ} {set : σ → τ → τ} {m : Exec ε σ α}
    (h : Moves R m) (hS : ∀ t s', R (get t) s' → S t (set s' t)) : Moves S (zoom get set m) :=
  fun t => (h (get t)).zoom (hS t)

/-! A failure is one of the frame, whether it is fatal or not. -/

variable [IsPreorder σ R] {fatal : ε → Prop}

theorem moves_throw (e : ε) : Frame fatal True R (throw e : Exec ε σ α) :=
  frame_throw (Or.inr trivial)

theorem moves_throwIf (c : Prop) [Decidable c] (e : ε) :
    Frame fatal True R (throwIf c e : Exec ε σ Unit) :=
  frame_throwIf fun _ => Or.inr trivial

theorem moves_require (o : Option α) (e : ε) : Frame fatal True R (require o e : Exec ε σ α) :=
  frame_require fun _ => Or.inr trivial

theorem moves_ofExcept (x : Except ε α) : Frame fatal True R (ofExcept x : Exec ε σ α) := by
  cases x with
  | ok a => exact frame_pure a
  | error e => exact moves_throw e

end Moves

/-! ## Results that leave the state alone -/

/-- A run with a `bad` result leaves the state as it was. -/
def Inert (bad : α → Prop) (m : Exec ε σ α) : Prop :=
  ∀ s a s', m.run s = .ok a s' → bad a → s' = s

section Inert

variable {bad : α → Prop}

/-- What keeps the state is inert. -/
theorem inert_of_moves {m : Exec ε σ α} (h : Moves Eq m) : Inert bad m :=
  fun _ _ _ hrun _ => (h.of_ok hrun).symm

/-- So is what never returns a bad value. -/
theorem inert_of_returns {m : Exec ε σ α} (h : Returns (fun a => ¬bad a) m) : Inert bad m :=
  fun s a s' hrun hbad => absurd hbad (h s a s' hrun)

theorem inert_pure (a : α) : Inert bad (pure a : Exec ε σ α) :=
  inert_of_moves (frame_pure a)

/-- Both branches are. -/
theorem inert_ite {c : Prop} [Decidable c] {m m' : Exec ε σ α} (h : Inert bad m)
    (h' : Inert bad m') : Inert bad (if c then m else m') := by
  split_ifs
  · exact h
  · exact h'

/-- What is done before only reads. -/
theorem inert_bind {m : Exec ε σ β} {f : β → Exec ε σ α} (hm : Moves Eq m)
    (hf : ∀ b, Inert bad (f b)) : Inert bad (m >>= f) := by
  intro s a s'' hrun hbad
  obtain ⟨b, s', hs, hrest⟩ := bind_eq_ok.1 hrun
  obtain rfl := hm.of_ok hs
  exact hf b s a s'' hrest hbad

/-- What is done last gives no bad result. -/
theorem returns_bind_pure {p : α → Prop} {m : Exec ε σ β} {f : β → α} (h : ∀ b, p (f b)) :
    Returns p (m >>= fun b => pure (f b)) :=
  returns_bind fun b _ => returns_pure (h b)

end Inert

end Exec
