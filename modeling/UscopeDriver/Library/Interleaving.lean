import UscopeDriver.Library.Exec
import Mathlib.Logic.Equiv.Defs

/-!
# Two services behind one loop

A state in two parts (`P`), and requests that each go to one of them (`fst`). The loop over the
requests then is two loops, one on each part, over the requests for it : it returns exactly when
both do, with their results in their places (`mapM_interleaved`). So every interleaving of two
streams of requests has the results and the final state of any other (`mapM_interleavings`).
-/

namespace Exec

variable {ε σ α β γ ι ρ : Type}

section Parts

variable (P : σ ≃ α × β)

/-- A computation on the first part of a state. -/
def onFst (m : Exec ε α γ) : Exec ε σ γ :=
  zoom (fun s => (P s).1) (fun a s => P.symm (a, (P s).2)) m

/-- A computation on the second part of a state. -/
def onSnd (m : Exec ε β γ) : Exec ε σ γ :=
  zoom (fun s => (P s).2) (fun b s => P.symm ((P s).1, b)) m

theorem onSnd_ofExcept (x : Except ε γ) : onSnd P (ofExcept x) = ofExcept x := by
  refine ext_run fun s => ?_
  cases x with
  | ok c => exact congrArg (EStateM.Result.ok c) (P.symm_apply_apply s)
  | error e => exact congrArg (EStateM.Result.error e) (P.symm_apply_apply s)

theorem onSnd_bind_pure (m : Exec ε β γ) (k : γ → ρ) :
    onSnd P (m >>= fun c => pure (k c)) = onSnd P m >>= fun c => pure (k c) := by
  refine ext_run fun s => ?_
  rw [onSnd, onSnd, run_zoom, EStateM.run_bind, EStateM.run_bind, run_zoom]
  cases m.run (P s).2 <;> rfl

theorem onFst_bind_pure (m : Exec ε α γ) (k : γ → ρ) :
    onFst P (m >>= fun c => pure (k c)) = onFst P m >>= fun c => pure (k c) := by
  refine ext_run fun s => ?_
  rw [onFst, onFst, run_zoom, EStateM.run_bind, EStateM.run_bind, run_zoom]
  cases m.run (P s).1 <;> rfl

/-- A component of the second part is a component of the whole. -/
theorem onSnd_zoom (get : β → ρ) (set : ρ → β → β) (m : Exec ε ρ γ) :
    onSnd P (zoom get set m) =
      zoom (fun s => get (P s).2) (fun r s => P.symm ((P s).1, set r (P s).2)) m := by
  refine ext_run fun s => ?_
  rw [onSnd, run_zoom, run_zoom, run_zoom]
  cases m.run (get (P s).2) <;> rfl

variable {P} {s s' : σ} {c : γ}

/-- A call on the first part keeps the second. -/
theorem onFst_eq_ok {m : Exec ε α γ} : (onFst P m).run s = .ok c s' ↔
    m.run (P s).1 = .ok c (P s').1 ∧ (P s').2 = (P s).2 := by
  rw [onFst, zoom_eq_ok]
  constructor
  · rintro ⟨a, hrun, rfl⟩
    rw [P.apply_symm_apply]
    exact ⟨hrun, rfl⟩
  · rintro ⟨hrun, hsnd⟩
    rw [← hsnd]
    exact ⟨_, hrun, (P.symm_apply_apply s').symm⟩

/-- A call on the second part keeps the first. -/
theorem onSnd_eq_ok {m : Exec ε β γ} : (onSnd P m).run s = .ok c s' ↔
    m.run (P s).2 = .ok c (P s').2 ∧ (P s').1 = (P s).1 := by
  rw [onSnd, zoom_eq_ok]
  constructor
  · rintro ⟨b, hrun, rfl⟩
    rw [P.apply_symm_apply]
    exact ⟨hrun, rfl⟩
  · rintro ⟨hrun, hfst⟩
    rw [← hfst]
    exact ⟨_, hrun, (P.symm_apply_apply s').symm⟩

end Parts

/-! ## The results of some requests -/

/-- The results of the requests that `p` selects. -/
def resultsOf (p : ι → Bool) (xs : List ι) (rs : List γ) : List γ :=
  ((xs.zip rs).filter fun x => p x.1).map Prod.snd

section Results

variable {p : ι → Bool} {x : ι}

theorem resultsOf_cons_pos (h : p x = true) (xs : List ι) (r : γ) (rs : List γ) :
    resultsOf p (x :: xs) (r :: rs) = r :: resultsOf p xs rs := by
  simp [resultsOf, h]

theorem resultsOf_cons_neg (h : p x = false) (xs : List ι) (r : γ) (rs : List γ) :
    resultsOf p (x :: xs) (r :: rs) = resultsOf p xs rs := by
  simp [resultsOf, h]

/-- There is a result for each element. -/
theorem length_resultsOf {xs : List ι} {rs : List γ} (h : rs.length = xs.length) :
    (resultsOf p xs rs).length = (xs.filter p).length := by
  induction xs generalizing rs with
  | nil => simp [resultsOf]
  | cons x xs ih =>
    obtain ⟨r, rs, rfl⟩ := List.exists_cons_of_length_eq_add_one h
    cases hx : p x with
    | true =>
      rw [resultsOf_cons_pos hx, List.filter_cons_of_pos hx, List.length_cons, List.length_cons,
        ih (Nat.succ.inj h)]
    | false =>
      rw [resultsOf_cons_neg hx, List.filter_cons_of_neg (by simp [hx]), ih (Nat.succ.inj h)]

/-- Results for the requests of both kinds fit together. -/
theorem exists_resultsOf {xs : List ι} {as bs : List γ} (ha : as.length = (xs.filter p).length)
    (hb : bs.length = (xs.filter (!p ·)).length) : ∃ rs : List γ, rs.length = xs.length ∧
      resultsOf p xs rs = as ∧ resultsOf (!p ·) xs rs = bs := by
  induction xs generalizing as bs with
  | nil =>
    obtain rfl := List.length_eq_zero_iff.1 ha
    obtain rfl := List.length_eq_zero_iff.1 hb
    exact ⟨[], rfl, rfl, rfl⟩
  | cons x xs ih =>
    cases hx : p x with
    | true =>
      rw [List.filter_cons_of_pos hx, List.length_cons] at ha
      rw [List.filter_cons_of_neg (by simp [hx])] at hb
      obtain ⟨a, as, rfl⟩ := List.exists_cons_of_length_eq_add_one ha
      obtain ⟨rs, hlength, hfst, hsnd⟩ := ih (Nat.succ.inj ha) hb
      refine ⟨a :: rs, congrArg (· + 1) hlength, ?_, ?_⟩
      · rw [resultsOf_cons_pos hx, hfst]
      · rw [resultsOf_cons_neg (by simp [hx]), hsnd]
    | false =>
      rw [List.filter_cons_of_neg (by simp [hx])] at ha
      rw [List.filter_cons_of_pos (by simp [hx]), List.length_cons] at hb
      obtain ⟨b, bs, rfl⟩ := List.exists_cons_of_length_eq_add_one hb
      obtain ⟨rs, hlength, hfst, hsnd⟩ := ih ha (Nat.succ.inj hb)
      refine ⟨b :: rs, congrArg (· + 1) hlength, ?_, ?_⟩
      · rw [resultsOf_cons_neg hx, hfst]
      · rw [resultsOf_cons_pos (by simp [hx]), hsnd]

end Results

/-! ## The loop -/

theorem mapM_nil_eq_ok {f : ι → Exec ε σ γ} {rs : List γ} {s s' : σ} :
    (([] : List ι).mapM f).run s = .ok rs s' ↔ rs = [] ∧ s' = s := by
  rw [List.mapM_nil, pure_eq_ok]

/-- A list of calls returns if the first call and the rest do. -/
theorem mapM_cons_eq_ok {f : ι → Exec ε σ γ} {x : ι} {xs : List ι} {rs : List γ} {s s' : σ} :
    ((x :: xs).mapM f).run s = .ok rs s' ↔ ∃ r rs' t, rs = r :: rs' ∧ (f x).run s = .ok r t ∧
      (xs.mapM f).run t = .ok rs' s' := by
  rw [List.mapM_cons, bind_eq_ok]
  constructor
  · rintro ⟨r, t, hx, hrest⟩
    obtain ⟨rs', t', hxs, hpure⟩ := bind_eq_ok.1 hrest
    obtain ⟨rfl, rfl⟩ := pure_eq_ok.1 hpure
    exact ⟨r, rs', t, rfl, hx, hxs⟩
  · rintro ⟨r, rs', t, rfl, hx, hxs⟩
    exact ⟨r, t, hx, bind_eq_ok.2 ⟨rs', s', hxs, rfl⟩⟩

section Interleaved

variable {P : σ ≃ α × β} {f : ι → Exec ε σ γ} {g : ι → Exec ε α γ} {h : ι → Exec ε β γ}
  {fst : ι → Bool}

/-- A loop over requests that each go to one part is two loops. -/
theorem mapM_interleaved (hf : ∀ x, f x = if fst x then onFst P (g x) else onSnd P (h x))
    {xs : List ι} {rs : List γ} {s s' : σ} :
    (xs.mapM f).run s = .ok rs s' ↔ rs.length = xs.length ∧
      ((xs.filter fst).mapM g).run (P s).1 = .ok (resultsOf fst xs rs) (P s').1 ∧
      ((xs.filter (!fst ·)).mapM h).run (P s).2 = .ok (resultsOf (!fst ·) xs rs) (P s').2 := by
  induction xs generalizing s rs with
  | nil =>
    rw [mapM_nil_eq_ok]
    constructor
    · rintro ⟨rfl, rfl⟩
      exact ⟨rfl, rfl, rfl⟩
    · rintro ⟨hlength, hfst, hsnd⟩
      obtain rfl := List.length_eq_zero_iff.1 hlength
      exact ⟨rfl, P.injective (Prod.ext (mapM_nil_eq_ok.1 hfst).2 (mapM_nil_eq_ok.1 hsnd).2)⟩
  | cons x xs ih =>
    rw [mapM_cons_eq_ok]
    cases hx : fst x with
    | true =>
      have hsnd' : (!fst x) = false := by simp [hx]
      have hfilter : (x :: xs).filter (!fst ·) = xs.filter (!fst ·) :=
        List.filter_cons_of_neg (by simp [hx])
      have hfx : f x = onFst P (g x) := by rw [hf, if_pos hx]
      simp only [hfx, onFst_eq_ok, ih, List.filter_cons_of_pos hx, hfilter]
      constructor
      · rintro ⟨r, rs, t, rfl, ⟨hrun, hkept⟩, hlength, hfst, hsnd⟩
        rw [resultsOf_cons_pos hx, resultsOf_cons_neg (p := (!fst ·)) hsnd', ← hkept]
        exact ⟨congrArg (· + 1) hlength, mapM_cons_eq_ok.2 ⟨r, _, _, rfl, hrun, hfst⟩, hsnd⟩
      · rintro ⟨hlength, hfst, hsnd⟩
        obtain ⟨r, rs, rfl⟩ := List.exists_cons_of_length_eq_add_one hlength
        rw [resultsOf_cons_pos hx] at hfst
        rw [resultsOf_cons_neg (p := (!fst ·)) hsnd'] at hsnd
        obtain ⟨r, rs', a, heq, hrun, hrest⟩ := mapM_cons_eq_ok.1 hfst
        obtain ⟨rfl, rfl⟩ := List.cons.inj heq
        refine ⟨_, rs, P.symm (a, (P s).2), rfl, ?_, Nat.succ.inj hlength, ?_, ?_⟩ <;>
          rw [P.apply_symm_apply]
        · exact ⟨hrun, rfl⟩
        · exact hrest
        · exact hsnd
    | false =>
      have hsnd' : (!fst x) = true := by simp [hx]
      have hfilter : (x :: xs).filter (!fst ·) = x :: xs.filter (!fst ·) :=
        List.filter_cons_of_pos (by simp [hx])
      have hfx : f x = onSnd P (h x) := by rw [hf, if_neg (by simp [hx])]
      simp only [hfx, onSnd_eq_ok, ih, List.filter_cons_of_neg (Bool.not_eq_true _ ▸ hx), hfilter]
      constructor
      · rintro ⟨r, rs, t, rfl, ⟨hrun, hkept⟩, hlength, hfst, hsnd⟩
        rw [resultsOf_cons_neg hx, resultsOf_cons_pos (p := (!fst ·)) hsnd', ← hkept]
        exact ⟨congrArg (· + 1) hlength, hfst, mapM_cons_eq_ok.2 ⟨r, _, _, rfl, hrun, hsnd⟩⟩
      · rintro ⟨hlength, hfst, hsnd⟩
        obtain ⟨r, rs, rfl⟩ := List.exists_cons_of_length_eq_add_one hlength
        rw [resultsOf_cons_neg hx] at hfst
        rw [resultsOf_cons_pos (p := (!fst ·)) hsnd'] at hsnd
        obtain ⟨r, rs', b, heq, hrun, hrest⟩ := mapM_cons_eq_ok.1 hsnd
        obtain ⟨rfl, rfl⟩ := List.cons.inj heq
        refine ⟨_, rs, P.symm ((P s).1, b), rfl, ?_, Nat.succ.inj hlength, ?_, ?_⟩ <;>
          rw [P.apply_symm_apply]
        · exact ⟨hrun, rfl⟩
        · exact hfst
        · exact hrest

/-- Two interleavings of the same requests have the same results and the same final state. -/
theorem mapM_interleavings (hf : ∀ x, f x = if fst x then onFst P (g x) else onSnd P (h x))
    {xs ys : List ι} (hfst : xs.filter fst = ys.filter fst)
    (hsnd : xs.filter (!fst ·) = ys.filter (!fst ·)) {rs : List γ} {s s' : σ}
    (hrun : (xs.mapM f).run s = .ok rs s') : ∃ rs' : List γ,
      (ys.mapM f).run s = .ok rs' s' ∧ resultsOf fst ys rs' = resultsOf fst xs rs ∧
      resultsOf (!fst ·) ys rs' = resultsOf (!fst ·) xs rs := by
  obtain ⟨hlength, hfirst, hsecond⟩ := (mapM_interleaved hf).1 hrun
  have hfirsts : (resultsOf fst xs rs).length = (ys.filter fst).length := by
    rw [length_resultsOf hlength, hfst]
  have hseconds : (resultsOf (!fst ·) xs rs).length = (ys.filter (!fst ·)).length := by
    rw [length_resultsOf hlength, hsnd]
  obtain ⟨rs', hlength', heq, heq'⟩ := exists_resultsOf hfirsts hseconds
  refine ⟨rs', (mapM_interleaved hf).2 ⟨hlength', ?_, ?_⟩, heq, heq'⟩
  · rw [heq, ← hfst]
    exact hfirst
  · rw [heq', ← hsnd]
    exact hsecond

end Interleaved

end Exec
