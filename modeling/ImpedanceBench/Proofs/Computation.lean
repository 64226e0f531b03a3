import Mathlib.Data.List.Forall2

/-!
Computations that may fail and keep a state, whatever becomes of them, and what becomes of a list
whose elements are gone through one by one.
-/

namespace ImpedanceBench

variable {ε S α β : Type}

lemma run_bind (m : ExceptT ε (StateM S) α) (f : α → ExceptT ε (StateM S) β) (s : S) :
    (m >>= f).run.run s = match m.run.run s with
      | (.ok a, s₁) => (f a).run.run s₁
      | (.error e, s₁) => (.error e, s₁) := by
  change (ExceptT.bindCont f (m.run.run s).1).run (m.run.run s).2 = _
  rcases m.run.run s with ⟨_ | _, _⟩ <;> rfl

lemma run_map (g : α → β) (m : ExceptT ε (StateM S) α) (s : S) :
    (g <$> m).run.run s = ((m.run.run s).1.map g, (m.run.run s).2) := by
  rw [map_eq_pure_bind, run_bind]
  rcases m.run.run s with ⟨_ | _, _⟩ <;> rfl

lemma run_tryCatch (m : ExceptT ε (StateM S) α) (handle : ε → ExceptT ε (StateM S) α) (s : S) :
    (tryCatch m handle).run.run s = match m.run.run s with
      | (.ok a, s₁) => (.ok a, s₁)
      | (.error e, s₁) => (handle e).run.run s₁ := by
  rw [ExceptT.run_tryCatch, StateT.run_bind]
  rcases m.run.run s with ⟨_ | _, _⟩ <;> rfl

/-- A computation in two parts that succeeds has succeeded in both. -/
lemma parts_of_bind_eq_ok {m : ExceptT ε (StateM S) α} {f : α → ExceptT ε (StateM S) β} {s : S}
    {b : β} (h : ((m >>= f).run.run s).1 = .ok b) :
    ∃ a s₁, m.run.run s = (.ok a, s₁) ∧ ((f a).run.run s₁).1 = .ok b := by
  rw [run_bind] at h
  rcases hm : m.run.run s with ⟨e | a, s₁⟩ <;> rw [hm] at h
  · cases h
  · exact ⟨a, s₁, rfl, h⟩

/-- The computation leaves what `f` reads of the state as it is, also when it fails. -/
def Fixes {γ : Type} (f : S → γ) (m : ExceptT ε (StateM S) α) : Prop :=
  ∀ s, f (m.run.run s).2 = f s

namespace Fixes

variable {γ : Type} {f : S → γ}

lemma pure (a : α) : Fixes f (pure a : ExceptT ε (StateM S) α) := fun _ => rfl

lemma throw (e : ε) : Fixes f (throw e : ExceptT ε (StateM S) α) := fun _ => rfl

lemma bind {m : ExceptT ε (StateM S) α} {k : α → ExceptT ε (StateM S) β} (hm : Fixes f m)
    (hk : ∀ a, Fixes f (k a)) : Fixes f (m >>= k) := by
  intro s
  have hfixed := hm s
  rw [run_bind]
  rcases hrun : m.run.run s with ⟨e | a, s₁⟩ <;> rw [hrun] at hfixed
  · exact hfixed
  · exact (hk a s₁).trans hfixed

lemma map {m : ExceptT ε (StateM S) α} (hm : Fixes f m) (g : α → β) : Fixes f (g <$> m) := by
  intro s
  rw [run_map]
  exact hm s

lemma adapt {m : ExceptT ε (StateM S) α} (hm : Fixes f m) (g : ε → ε) :
    Fixes f (ExceptT.adapt g m) := hm

lemma tryCatch {m : ExceptT ε (StateM S) α} {handle : ε → ExceptT ε (StateM S) α}
    (hm : Fixes f m) (hh : ∀ e, Fixes f (handle e)) : Fixes f (tryCatch m handle) := by
  intro s
  have hfixed := hm s
  rw [run_tryCatch]
  rcases hrun : m.run.run s with ⟨e | a, s₁⟩ <;> rw [hrun] at hfixed
  · exact (hh e s₁).trans hfixed
  · exact hfixed

end Fixes

lemma exists_forall₂_iff {R : α → β → Prop} {xs : List α} :
    (∃ ys, List.Forall₂ R xs ys) ↔ ∀ x ∈ xs, ∃ y, R x y := by
  induction xs with
  | nil => simp
  | cons x xs ih =>
    simp only [List.forall₂_cons_left_iff, List.forall_mem_cons, ← ih]
    constructor
    · rintro ⟨_, y, ys, hx, hxs, -⟩
      exact ⟨⟨y, hx⟩, ys, hxs⟩
    · rintro ⟨⟨y, hx⟩, ys, hxs⟩
      exact ⟨_, y, ys, hx, hxs, rfl⟩

lemma map_eq_map_of_forall₂ {γ : Type} {R : α → β → Prop} {f : α → γ} {g : β → γ} {xs : List α}
    {ys : List β} (h : List.Forall₂ R xs ys) (hR : ∀ x y, R x y → g y = f x) :
    ys.map g = xs.map f := by
  induction h with
  | nil => rfl
  | cons hx _ ih => rw [List.map_cons, List.map_cons, hR _ _ hx, ih]

lemma mapM_congr {f g : α → Except ε β} {xs : List α} (h : ∀ x ∈ xs, f x = g x) :
    xs.mapM f = xs.mapM g := by
  induction xs with
  | nil => rfl
  | cons x xs ih =>
    rw [List.mapM_cons, List.mapM_cons, h x (by simp), ih fun y hy => h y (by simp [hy])]

/-- A list is gone through when each of its elements succeeds. -/
lemma mapM_eq_ok_iff {g : α → Except ε β} {xs : List α} {ys : List β} :
    xs.mapM g = .ok ys ↔ List.Forall₂ (fun x y => g x = .ok y) xs ys := by
  induction xs generalizing ys with
  | nil => cases ys <;> simp [pure, Except.pure]
  | cons x xs ih =>
    rw [List.mapM_cons, List.forall₂_cons_left_iff]
    rcases hx : g x with e | y
    · simp [bind, Except.bind]
    simp only [← ih]
    rcases hxs : xs.mapM g with e | ys'
    · simp [bind, Except.bind]
    · simp [bind, Except.bind, pure, Except.pure, eq_comm]

/-- It fails as the first element that fails. -/
lemma mapM_eq_error_iff {g : α → Except ε β} {xs : List α} {e : ε} :
    xs.mapM g = .error e ↔ ∃ before x after, xs = before ++ x :: after ∧
      (∀ b ∈ before, ∃ y, g b = .ok y) ∧ g x = .error e := by
  induction xs with
  | nil => simp [pure, Except.pure]
  | cons x xs ih =>
    rw [List.mapM_cons]
    rcases hx : g x with e' | y
    · constructor
      · intro h
        cases h
        exact ⟨[], x, xs, rfl, by simp, hx⟩
      · rintro ⟨before, x', after, hsplit, hbefore, hx'⟩
        rcases List.cons_eq_append_iff.1 hsplit with ⟨rfl, h⟩ | ⟨before, rfl, -⟩
        · cases h
          rw [← hx, hx']
          rfl
        · obtain ⟨y, hy⟩ := hbefore x (by simp)
          rw [hx] at hy
          cases hy
    · have hrest : (do let y ← Except.ok y; let ys ← xs.mapM g; pure (y :: ys)) = .error e ↔
          xs.mapM g = .error e := by
        rcases xs.mapM g with e' | ys <;> simp [bind, Except.bind, pure, Except.pure]
      rw [hrest, ih]
      constructor
      · rintro ⟨before, x', after, rfl, hbefore, hx'⟩
        exact ⟨x :: before, x', after, rfl, by simpa using ⟨⟨y, hx⟩, hbefore⟩, hx'⟩
      · rintro ⟨before, x', after, hsplit, hbefore, hx'⟩
        rcases List.cons_eq_append_iff.1 hsplit with ⟨rfl, h⟩ | ⟨before, rfl, rfl⟩
        · cases h
          rw [hx] at hx'
          cases hx'
        · exact ⟨before, x', after, rfl, fun b hb => hbefore b (by simp [hb]), hx'⟩

end ImpedanceBench
