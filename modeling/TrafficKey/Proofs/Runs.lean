import Mathlib

/-!
# Runs of a failing step

A reader is a step that may fail, folded over the tokens of a line. Here is what a step keeps, said
once for whole runs, and what two readers have in common when their steps agree.
-/

namespace TrafficKey

variable {σ τ α β ε δ : Type}

theorem bind_eq_ok {x : Except ε α} {f : α → Except ε β} {b : β} :
    (x >>= f) = .ok b ↔ ∃ a, x = .ok a ∧ f a = .ok b := by
  cases x <;> simp [bind, Except.bind]

theorem mapError_eq_ok_iff {f : ε → δ} {x : Except ε α} {a : α} :
    x.mapError f = .ok a ↔ x = .ok a := by
  cases x with
  | error e => simp [Except.mapError]
  | ok b => simp [Except.mapError]

theorem bind_eq_error {x : Except ε α} {f : α → Except ε β} {e : ε} :
    (x >>= f) = .error e ↔ x = .error e ∨ ∃ a, x = .ok a ∧ f a = .error e := by
  cases x <;> simp [bind, Except.bind]

theorem mapError_eq_error_iff {f : ε → δ} {x : Except ε α} {d : δ} :
    x.mapError f = .error d ↔ ∃ e, x = .error e ∧ f e = d := by
  cases x with
  | error e => simp [Except.mapError]
  | ok b => simp [Except.mapError]

theorem mapError_bind {k : ε → δ} (x : Except ε α) (f : α → Except ε β) :
    (x >>= f).mapError k = x.mapError k >>= fun a => (f a).mapError k := by
  cases x <;> rfl

/-- Steps that fail with other words make runs that fail with other words. -/
theorem foldlM_mapError {k : ε → δ} {f : σ → α → Except ε σ} {g : σ → α → Except δ σ}
    (h : ∀ s x, g s x = (f s x).mapError k) (xs : List α) (s : σ) :
    xs.foldlM g s = (xs.foldlM f s).mapError k := by
  induction xs generalizing s with
  | nil => rfl
  | cons x xs ih =>
    rw [List.foldlM_cons, List.foldlM_cons, mapError_bind, h]
    exact bind_congr fun s' => ih s'

/-- A run that succeeds can be cut anywhere. -/
theorem foldlM_append_eq_ok {f : σ → α → Except ε σ} {s s' : σ} {xs ys : List α} :
    (xs ++ ys).foldlM f s = .ok s' ↔ ∃ m, xs.foldlM f s = .ok m ∧ ys.foldlM f m = .ok s' := by
  rw [List.foldlM_append, bind_eq_ok]

/-- A run fails at the first step that fails. -/
theorem foldlM_eq_error {f : σ → α → Except ε σ} {s : σ} {xs : List α} {e : ε} :
    xs.foldlM f s = .error e ↔
      ∃ before x after m, xs = before ++ x :: after ∧ before.foldlM f s = .ok m ∧
        f m x = .error e := by
  constructor
  · intro h
    induction xs generalizing s with
    | nil => cases h
    | cons x xs ih =>
      rw [List.foldlM_cons, bind_eq_error] at h
      rcases h with hx | ⟨m, hm, hrest⟩
      · exact ⟨[], x, xs, s, rfl, rfl, hx⟩
      · rcases ih hrest with ⟨before, y, after, m', hxs, hbefore, hy⟩
        refine ⟨x :: before, y, after, m', by rw [hxs]; rfl, ?_, hy⟩
        rw [List.foldlM_cons, bind_eq_ok]
        exact ⟨m, hm, hbefore⟩
  · rintro ⟨before, x, after, m, rfl, hbefore, hx⟩
    rw [List.foldlM_append, bind_eq_error]
    refine Or.inr ⟨m, hbefore, ?_⟩
    rw [List.foldlM_cons, bind_eq_error]
    exact Or.inl hx

theorem mapM_cons_eq {f : α → Except ε β} {x : α} {xs : List α} :
    (x :: xs).mapM f = f x >>= fun y => (xs.mapM f).map (y :: ·) := by
  rw [List.mapM_cons]
  rfl

theorem mapM_eq_ok_iff {f : α → Except ε β} {xs : List α} {ys : List β} :
    xs.mapM f = .ok ys ↔ xs.map f = ys.map .ok := by
  induction xs generalizing ys with
  | nil => cases ys <;> simp [pure, Except.pure]
  | cons x xs ih =>
    rw [mapM_cons_eq, bind_eq_ok]
    constructor
    · rintro ⟨y, hy, hrest⟩
      cases hmore : xs.mapM f with
      | error e => simp [hmore, Except.map] at hrest
      | ok more =>
        rw [hmore] at hrest
        cases hrest
        rw [List.map_cons, List.map_cons, hy, ih.1 hmore]
    · intro h
      cases ys with
      | nil => cases h
      | cons y ys =>
        rw [List.map_cons, List.map_cons, List.cons.injEq] at h
        rw [ih.2 h.2]
        exact ⟨y, h.1, rfl⟩

/-- A list is gone through to its end when nothing fails. -/
theorem exists_mapM_eq_ok {f : α → Except ε β} {xs : List α}
    (h : ∀ x ∈ xs, ∃ y, f x = .ok y) : ∃ ys, xs.mapM f = .ok ys := by
  induction xs with
  | nil => exact ⟨[], rfl⟩
  | cons x xs ih =>
    rw [List.forall_mem_cons] at h
    rcases h with ⟨⟨y, hy⟩, hxs⟩
    rcases ih hxs with ⟨ys, hys⟩
    refine ⟨y :: ys, ?_⟩
    rw [mapM_cons_eq, hy, hys]
    rfl

/-- A list is gone through up to the first failure. -/
theorem mapM_eq_error {f : α → Except ε β} {before after : List α} {x : α} {e : ε}
    (hbefore : ∀ y ∈ before, ∃ b, f y = .ok b) (hx : f x = .error e) :
    (before ++ x :: after).mapM f = .error e := by
  rcases exists_mapM_eq_ok hbefore with ⟨ys, hys⟩
  rw [List.mapM_append, hys, List.mapM_cons, hx]
  rfl

/-- What holds at the start and is kept by every step holds after every run. -/
theorem foldlM_invariant {f : σ → α → Except ε σ} {inv : List α → σ → Prop}
    (hstep : ∀ done s x s', inv done s → f s x = .ok s' → inv (done ++ [x]) s')
    {xs : List α} {s s' : σ} (hinv : inv [] s) (hrun : xs.foldlM f s = .ok s') : inv xs s' := by
  -- the run may have begun earlier
  have hfrom : ∀ done s, inv done s → xs.foldlM f s = .ok s' → inv (done ++ xs) s' := by
    clear hinv hrun
    induction xs with
    | nil =>
      intro done s hinv hrun
      cases hrun
      simpa using hinv
    | cons x xs ih =>
      intro done s hinv hrun
      rw [List.foldlM_cons, bind_eq_ok] at hrun
      rcases hrun with ⟨m, hm, hrun⟩
      have hnext := ih (done ++ [x]) m (hstep done s x m hinv hm) hrun
      simpa using hnext
  exact hfrom [] s hinv hrun

/-- Two outcomes agree: both are values related by `rel`, or both are failures related by `err`. -/
def Agree (rel : α → β → Prop) (err : ε → δ → Prop) : Except ε α → Except δ β → Prop
  | .ok a, .ok b => rel a b
  | .error e, .error d => err e d
  | _, _ => False

section

variable {rel : α → β → Prop} {err : ε → δ → Prop}

/-- Outcomes agree if the second one follows whatever the first one is. -/
theorem Agree.intro {x : Except ε α} {y : Except δ β}
    (hok : ∀ a, x = .ok a → ∃ b, y = .ok b ∧ rel a b)
    (herr : ∀ e, x = .error e → ∃ d, y = .error d ∧ err e d) : Agree rel err x y := by
  cases x with
  | ok a =>
    rcases hok a rfl with ⟨b, rfl, h⟩
    exact h
  | error e =>
    rcases herr e rfl with ⟨d, rfl, h⟩
    exact h

theorem Agree.exists_ok {x : Except ε α} {y : Except δ β} {a : α} (h : Agree rel err x y)
    (hx : x = .ok a) : ∃ b, y = .ok b ∧ rel a b := by
  subst hx
  cases y with
  | ok b => exact ⟨b, rfl, h⟩
  | error d => exact absurd h id

theorem Agree.exists_error {x : Except ε α} {y : Except δ β} {e : ε} (h : Agree rel err x y)
    (hx : x = .error e) : ∃ d, y = .error d ∧ err e d := by
  subst hx
  cases y with
  | ok b => exact absurd h id
  | error d => exact ⟨d, rfl, h⟩

theorem Agree.exists_ok_left {x : Except ε α} {y : Except δ β} {b : β} (h : Agree rel err x y)
    (hy : y = .ok b) : ∃ a, x = .ok a ∧ rel a b := by
  subst hy
  cases x with
  | ok a => exact ⟨a, rfl, h⟩
  | error e => exact absurd h id

/-- A wider agreement, which may use that a value is the first outcome. -/
theorem Agree.imp {rel' : α → β → Prop} {err' : ε → δ → Prop} {x : Except ε α} {y : Except δ β}
    (h : Agree rel err x y) (hrel : ∀ a b, x = .ok a → rel a b → rel' a b)
    (herr : ∀ e d, err e d → err' e d) : Agree rel' err' x y := by
  cases x with
  | error e =>
    cases y with
    | error d => exact herr e d h
    | ok b => exact absurd h id
  | ok a =>
    cases y with
    | error d => exact absurd h id
    | ok b => exact hrel a b rfl h

/-- What follows two agreeing outcomes agrees, if it does so for related values. -/
theorem Agree.bind {α' β' : Type} {rel' : α' → β' → Prop} {x : Except ε α} {y : Except δ β}
    {f : α → Except ε α'} {g : β → Except δ β'} (h : Agree rel err x y)
    (hnext : ∀ a b, rel a b → Agree rel' err (f a) (g b)) :
    Agree rel' err (x >>= f) (y >>= g) := by
  cases x with
  | error e =>
    cases y with
    | error d => exact h
    | ok b => exact absurd h id
  | ok a =>
    cases y with
    | error d => exact absurd h id
    | ok b => exact hnext a b h

/-- Only the second outcome goes on. -/
theorem Agree.bind_right {β' : Type} {rel' : α → β' → Prop} {x : Except ε α} {y : Except δ β}
    {g : β → Except δ β'} (h : Agree rel err x y)
    (hnext : ∀ a b, rel a b → Agree rel' err (.ok a) (g b)) : Agree rel' err x (y >>= g) := by
  cases x with
  | error e =>
    cases y with
    | error d => exact h
    | ok b => exact absurd h id
  | ok a =>
    cases y with
    | error d => exact absurd h id
    | ok b => exact hnext a b h

theorem Agree.trans {γ ζ : Type} {rel₂ : β → γ → Prop} {err₂ : δ → ζ → Prop} {x : Except ε α}
    {y : Except δ β} {z : Except ζ γ} (h : Agree rel err x y) (h₂ : Agree rel₂ err₂ y z) :
    Agree (fun a c => ∃ b, rel a b ∧ rel₂ b c) (fun e f => ∃ d, err e d ∧ err₂ d f) x z := by
  cases x with
  | error e =>
    cases y with
    | error d =>
      cases z with
      | error f => exact ⟨d, h, h₂⟩
      | ok c => exact absurd h₂ id
    | ok b => exact absurd h id
  | ok a =>
    cases y with
    | error d => exact absurd h id
    | ok b =>
      cases z with
      | error f => exact absurd h₂ id
      | ok c => exact ⟨b, h, h₂⟩

theorem agree_mapError_left {ε' : Type} {f : ε' → ε} {x : Except ε' α} {y : Except δ β} :
    Agree rel err (x.mapError f) y = Agree rel (fun e d => err (f e) d) x y := by
  cases x <;> cases y <;> rfl

theorem agree_map_left {α' : Type} {f : α' → α} {x : Except ε α'} {y : Except δ β} :
    Agree rel err (x.map f) y = Agree (fun a b => rel (f a) b) err x y := by
  cases x <;> cases y <;> rfl

theorem agree_mapError_right {δ' : Type} {f : δ' → δ} {x : Except ε α} {y : Except δ' β} :
    Agree rel err x (y.mapError f) = Agree rel (fun e d => err e (f d)) x y := by
  cases x <;> cases y <;> rfl

/-- Readers whose steps agree on every token agree on the whole run. -/
theorem Agree.foldlM {rel : σ → τ → Prop} {f : σ → α → Except ε σ} {g : τ → α → Except δ τ}
    {xs : List α} (hstep : ∀ x ∈ xs, ∀ a b, rel a b → Agree rel err (f a x) (g b x))
    {s : σ} {s' : τ} (h : rel s s') :
    Agree rel err (xs.foldlM f s) (xs.foldlM g s') := by
  induction xs generalizing s s' with
  | nil => exact h
  | cons x xs ih =>
    rw [List.foldlM_cons, List.foldlM_cons]
    refine Agree.bind (hstep x (by simp) s s' h) ?_
    intro a b hab
    exact ih (fun y hy => hstep y (by simp [hy])) hab

end

end TrafficKey
