import Mathlib.Data.List.Forall2

/-!
# Computations that may raise

What it means for a composed computation in `Except` to return.

* `bind_eq_ok`, `check_eq_ok`, `map_eq_ok`, `mapError_eq_ok` — it returns iff its
  parts do.
* `bind_eq_error`, `mapError_eq_error` — it raises what the first part to raise does.
* `mapM_eq_ok`, `exists_of_mapM_eq_ok`, `exists_mem_of_mapM_eq_ok`, `mapM_returns` — a traversal returns
  iff every element does.
* `map_eq_of_mapM_eq_ok` — what the results of a traversal have in common with its elements.
* `exists_of_mapM_eq_error` — a traversal raises what one of its elements raises.
* `mapM_eq_map` — a traversal whose elements all return.
* `forM_eq_ok` — a loop of checks returns iff every check does.
* `foldlM_invariant` — what every step that returns keeps, a fold that returns has kept; its steps have
  all returned (`exists_of_foldlM_eq_ok`).
* `foldlM_eq_error` — a fold raises what one of its steps raises after the steps before it returned.
-/

set_option autoImplicit false

namespace ApexScan.Lib

variable {ε α β : Type}

@[simp] theorem ok_bind (a : α) (f : α → Except ε β) : Except.ok a >>= f = f a := rfl

theorem bind_eq_ok {x : Except ε α} {f : α → Except ε β} {b : β} :
    x >>= f = .ok b ↔ ∃ a, x = .ok a ∧ f a = .ok b := by
  cases x with
  | error e =>
    constructor
    · intro h
      cases h
    · rintro ⟨_, h, _⟩
      cases h
  | ok a =>
    constructor
    · intro h
      exact ⟨a, rfl, h⟩
    · rintro ⟨_, h, hf⟩
      cases h
      exact hf

theorem bind_eq_error {x : Except ε α} {f : α → Except ε β} {e : ε} :
    x >>= f = .error e ↔ x = .error e ∨ ∃ a, x = .ok a ∧ f a = .error e := by
  cases x with
  | error e' =>
    show Except.error e' = .error e ↔ _
    constructor
    · intro h
      cases h
      exact Or.inl rfl
    · rintro (h | ⟨_, h, _⟩)
      · cases h
        rfl
      · cases h
  | ok a =>
    constructor
    · intro h
      exact Or.inr ⟨a, rfl, h⟩
    · rintro (h | ⟨_, h, hf⟩)
      · cases h
      · cases h
        exact hf

/-- A check, and then the rest. -/
theorem check_eq_ok {x : Except ε Unit} {y : Except ε β} {b : β} :
    (x >>= fun _ => y) = .ok b ↔ x = .ok () ∧ y = .ok b :=
  bind_eq_ok.trans ⟨fun ⟨_, hx, hy⟩ => ⟨hx, hy⟩, fun ⟨hx, hy⟩ => ⟨(), hx, hy⟩⟩

theorem map_eq_ok {f : α → β} {x : Except ε α} {b : β} :
    f <$> x = .ok b ↔ ∃ a, x = .ok a ∧ f a = b := by
  cases x with
  | error e =>
    constructor
    · intro h
      cases h
    · rintro ⟨_, h, _⟩
      cases h
  | ok a =>
    constructor
    · intro h
      exact ⟨a, rfl, Except.ok.inj h⟩
    · rintro ⟨_, h, rfl⟩
      cases h
      rfl

/-- Renaming what is raised changes no result. -/
theorem mapError_eq_ok {φ : Type} {f : ε → φ} {x : Except ε α} {a : α} :
    x.mapError f = .ok a ↔ x = .ok a := by
  cases x <;> simp [Except.mapError]

theorem mapError_eq_error {φ : Type} {f : ε → φ} {x : Except ε α} {e : φ} :
    x.mapError f = .error e ↔ ∃ e', x = .error e' ∧ f e' = e := by
  cases x <;> simp [Except.mapError]

theorem mapM_eq_ok {f : α → Except ε β} {xs : List α} {ys : List β} :
    xs.mapM f = .ok ys ↔ List.Forall₂ (fun x y => f x = .ok y) xs ys := by
  induction xs generalizing ys with
  | nil =>
    rw [List.mapM_nil, List.forall₂_nil_left_iff]
    exact ⟨fun h => (Except.ok.inj h).symm, fun h => by rw [h]; rfl⟩
  | cons x xs ih =>
    rw [List.mapM_cons, bind_eq_ok]
    constructor
    · rintro ⟨y, hy, h⟩
      obtain ⟨ys', hys, h⟩ := bind_eq_ok.mp h
      cases h
      exact .cons hy (ih.mp hys)
    · intro h
      cases h with
      | cons hy hys => exact ⟨_, hy, bind_eq_ok.mpr ⟨_, ih.mpr hys, rfl⟩⟩

theorem exists_of_mapM_eq_ok {f : α → Except ε β} {xs : List α} {ys : List β} {y : β}
    (h : xs.mapM f = .ok ys) (hy : y ∈ ys) : ∃ x ∈ xs, f x = .ok y := by
  have hall := mapM_eq_ok.mp h
  clear h
  induction hall with
  | nil => cases hy
  | @cons x _ xs _ hx _ ih =>
    rcases List.mem_cons.mp hy with rfl | hy
    · exact ⟨x, by simp, hx⟩
    · obtain ⟨x', hx', hf⟩ := ih hy
      exact ⟨x', List.mem_cons_of_mem _ hx', hf⟩

theorem exists_mem_of_mapM_eq_ok {f : α → Except ε β} {xs : List α} {ys : List β} {x : α}
    (h : xs.mapM f = .ok ys) (hx : x ∈ xs) : ∃ y ∈ ys, f x = .ok y := by
  have hall := mapM_eq_ok.mp h
  clear h
  induction hall with
  | nil => cases hx
  | @cons _ y _ ys hy _ ih =>
    rcases List.mem_cons.mp hx with rfl | hx
    · exact ⟨y, List.mem_cons_self, hy⟩
    · obtain ⟨y', hy', hf⟩ := ih hx
      exact ⟨y', List.mem_cons_of_mem _ hy', hf⟩

/-- What the results of a traversal have in common with its elements. -/
theorem map_eq_of_mapM_eq_ok {γ : Type} {f : α → Except ε β} {g : β → γ} {k : α → γ} {xs : List α}
    {ys : List β} (h : xs.mapM f = .ok ys) (hg : ∀ x ∈ xs, ∀ y, f x = .ok y → g y = k x) :
    ys.map g = xs.map k := by
  have hall := mapM_eq_ok.mp h
  clear h
  induction hall with
  | nil => rfl
  | @cons x y xs ys hx _ ih =>
    rw [List.map_cons, List.map_cons, hg x List.mem_cons_self y hx,
      ih fun x' hx' => hg x' (List.mem_cons_of_mem _ hx')]

/-- What a traversal raises, an element raised. -/
theorem exists_of_mapM_eq_error {f : α → Except ε β} {xs : List α} {e : ε}
    (h : xs.mapM f = .error e) : ∃ x ∈ xs, f x = .error e := by
  induction xs with
  | nil => cases h
  | cons x xs ih =>
    rw [List.mapM_cons] at h
    cases hx : f x with
    | error e' =>
      rw [hx] at h
      cases h
      exact ⟨x, List.mem_cons_self, hx⟩
    | ok y =>
      rw [hx, ok_bind] at h
      cases hxs : xs.mapM f with
      | error e' =>
        rw [hxs] at h
        cases h
        obtain ⟨x', hx', hf⟩ := ih hxs
        exact ⟨x', List.mem_cons_of_mem _ hx', hf⟩
      | ok ys =>
        rw [hxs] at h
        cases h

/-- A traversal whose elements all return is a map. -/
theorem mapM_eq_map {f : α → Except ε β} {g : α → β} {xs : List α}
    (h : ∀ x ∈ xs, f x = .ok (g x)) : xs.mapM f = .ok (xs.map g) := by
  induction xs with
  | nil => rfl
  | cons x xs ih =>
    rw [List.mapM_cons, h x List.mem_cons_self, ih fun x' hx' => h x' (List.mem_cons_of_mem _ hx')]
    rfl

theorem mapM_returns {f : α → Except ε β} {xs : List α} (h : ∀ x ∈ xs, ∃ y, f x = .ok y) :
    ∃ ys, xs.mapM f = .ok ys := by
  induction xs with
  | nil => exact ⟨[], rfl⟩
  | cons x xs ih =>
    obtain ⟨y, hy⟩ := h x List.mem_cons_self
    obtain ⟨ys, hys⟩ := ih fun x' hx' => h x' (List.mem_cons_of_mem _ hx')
    refine ⟨y :: ys, ?_⟩
    rw [List.mapM_cons, hy, hys]
    rfl

theorem forM_eq_ok {f : α → Except ε Unit} {xs : List α} :
    xs.forM f = .ok () ↔ ∀ x ∈ xs, f x = .ok () := by
  induction xs with
  | nil => exact ⟨fun _ x hx => (List.not_mem_nil hx).elim, fun _ => rfl⟩
  | cons x xs ih =>
    rw [List.forall_mem_cons, ← ih]
    refine (bind_eq_ok (f := fun _ => xs.forM f)).trans ?_
    constructor
    · rintro ⟨_, hx, hxs⟩
      exact ⟨hx, hxs⟩
    · rintro ⟨hx, hxs⟩
      exact ⟨_, hx, hxs⟩

/-- What every step that returns keeps, a fold that returns has kept. -/
theorem foldlM_invariant {f : β → α → Except ε β} {P : β → Prop}
    (hstep : ∀ b a b', P b → f b a = .ok b' → P b') {xs : List α} {b b' : β} (hb : P b)
    (h : xs.foldlM f b = .ok b') : P b' := by
  induction xs generalizing b with
  | nil =>
    cases h
    exact hb
  | cons x xs ih =>
    rw [List.foldlM_cons] at h
    obtain ⟨b₁, hx, h⟩ := bind_eq_ok.mp h
    exact ih (hstep b x b₁ hb hx) h

/-- In a fold that returns, every element was accepted in some state. -/
theorem exists_of_foldlM_eq_ok {f : β → α → Except ε β} {xs : List α} {b b' : β} {x : α}
    (h : xs.foldlM f b = .ok b') (hx : x ∈ xs) : ∃ c c', f c x = .ok c' := by
  induction xs generalizing b with
  | nil => cases hx
  | cons y xs ih =>
    rw [List.foldlM_cons] at h
    obtain ⟨b₁, hy, h⟩ := bind_eq_ok.mp h
    rcases List.mem_cons.mp hx with rfl | hx
    · exact ⟨b, b₁, hy⟩
    · exact ih h hx

/-- A fold raises what one of its steps raises, where the steps before it have returned. -/
theorem foldlM_eq_error {f : β → α → Except ε β} {xs : List α} {b : β} {e : ε} :
    xs.foldlM f b = .error e ↔ ∃ pre x post b', xs = pre ++ x :: post ∧ pre.foldlM f b = .ok b' ∧
      f b' x = .error e := by
  induction xs generalizing b with
  | nil =>
    constructor
    · intro h
      cases h
    · rintro ⟨pre, x, post, b', h, _⟩
      exact absurd h.symm (by simp)
  | cons a xs ih =>
    rw [List.foldlM_cons, bind_eq_error]
    constructor
    · rintro (h | ⟨b₁, hb₁, h⟩)
      · exact ⟨[], a, xs, b, rfl, rfl, h⟩
      · obtain ⟨pre, x, post, b', rfl, hpre, hx⟩ := ih.mp h
        refine ⟨a :: pre, x, post, b', rfl, ?_, hx⟩
        rw [List.foldlM_cons, hb₁, ok_bind, hpre]
    · rintro ⟨pre, x, post, b', hxs, hpre, hx⟩
      cases pre with
      | nil =>
        cases hxs
        cases hpre
        exact Or.inl hx
      | cons a' pre =>
        cases hxs
        rw [List.foldlM_cons, bind_eq_ok] at hpre
        obtain ⟨b₁, hb₁, hpre⟩ := hpre
        exact Or.inr ⟨b₁, hb₁, ih.mpr ⟨pre, x, post, b', rfl, hpre, hx⟩⟩

end ApexScan.Lib
