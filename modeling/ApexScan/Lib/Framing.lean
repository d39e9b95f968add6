import Mathlib.Data.List.Basic

/-!
# Frames that carry their own length

A stream of stacked frames, each of which says at its head how long it is: `size xs` is the length of
the frame at the head of `xs`, and `none` where no frame can be delimited.

* `Delimits` — how a stream is cut: whole frames, then a tail that is empty or cannot be delimited.
* `Frames` — what a generator of frames has still to do: stop, raise, or yield a frame and go on.
* `framesOf` — the generator that cuts a stream frame by frame.
* `delimits_unique` — a stream is cut in one way.
* `delimits_framesOf`, `toList_framesOf` — the generator yields the frames of the cut.
* `raises_framesOf` — it raises where the cut leaves a tail.
* `delimits_flatten` — frames that say their own length are cut back out of their concatenation.
-/

set_option autoImplicit false

namespace ApexScan.Lib

variable {α : Type}

/-- A stream cut into frames and the tail after them. -/
inductive Delimits (size : List α → Option ℕ) : List α → List (List α) → List α → Prop where
  | empty : Delimits size [] [] []
  | stuck {xs : List α} : xs ≠ [] → size xs = none → Delimits size xs [] xs
  | frame {xs : List α} {n : ℕ} {frames : List (List α)} {tail : List α} : xs ≠ [] →
      size xs = some n → Delimits size (xs.drop n) frames tail →
      Delimits size xs (xs.take n :: frames) tail

/-- What a generator of frames has still to do. -/
inductive Frames (α : Type) where
  | stop
  | raise
  | yield (frame : List α) (rest : Frames α)

/-- The frames still to come. -/
def Frames.toList : Frames α → List (List α)
  | .stop | .raise => []
  | .yield frame rest => frame :: rest.toList

/-- The generator ends by raising. -/
def Frames.raises : Frames α → Bool
  | .stop => false
  | .raise => true
  | .yield _ rest => rest.raises

/-- The generator with at most `fuel` frames. -/
def framesWithin (size : List α → Option ℕ) : ℕ → List α → Frames α
  | 0, _ => .stop
  | fuel + 1, xs =>
    if xs.isEmpty then .stop
    else
      match size xs with
      | none => .raise
      | some n => .yield (xs.take n) (framesWithin size fuel (xs.drop n))

/-- The generator that cuts a stream; a stream has no more frames than elements. -/
def framesOf (size : List α → Option ℕ) (xs : List α) : Frames α := framesWithin size xs.length xs

section

variable {size : List α → Option ℕ}

/-- A stream is cut in one way. -/
theorem delimits_unique {xs tail tail' : List α} {frames frames' : List (List α)}
    (h : Delimits size xs frames tail) (h' : Delimits size xs frames' tail') :
    frames = frames' ∧ tail = tail' := by
  induction h generalizing frames' with
  | empty =>
    cases h' with
    | empty => exact ⟨rfl, rfl⟩
    | stuck hne => exact absurd rfl hne
    | frame hne => exact absurd rfl hne
  | stuck hne hnone =>
    cases h' with
    | empty => exact absurd rfl hne
    | stuck => exact ⟨rfl, rfl⟩
    | frame _ hsome =>
      rw [hnone] at hsome
      cases hsome
  | frame hne hsome _ ih =>
    cases h' with
    | empty => exact absurd rfl hne
    | stuck _ hnone =>
      rw [hsome] at hnone
      cases hnone
    | frame _ hsome' hrest =>
      rw [hsome] at hsome'
      cases hsome'
      obtain ⟨hframes, htail⟩ := ih hrest
      exact ⟨by rw [hframes], htail⟩

/-- No element of the stream is lost or made up. -/
theorem Delimits.flatten {xs tail : List α} {frames : List (List α)}
    (h : Delimits size xs frames tail) : frames.flatten ++ tail = xs := by
  induction h with
  | empty => rfl
  | stuck => rfl
  | frame _ _ _ ih => rw [List.flatten_cons, List.append_assoc, ih, List.take_append_drop]

/-- Enough fuel cuts the whole stream, since every frame takes an element. -/
theorem delimits_framesWithin (hpos : ∀ xs n, size xs = some n → 0 < n) {fuel : ℕ} {xs : List α}
    (h : xs.length ≤ fuel) : ∃ tail, Delimits size xs (framesWithin size fuel xs).toList tail := by
  induction fuel generalizing xs with
  | zero =>
    have hnil : xs = [] := List.length_eq_zero_iff.mp (by omega)
    subst hnil
    exact ⟨[], .empty⟩
  | succ fuel ih =>
    unfold framesWithin
    split
    · rename_i hempty
      rw [List.isEmpty_iff] at hempty
      subst hempty
      exact ⟨[], .empty⟩
    · rename_i hempty
      have hne : xs ≠ [] := by rwa [List.isEmpty_iff] at hempty
      split
      · rename_i hnone
        exact ⟨xs, .stuck hne hnone⟩
      · rename_i n hsome
        have hlength : (xs.drop n).length ≤ fuel := by
          have := hpos xs n hsome
          rw [List.length_drop]
          omega
        obtain ⟨tail, hrest⟩ := ih hlength
        exact ⟨tail, .frame hne hsome hrest⟩

theorem delimits_framesOf (hpos : ∀ xs n, size xs = some n → 0 < n) (xs : List α) :
    ∃ tail, Delimits size xs (framesOf size xs).toList tail :=
  delimits_framesWithin hpos (Nat.le_refl _)

/-- **The generator yields the frames of the cut.** -/
theorem toList_framesOf (hpos : ∀ xs n, size xs = some n → 0 < n) {xs tail : List α}
    {frames : List (List α)} (h : Delimits size xs frames tail) :
    (framesOf size xs).toList = frames := by
  obtain ⟨_, hdelimits⟩ := delimits_framesOf hpos xs
  exact (delimits_unique hdelimits h).1

/-- Enough fuel reaches the tail, and the generator raises there if it is not empty. -/
theorem raises_framesWithin (hpos : ∀ xs n, size xs = some n → 0 < n) {xs tail : List α}
    {frames : List (List α)} (h : Delimits size xs frames tail) {fuel : ℕ} (hfuel : xs.length ≤ fuel) :
    (framesWithin size fuel xs).raises = true ↔ tail ≠ [] := by
  induction h generalizing fuel with
  | empty => cases fuel <;> simp [framesWithin, Frames.raises]
  | stuck hne hnone =>
    cases fuel with
    | zero => exact absurd (List.length_eq_zero_iff.mp (by omega)) hne
    | succ fuel => simp [framesWithin, Frames.raises, hne, hnone]
  | frame hne hsome hrest ih =>
    rename_i xs n _ _
    cases fuel with
    | zero => exact absurd (List.length_eq_zero_iff.mp (by omega)) hne
    | succ fuel =>
      have hlength : (xs.drop n).length ≤ fuel := by
        have := hpos xs n hsome
        rw [List.length_drop]
        omega
      simpa [framesWithin, Frames.raises, hne, hsome] using ih hlength

theorem raises_framesOf (hpos : ∀ xs n, size xs = some n → 0 < n) {xs tail : List α}
    {frames : List (List α)} (h : Delimits size xs frames tail) :
    (framesOf size xs).raises = true ↔ tail ≠ [] :=
  raises_framesWithin hpos h (Nat.le_refl _)

/-- The fuel of `framesOf` is enough: more of it changes nothing. -/
theorem framesWithin_eq_framesOf (hpos : ∀ xs n, size xs = some n → 0 < n) {fuel : ℕ} {xs : List α}
    (hfuel : xs.length ≤ fuel) : framesWithin size fuel xs = framesOf size xs := by
  suffices h : ∀ {least fuel : ℕ} {xs : List α}, xs.length ≤ least → least ≤ fuel →
      framesWithin size fuel xs = framesWithin size least xs from h (Nat.le_refl _) hfuel
  intro least
  induction least with
  | zero =>
    intro fuel xs hleast _
    have hnil : xs = [] := List.length_eq_zero_iff.mp (by omega)
    subst hnil
    cases fuel <;> rfl
  | succ least ih =>
    intro fuel xs hleast hfuel
    obtain ⟨fuel, rfl⟩ : ∃ n, fuel = n + 1 := ⟨fuel - 1, by omega⟩
    unfold framesWithin
    split
    · rfl
    · split
      · rfl
      · rename_i n hsome
        have := hpos xs n hsome
        rw [ih (by rw [List.length_drop]; omega) (by omega)]

/-- Frames that say their own length, whatever follows, are cut back out of their concatenation. -/
theorem delimits_flatten {frames : List (List α)} (hne : ∀ frame ∈ frames, frame ≠ [])
    (hsize : ∀ frame ∈ frames, ∀ rest, size (frame ++ rest) = some frame.length) :
    Delimits size frames.flatten frames [] := by
  induction frames with
  | nil => exact .empty
  | cons frame frames ih =>
    rw [List.forall_mem_cons] at hne hsize
    have hrest : Delimits size ((frame ++ frames.flatten).drop frame.length) frames [] := by
      rw [List.drop_left]
      exact ih hne.2 hsize.2
    have hcut := hrest.frame (List.append_ne_nil_of_left_ne_nil hne.1 frames.flatten) (hsize.1 _)
    rwa [List.take_left] at hcut

/-- What the head of a stream passes on to the frame cut off there holds of every frame. -/
theorem Delimits.forall_frames {P : List α → Prop} (hP : ∀ xs n, size xs = some n → P (xs.take n))
    {xs tail : List α} {frames : List (List α)} (h : Delimits size xs frames tail) :
    ∀ frame ∈ frames, P frame := by
  induction h with
  | empty => simp
  | stuck => simp
  | frame _ hsome _ ih => exact List.forall_mem_cons.mpr ⟨hP _ _ hsome, ih⟩

end

end ApexScan.Lib
