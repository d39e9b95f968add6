import ApexScan.Lib.Machine
import Mathlib.Data.List.Induction

/-!
# At-least-once delivery

A transport that acknowledges late delivers some messages again.  A delivery is at least once when,
with the repeats taken out, each message arrives once and in order.

* `AtLeastOnce Same xs ys` — `ys` delivers `xs` in order, and between them, at any later point,
  messages that are the `Same` as one delivered before.
* `AtLeastOnce.related` — where a delivered message leaves a mark that every step keeps, and a step on
  a marked message keeps a relation with the state before it, the run with repeats and the run without
  end in related states.
-/

set_option autoImplicit false

namespace ApexScan.Lib

variable {σ α β : Type}

/-- `ys` delivers the messages `xs` in order, with repeats of earlier ones in between. -/
inductive AtLeastOnce (Same : α → α → Prop) : List α → List α → Prop where
  | nil : AtLeastOnce Same [] []
  | first {xs ys : List α} (x : α) (h : AtLeastOnce Same xs ys) :
      AtLeastOnce Same (xs ++ [x]) (ys ++ [x])
  | again {xs ys : List α} {x y : α} (h : AtLeastOnce Same xs ys) (hx : x ∈ xs) (hsame : Same x y) :
      AtLeastOnce Same xs (ys ++ [y])

variable {Same : α → α → Prop} {xs ys : List α}

/-- A delivery that repeats nothing. -/
theorem AtLeastOnce.refl (xs : List α) : AtLeastOnce Same xs xs := by
  induction xs using List.reverseRecOn with
  | nil => exact .nil
  | append_singleton xs x ih => exact .first x ih

/-- Delivered messages leave a mark that is kept, and a step on a marked message cannot be told from
    no step: the run with repeats ends in a state related to that of the run without. -/
theorem AtLeastOnce.related {step : σ → α → σ × β} (R : σ → σ → Prop) (Seen : σ → α → Prop)
    (C : α → Prop) (hfirst : ∀ s t x, C x → R s t → R (step s x).1 (step t x).1)
    (hmark : ∀ s t x, C x → R s t → Seen (step t x).1 x)
    (hkeep : ∀ s t x y, C y → R s t → Seen t x → Seen (step t y).1 x)
    (hagain : ∀ s t x y, C y → Same x y → R s t → Seen t x → R s (step t y).1)
    {s : σ} (hs : R s s) (h : AtLeastOnce Same xs ys) (hC : ∀ y ∈ ys, C y) :
    R (run step s xs) (run step s ys) := by
  suffices hboth : R (run step s xs) (run step s ys) ∧ ∀ x ∈ xs, Seen (run step s ys) x from hboth.1
  induction h with
  | nil => exact ⟨hs, by simp⟩
  | first x h ih =>
    obtain ⟨hR, hseen⟩ := ih fun y hy => hC y (List.mem_append_left _ hy)
    have hx : C x := hC x (by simp)
    rw [run_concat, run_concat]
    refine ⟨hfirst _ _ x hx hR, fun x' hx' => ?_⟩
    rcases List.mem_append.mp hx' with hx' | hx'
    · exact hkeep _ _ x' x hx hR (hseen x' hx')
    · rw [List.mem_singleton.mp hx']
      exact hmark _ _ x hx hR
  | @again _ _ x y h hmem hsame ih =>
    obtain ⟨hR, hseen⟩ := ih fun y' hy' => hC y' (List.mem_append_left _ hy')
    have hy : C y := hC y (by simp)
    rw [run_concat]
    refine ⟨hagain _ _ x y hy hsame hR (hseen x hmem), ?_⟩
    exact fun x' hx' => hkeep _ _ x' y hy hR (hseen x' hx')

end ApexScan.Lib
