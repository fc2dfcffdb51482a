import Mathlib.Logic.Function.Iterate

/-!
# Recursions that end

A recursive function is given by its body: `step x k` is what the body returns
for `k` if it finds `x` where it calls itself. The function ends if the body,
unfolded often enough, is never asked for what stands below
(`Recursion.ends`); for that the number of unfoldings has to be known in
advance, here from the size of the argument.

A function that is computed with a bound on its depth is such a recursion if
each call is made for something smaller (`Recursion.of_bounded`).
-/

namespace ScriptLang

variable {κ β : Type}

/-- `f` is the function with the body `step`, and a call for an argument `k`
goes no deeper than `size k` further calls. -/
structure Recursion (size : κ → Nat) (step : (κ → β) → κ → β) (f : κ → β) : Prop where
  unfold : ∀ k, step f k = f k
  /-- Whatever stands below, it is not reached. -/
  ends : ∀ bottom k, step^[size k + 1] bottom k = f k

namespace Recursion

variable {size : κ → Nat} {step : (κ → β) → κ → β} {f : κ → β} {F : Nat → κ → β}

/-- It is enough that the body only asks for what is smaller. -/
theorem of_smaller
    (hStep : ∀ x k, (∀ l, size l < size k → x l = f l) → step x k = f k) :
    Recursion size step f := by
  refine ⟨fun k => hStep f k fun _ _ => rfl, fun bottom k => ?_⟩
  have hDepth : ∀ n l, size l < n → step^[n] bottom l = f l := by
    intro n
    induction n with
    | zero => exact fun l hSize => absurd hSize (Nat.not_lt_zero _)
    | succ n ih =>
        intro l hSize
        rw [Function.iterate_succ_apply']
        exact hStep _ l fun m hSmaller => ih m (by omega)
  exact hDepth _ k (Nat.lt_succ_self _)

/-- A body that leads straight back to itself does not end: what stands below
is what it returns. -/
theorem not_of_loop {a b : β} {k : κ} (hLoop : ∀ x, step x k = x k) (hNe : a ≠ b) :
    ¬ Recursion size step f := by
  intro h
  have hBottom : ∀ n (bottom : κ → β), step^[n] bottom k = bottom k := by
    intro n bottom
    induction n with
    | zero => rfl
    | succ n ih => rw [Function.iterate_succ_apply', hLoop, ih]
  apply hNe
  calc a = f k := by rw [← h.ends (fun _ => a) k, hBottom]
    _ = b := by rw [← h.ends (fun _ => b) k, hBottom]

/-- What a body returns may have to be good for it to ask for what is smaller
only. `F` bounds the depth. -/
theorem of_bounded (size : κ → Nat) (step : (κ → β) → κ → β) (Good : κ → β → Prop)
    (hSucc : ∀ bound k, F (bound + 1) k = step (F bound) k)
    (hNone : ∀ k, size k = 0 → F 0 k = F 1 k)
    (hStep : ∀ x y k, (∀ l, size l < size k → x l = y l ∧ Good l (x l)) →
      step x k = step y k ∧ Good k (step x k)) :
    Recursion size step (fun k => F (size k) k) ∧ ∀ bound k, size k ≤ bound →
      F bound k = F (size k) k ∧ Good k (F bound k) := by
  -- A bound that covers the argument may grow by one.
  have hGrow : ∀ bound k, size k ≤ bound →
      F bound k = F (bound + 1) k ∧ Good k (F (bound + 1) k) := by
    intro bound
    induction bound with
    | zero =>
        intro k hSize
        have hZero := Nat.le_zero.1 hSize
        refine ⟨hNone k hZero, ?_⟩
        rw [hSucc]
        exact (hStep (F 0) (F 0) k fun l hSmaller => absurd hSmaller (by omega)).2
    | succ bound ih =>
        intro k hSize
        have hBoth := hStep (F bound) (F (bound + 1)) k fun l hSmaller => by
          obtain ⟨hSame, hGood⟩ := ih l (by omega)
          exact ⟨hSame, hSame ▸ hGood⟩
        rw [hSucc bound, hSucc (bound + 1)]
        exact ⟨hBoth.1, hBoth.1 ▸ hBoth.2⟩
  have hCover : ∀ bound k, size k ≤ bound →
      F bound k = F (size k) k ∧ Good k (F bound k) := by
    intro bound k hSize
    induction hSize with
    | refl =>
        obtain ⟨hSame, hGood⟩ := hGrow (size k) k (Nat.le_refl _)
        exact ⟨rfl, hSame ▸ hGood⟩
    | step hLe ih =>
        obtain ⟨hSame, hGood⟩ := hGrow _ k hLe
        exact ⟨hSame ▸ ih.1, hGood⟩
  refine ⟨of_smaller fun x k hSmaller => ?_, hCover⟩
  have hBelow : step (F (size k)) k = step x k :=
    (hStep _ x k fun l hLess => by
      obtain ⟨hSame, hGood⟩ := hCover (size k) l (Nat.le_of_lt hLess)
      exact ⟨hSame.trans (hSmaller l hLess).symm, hGood⟩).1
  rw [← hBelow, ← hSucc, ← (hGrow (size k) k (Nat.le_refl _)).1]

end Recursion

end ScriptLang
