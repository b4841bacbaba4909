import Retrace.Ordered

/-!
# The order of texts

Texts are ordered by their first differing characters, and characters by their code points. This is
also the order of the bytes that encode them.
-/

namespace Retrace.Text

def precedes : List Char → List Char → Bool
  | _, [] => false
  | [], _ :: _ => true
  | left :: lefts, right :: rights =>
    if left = right then precedes lefts rights else decide (left.toNat < right.toNat)

/-- Whether a text comes before another. -/
def before (left right : String) : Bool := precedes left.toList right.toList

theorem precedes_irrefl (text : List Char) : precedes text text = false := by
  induction text with
  | nil => rfl
  | cons character rest ih => simp [precedes, ih]

theorem precedes_trans {first second third : List Char} (hfirst : precedes first second = true)
    (hsecond : precedes second third = true) : precedes first third = true := by
  induction first generalizing second third with
  | nil =>
    cases second <;> cases third <;> simp_all [precedes]
  | cons character rest ih =>
    cases second with
    | nil => simp [precedes] at hfirst
    | cons other others =>
      cases third with
      | nil => simp [precedes] at hsecond
      | cons last lasts =>
        simp only [precedes] at hfirst hsecond ⊢
        by_cases hone : character = other
        · subst hone
          by_cases htwo : character = last
          · subst htwo
            simp only [if_true] at hfirst hsecond ⊢
            exact ih hfirst hsecond
          · simpa [htwo] using hsecond
        · by_cases htwo : other = last
          · subst htwo
            simpa [hone] using hfirst
          · simp only [hone, htwo, if_false, decide_eq_true_eq] at hfirst hsecond
            have hless : character.toNat < last.toNat := Nat.lt_trans hfirst hsecond
            have hne : character ≠ last := fun heq => by
              rw [heq] at hless
              exact Nat.lt_irrefl _ hless
            simp [hne, hless]

theorem eq_of_not_precedes {left right : List Char} (hleft : precedes left right = false)
    (hright : precedes right left = false) : left = right := by
  induction left generalizing right with
  | nil => cases right <;> simp_all [precedes]
  | cons character rest ih =>
    cases right with
    | nil => simp [precedes] at hright
    | cons other others =>
      simp only [precedes] at hleft hright
      by_cases heq : character = other
      · subst heq
        simp only [if_true] at hleft hright
        rw [ih hleft hright]
      · have hother : ¬other = character := fun h => heq h.symm
        simp only [heq, hother, if_false, decide_eq_false_iff_not, Nat.not_lt] at hleft hright
        exact absurd (Char.ext (UInt32.toNat.inj (Nat.le_antisymm hright hleft))) heq

theorem isKeyOrder_before : IsKeyOrder before where
  irrefl text := precedes_irrefl text.toList
  trans _ _ _ := precedes_trans
  eq_of_neither _ _ hleft hright := String.toList_inj.1 (eq_of_not_precedes hleft hright)

end Retrace.Text
