/-!
# Lists ordered by key

A finite map as a list of entries in the order of their keys, each key once. Equal maps are equal lists.
-/

namespace Retrace

structure IsKeyOrder {κ : Type} (before : κ → κ → Bool) : Prop where
  irrefl : ∀ key, before key key = false
  trans : ∀ first second third, before first second = true → before second third = true →
    before first third = true
  eq_of_neither : ∀ left right, before left right = false → before right left = false → left = right

namespace Ordered

variable {κ ν : Type}

def IsSorted (before : κ → κ → Bool) (entries : List (κ × ν)) : Prop :=
  entries.Pairwise fun first second => before first.1 second.1 = true

def insert (before : κ → κ → Bool) (key : κ) (value : ν) : List (κ × ν) → List (κ × ν)
  | [] => [(key, value)]
  | entry :: rest =>
    if before key entry.1 then (key, value) :: entry :: rest
    else if before entry.1 key then entry :: insert before key value rest
    else (key, value) :: rest

/-- Takes the value under a key away. -/
def erase [DecidableEq κ] (key : κ) (entries : List (κ × ν)) : List (κ × ν) :=
  entries.filter fun entry => decide (entry.1 ≠ key)

theorem mem_insert {before : κ → κ → Bool} {key : κ} {value : ν} {entries : List (κ × ν)}
    {entry : κ × ν} (hmem : entry ∈ insert before key value entries) :
    entry = (key, value) ∨ entry ∈ entries := by
  induction entries with
  | nil => simpa [insert] using hmem
  | cons first rest ih =>
    simp only [insert] at hmem
    split at hmem
    · simpa using hmem
    · split at hmem
      · rcases List.mem_cons.1 hmem with rfl | hmem
        · exact .inr List.mem_cons_self
        · exact (ih hmem).imp_right (List.mem_cons_of_mem _)
      · rcases List.mem_cons.1 hmem with rfl | hmem
        · exact .inl rfl
        · exact .inr (List.mem_cons_of_mem _ hmem)

theorem isSorted_insert {before : κ → κ → Bool} (horder : IsKeyOrder before) (key : κ) (value : ν)
    {entries : List (κ × ν)} (hsorted : IsSorted before entries) :
    IsSorted before (insert before key value entries) := by
  induction entries with
  | nil => simp [insert, IsSorted]
  | cons first rest ih =>
    obtain ⟨hfirst, hrest⟩ := List.pairwise_cons.1 hsorted
    simp only [insert]
    split
    · next hbefore =>
      refine List.pairwise_cons.2 ⟨fun entry hmem => ?_, hsorted⟩
      rcases List.mem_cons.1 hmem with rfl | hmem
      · exact hbefore
      · exact horder.trans _ _ _ hbefore (hfirst entry hmem)
    · next hnot =>
      split
      · next hafter =>
        refine List.pairwise_cons.2 ⟨fun entry hmem => ?_, ih hrest⟩
        rcases mem_insert hmem with rfl | hmem
        · exact hafter
        · exact hfirst entry hmem
      · next hnotAfter =>
        have heq : key = first.1 :=
          horder.eq_of_neither _ _ (by simpa using hnot) (by simpa using hnotAfter)
        refine List.pairwise_cons.2 ⟨fun entry hmem => ?_, hrest⟩
        rw [heq]
        exact hfirst entry hmem

theorem isSorted_erase [DecidableEq κ] {before : κ → κ → Bool} (key : κ) {entries : List (κ × ν)}
    (hsorted : IsSorted before entries) : IsSorted before (erase key entries) :=
  List.Pairwise.filter _ hsorted

end Ordered

end Retrace
