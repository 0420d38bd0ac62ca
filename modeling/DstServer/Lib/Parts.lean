import Mathlib

/-!
# Parts of a list that end at a separator

`splitInclusive` follows the method of that name of a slice: it cuts a list
behind every separator.

* `splitInclusive_append` is the rule for a list that begins with whole
  parts, and `flatten_splitInclusive` says that nothing is lost.
* `isPart_of_mem` says what a part is: it has no separator before its last
  element, and it is not empty.
-/

namespace Lib

variable {α : Type} {p : α → Bool}

/-- `slice::split_inclusive` -/
def splitInclusive (p : α → Bool) : List α → List (List α)
  | [] => []
  | a :: l =>
    if p a then [a] :: splitInclusive p l
    else match splitInclusive p l with
      | [] => [[a]]
      | part :: parts => (a :: part) :: parts

/-- A part that ends with a separator. -/
def IsWhole (p : α → Bool) (part : List α) : Prop :=
  ∃ body last, part = body ++ [last] ∧ p last = true ∧ ∀ a ∈ body, p a = false

theorem splitInclusive_of_clear {l : List α} (h : ∀ a ∈ l, p a = false) (hne : l ≠ []) :
    splitInclusive p l = [l] := by
  induction l with
  | nil => exact absurd rfl hne
  | cons a l ih =>
    rw [splitInclusive, if_neg (by simp [h a List.mem_cons_self])]
    cases l with
    | nil => rfl
    | cons b l => rw [ih (fun c hc => h c (List.mem_cons_of_mem a hc)) (by simp)]

theorem splitInclusive_whole {part : List α} (h : IsWhole p part) (l : List α) :
    splitInclusive p (part ++ l) = part :: splitInclusive p l := by
  obtain ⟨body, last, rfl, hlast, hbody⟩ := h
  induction body with
  | nil => rw [List.nil_append, List.singleton_append, splitInclusive, if_pos hlast]
  | cons a body ih =>
    rw [List.cons_append, List.cons_append, splitInclusive,
      if_neg (by simp [hbody a List.mem_cons_self]),
      ih fun b hb => hbody b (List.mem_cons_of_mem a hb)]

/-- A list of whole parts and a rest. -/
theorem splitInclusive_append {parts : List (List α)} (h : ∀ part ∈ parts, IsWhole p part)
    (rest : List α) :
    splitInclusive p (parts.flatten ++ rest) = parts ++ splitInclusive p rest := by
  induction parts with
  | nil => rfl
  | cons part parts ih =>
    rw [List.flatten_cons, List.append_assoc, splitInclusive_whole (h part List.mem_cons_self),
      ih fun other hother => h other (List.mem_cons_of_mem part hother), List.cons_append]

theorem flatten_splitInclusive (l : List α) : (splitInclusive p l).flatten = l := by
  induction l with
  | nil => rfl
  | cons a l ih =>
    rw [splitInclusive]
    split
    · rw [List.flatten_cons, ih, List.singleton_append]
    · cases hsplit : splitInclusive p l with
      | nil =>
        rw [hsplit] at ih
        rw [← ih]
        rfl
      | cons part parts =>
        rw [hsplit] at ih
        rw [← ih]
        rfl

/-- A part is whole, or it has no separator. -/
theorem isPart_of_mem {l part : List α} (h : part ∈ splitInclusive p l) :
    IsWhole p part ∨ part ≠ [] ∧ ∀ a ∈ part, p a = false := by
  induction l generalizing part with
  | nil => cases h
  | cons a l ih =>
    rw [splitInclusive] at h
    split at h
    · rename_i ha
      rcases List.mem_cons.1 h with rfl | h
      · exact Or.inl ⟨[], a, rfl, ha, by simp⟩
      · exact ih h
    · rename_i ha
      have hfalse : p a = false := by simpa using ha
      cases hsplit : splitInclusive p l with
      | nil =>
        rw [hsplit, List.mem_singleton] at h
        subst h
        exact Or.inr ⟨by simp, by simpa using hfalse⟩
      | cons first rest =>
        rw [hsplit] at h
        rcases List.mem_cons.1 h with rfl | h
        · rcases ih (hsplit ▸ List.mem_cons_self) with ⟨body, last, rfl, hlast, hbody⟩ | ⟨_, hclear⟩
          · exact Or.inl ⟨a :: body, last, rfl, hlast, List.forall_mem_cons.2 ⟨hfalse, hbody⟩⟩
          · exact Or.inr ⟨by simp, List.forall_mem_cons.2 ⟨hfalse, hclear⟩⟩
        · exact ih (hsplit ▸ List.mem_cons_of_mem _ h)

end Lib
