import DstServer.Lib.Outcome

/-!
# Runs of a labelled transition system

`Run step s ls t` says that the labels `ls`, taken in order, lead from the
state `s` to the state `t`.  It is the snoc form of a reflexive transitive
closure, so that an induction on a run adds the last step.

* `Run.invariant` turns a step lemma into a run lemma.
* `Run.append` joins two runs; `Run.split` and `Run.split_at` cut a run at a
  point of its label list.
* `Run.increasing` is the rule for values that are handed out in order, each
  above the last one.

The second part instantiates this to a machine whose operations can fail.
A label is then an `Event`: the state before the operation, the operation
and its result.  A failed operation leaves the state as it was.

The third part is about lists that grow at the end, which is how the
outputs of a run grow: `destutter_ne_concat` is the rule for the list
without adjacent repetitions.
-/

namespace Lib

/-! ## Runs -/

section Run

variable {σ ℓ : Type} {step : σ → ℓ → σ → Prop}

/-- The labels `ls` lead from the first state to the second. -/
inductive Run (step : σ → ℓ → σ → Prop) (s : σ) : List ℓ → σ → Prop
  | nil : Run step s [] s
  | snoc {ls : List ℓ} {t u : σ} {l : ℓ} :
      Run step s ls t → step t l u → Run step s (ls ++ [l]) u

namespace Run

theorem append {s t u : σ} {ls ls' : List ℓ} (h : Run step s ls t) (h' : Run step t ls' u) :
    Run step s (ls ++ ls') u := by
  induction h' with
  | nil => rwa [List.append_nil]
  | snoc _ hstep ih =>
    rw [← List.append_assoc]
    exact ih.snoc hstep

theorem nil_iff {s t : σ} : Run step s [] t ↔ s = t := by
  constructor
  · intro h
    generalize hls : ([] : List ℓ) = ls at h
    cases h with
    | nil => rfl
    | snoc => simp at hls
  · rintro rfl
    exact Run.nil

theorem concat_iff {s u : σ} {ls : List ℓ} {l : ℓ} :
    Run step s (ls ++ [l]) u ↔ ∃ t, Run step s ls t ∧ step t l u := by
  constructor
  · intro h
    generalize hls : ls ++ [l] = ls' at h
    cases h with
    | nil => simp at hls
    | snoc hrun hstep =>
      obtain ⟨rfl, hl⟩ := List.append_inj' hls rfl
      cases hl
      exact ⟨_, hrun, hstep⟩
  · rintro ⟨t, hrun, hstep⟩
    exact hrun.snoc hstep

theorem split {s u : σ} {ls ls' : List ℓ} (h : Run step s (ls ++ ls') u) :
    ∃ t, Run step s ls t ∧ Run step t ls' u := by
  induction ls' using List.reverseRecOn generalizing u with
  | nil =>
    rw [List.append_nil] at h
    exact ⟨u, h, Run.nil⟩
  | append_singleton ls' l ih =>
    rw [← List.append_assoc, concat_iff] at h
    obtain ⟨v, hrun, hstep⟩ := h
    obtain ⟨t, hrun, hrun'⟩ := ih hrun
    exact ⟨t, hrun, hrun'.snoc hstep⟩

/-- The step of a label inside a run. -/
theorem split_at {s u : σ} {ls ls' : List ℓ} {l : ℓ} (h : Run step s (ls ++ l :: ls') u) :
    ∃ t t', Run step s ls t ∧ step t l t' ∧ Run step t' ls' u := by
  rw [List.append_cons] at h
  obtain ⟨t', hrun, hrest⟩ := h.split
  obtain ⟨t, hbefore, hstep⟩ := concat_iff.1 hrun
  exact ⟨t, t', hbefore, hstep, hrest⟩

/-- A property that every step keeps holds after every run. -/
theorem invariant {inv : σ → Prop} (hstep : ∀ s l t, inv s → step s l t → inv t) {s t : σ}
    {ls : List ℓ} (h : Run step s ls t) (hs : inv s) : inv t := by
  induction h with
  | nil => exact hs
  | snoc _ hlast ih => exact hstep _ _ _ ih hlast

/-- A function that takes its steps one after the other has a run. -/
theorem of_foldlM {next : σ → ℓ → Option σ} {ls : List ℓ} {s t : σ}
    (hnext : ∀ s, ∀ l ∈ ls, ∀ t, next s l = some t → step s l t)
    (h : ls.foldlM next s = some t) : Run step s ls t := by
  induction ls using List.reverseRecOn generalizing t with
  | nil =>
    cases h
    exact Run.nil
  | append_singleton ls l ih =>
    rw [List.foldlM_append, Option.bind_eq_bind, Option.bind_eq_some_iff] at h
    obtain ⟨u, hbefore, hlast⟩ := h
    rw [List.foldlM_cons, Option.bind_eq_bind, Option.bind_eq_some_iff] at hlast
    obtain ⟨v, hlast, hend⟩ := hlast
    cases hend
    refine (ih (fun s l hl => hnext s l (List.mem_append_left _ hl)) hbefore).snoc ?_
    exact hnext u l (List.mem_append_right _ (List.mem_singleton_self l)) _ hlast

end Run

/-! ## Values handed out in order -/

variable {α : Type} [Preorder α]

/-- A step that hands out no value, or one above the last one that was
handed out, and remembers it. -/
structure Advances (last given last' : Option α) : Prop where
  above : ∀ value ∈ given, ∀ previous ∈ last, previous < value
  remembered : last' = given.or last

theorem advances_none (last : Option α) : Advances last none last where
  above := fun _ h => nomatch h
  remembered := rfl

/-- The values that a run hands out increase. -/
theorem Run.increasing (inv : σ → Prop) (last : σ → Option α) (given : ℓ → Option α)
    (hstep : ∀ s l t, inv s → step s l t → inv t ∧ Advances (last s) (given l) (last t)) {s t : σ}
    {ls : List ℓ} (h : Run step s ls t) (hs : inv s) :
    (ls.filterMap given).Pairwise (· < ·) := by
  suffices hall : inv t ∧ (ls.filterMap given).Pairwise (· < ·) ∧
      ∀ value ∈ ls.filterMap given, ∃ newest, last t = some newest ∧ value ≤ newest from hall.2.1
  induction h with
  | nil => exact ⟨hs, .nil, by simp⟩
  | @snoc ls t u l _ hlabel ih =>
    obtain ⟨hinv, hpairs, hle⟩ := ih
    obtain ⟨hinv', hadvance⟩ := hstep t l u hinv hlabel
    refine ⟨hinv', ?_⟩
    rw [List.filterMap_append, hadvance.remembered]
    cases hgiven : given l with
    | none =>
      simp only [List.filterMap_cons, hgiven, List.filterMap_nil, List.append_nil]
      exact ⟨hpairs, hle⟩
    | some value =>
      simp only [List.filterMap_cons, hgiven, List.filterMap_nil]
      have hbelow : ∀ earlier ∈ ls.filterMap given, earlier < value := by
        intro earlier hearlier
        obtain ⟨newest, hnewest, hearlier⟩ := hle earlier hearlier
        exact lt_of_le_of_lt hearlier (hadvance.above value hgiven newest hnewest)
      constructor
      · rw [List.pairwise_append]
        refine ⟨hpairs, List.pairwise_singleton _ _, fun earlier hearlier last hlast => ?_⟩
        rw [List.mem_singleton.1 hlast]
        exact hbelow earlier hearlier
      · intro other hother
        refine ⟨value, rfl, ?_⟩
        rcases List.mem_append.1 hother with hother | hother
        · exact le_of_lt (hbelow other hother)
        · exact le_of_eq (List.mem_singleton.1 hother)

end Run

/-! ## Machines whose operations can fail -/

section Machine

variable {σ ο ρ ε : Type}

/-- One call of an operation: the state before it, the operation and what
it returned. -/
structure Event (σ ο ρ ε : Type) where
  before : σ
  op : ο
  result : Outcome ε ρ

/-- The event is a call in the first state, and the second is the state
after it: the new one after a success, the old one after a failure. -/
def Fires (call : ο → σ → Outcome ε (ρ × σ)) (s : σ) (e : Event σ ο ρ ε) (t : σ) : Prop :=
  e.before = s ∧
    match call e.op s with
    | .ok (result, after) => e.result = .ok result ∧ t = after
    | .error fault => e.result = .error fault ∧ t = s

variable {call : ο → σ → Outcome ε (ρ × σ)} {s t : σ} {e : Event σ ο ρ ε}

/-- A call either succeeds and moves, or fails and stays. -/
theorem Fires.cases (h : Fires call s e t) :
    (∃ result, call e.op s = .ok (result, t) ∧ e.result = .ok result) ∨
      ∃ fault, call e.op s = .error fault ∧ e.result = .error fault ∧ t = s := by
  obtain ⟨_, h⟩ := h
  split at h
  · rename_i result after hcall
    exact Or.inl ⟨result, by rw [hcall, h.2], h.1⟩
  · rename_i fault hcall
    exact Or.inr ⟨fault, hcall, h⟩

theorem Fires.of_ok {op : ο} {result : ρ} (h : call op s = .ok (result, t)) :
    Fires call s ⟨s, op, .ok result⟩ t := by
  refine ⟨rfl, ?_⟩
  rw [h]
  exact ⟨rfl, rfl⟩

/-- A property that every successful call keeps is kept by every event. -/
theorem Fires.invariant {inv : σ → Prop}
    (hcall : ∀ op s result t, inv s → call op s = .ok (result, t) → inv t)
    (h : Fires call s e t) (hs : inv s) : inv t := by
  rcases h.cases with ⟨result, hok, _⟩ | ⟨_, _, _, rfl⟩
  · exact hcall _ _ _ _ hs hok
  · exact hs

end Machine

/-! ## Lists that grow at the end -/

section Destutter

variable {α : Type} [DecidableEq α]

private theorem destutter'_ne_concat (a b : α) (l : List α) :
    (l ++ [a]).destutter' (· ≠ ·) b =
      if (b :: l).getLast? = some a then l.destutter' (· ≠ ·) b
      else l.destutter' (· ≠ ·) b ++ [a] := by
  induction l generalizing b with
  | nil =>
    by_cases h : b = a
    · simp [h]
    · simp [h]
  | cons c l ih =>
    rw [List.cons_append, List.destutter'_cons, List.destutter'_cons, List.getLast?_cons_cons]
    by_cases h : b = c
    · subst h
      rw [if_neg (not_not.2 rfl), if_neg (not_not.2 rfl)]
      exact ih b
    · rw [if_pos h, if_pos h, ih c]
      split <;> rfl

/-- An element that repeats the last one is dropped, any other one is
appended. -/
theorem destutter_ne_concat (l : List α) (a : α) :
    (l ++ [a]).destutter (· ≠ ·) =
      if l.getLast? = some a then l.destutter (· ≠ ·) else l.destutter (· ≠ ·) ++ [a] := by
  cases l with
  | nil => simp
  | cons b l => exact destutter'_ne_concat a b l

end Destutter

end Lib
