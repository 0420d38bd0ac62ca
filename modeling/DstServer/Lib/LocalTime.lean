import Mathlib

/-!
# Local time with offsets that change

Instants and local times are counted in whole minutes.  A time zone is a
function `offset` from instants to minutes, and the local time of the
instant `u` is `u + offset u`.  `Regular offset` says that the offset is
piecewise constant, that two changes are at least seven days apart and that
no change is larger than a day.

A local time can be skipped by a change, or it can occur twice.  `reached`
is the first local time from a given one on that occurs, `first` its first
occurrence and `last` its last one.  The point of this library is that
`first` and `last` are monotone and that

* `first L ≤ u` as soon as `L ≤ u + offset u`, and
* `u ≤ last L` as soon as `u + offset u ≤ L`,

so that no argument about them has to look at gaps and overlaps again.
What a change does to a local time is `Affected`; it happens to at most one
of two local times that are a day apart (`Affected.not_next_day`).
-/

namespace Lib

namespace LocalTime

/-- Piecewise constant, with changes of at most a day at least seven days
apart: there is at most one change within any seven days. -/
structure Regular (offset : ℤ → ℤ) : Prop where
  piecewise : ∀ a, ∃ t before after, before ≤ after + 1440 ∧ after ≤ before + 1440 ∧
    ∀ u, a ≤ u → u ≤ a + 10080 → offset u = if u < t then before else after

section Regular

variable {offset : ℤ → ℤ}

/-- Between two instants that are at most seven days apart there is one
change, when their offsets differ. -/
theorem Regular.exists_change (h : Regular offset) {u v : ℤ} (huv : u ≤ v)
    (hnear : v ≤ u + 10080) (hne : offset u ≠ offset v) :
    ∃ t, u < t ∧ t ≤ v ∧ (∀ w, u ≤ w → w < t → offset w = offset u) ∧
      ∀ w, t ≤ w → w ≤ v → offset w = offset v := by
  obtain ⟨t, before, after, _, _, hw⟩ := h.piecewise u
  have hu := hw u le_rfl (by omega)
  have hv := hw v huv hnear
  have htu : u < t := by
    by_contra htu
    rw [if_neg htu] at hu
    rw [if_neg (by omega)] at hv
    exact hne (hu.trans hv.symm)
  have htv : t ≤ v := by
    by_contra htv
    rw [if_pos htu] at hu
    rw [if_pos (by omega)] at hv
    exact hne (hu.trans hv.symm)
  rw [if_pos htu] at hu
  rw [if_neg (by omega)] at hv
  refine ⟨t, htu, htv, ?_, ?_⟩
  · intro w huw hwt
    rw [hw w huw (by omega), if_pos hwt, hu]
  · intro w htw hwv
    rw [hw w (by omega) (by omega), if_neg (by omega), hv]

/-- Within seven days the offset moves by at most a day. -/
theorem Regular.near (h : Regular offset) {u v : ℤ} (huv : u ≤ v) (hnear : v ≤ u + 10080) :
    offset u ≤ offset v + 1440 ∧ offset v ≤ offset u + 1440 := by
  obtain ⟨t, before, after, hb, ha, hw⟩ := h.piecewise u
  have hu := hw u le_rfl (by omega)
  have hv := hw v huv hnear
  split at hu <;> split at hv <;> omega

/-- Two changes are at least seven days apart. -/
theorem Regular.single_change (h : Regular offset) {t₁ t₂ : ℤ} (hlt : t₁ < t₂)
    (hnear : t₂ < t₁ + 10080) (h₁ : offset (t₁ - 1) ≠ offset t₁) :
    offset (t₂ - 1) = offset t₂ := by
  obtain ⟨t, before, after, _, _, hw⟩ := h.piecewise (t₁ - 1)
  have ha := hw (t₁ - 1) le_rfl (by omega)
  have hb := hw t₁ (by omega) (by omega)
  have hc := hw (t₂ - 1) (by omega) (by omega)
  have hd := hw t₂ (by omega) (by omega)
  have ht : t = t₁ := by
    by_contra hne
    by_cases hle : t < t₁
    · rw [if_neg (by omega)] at ha hb
      exact h₁ (ha.trans hb.symm)
    · rw [if_pos (by omega)] at ha hb
      exact h₁ (ha.trans hb.symm)
  rw [if_neg (by omega)] at hc hd
  exact hc.trans hd.symm

private theorem coarse_aux (h : Regular offset) (k : ℕ) :
    ∀ u v : ℤ, u ≤ v → v ≤ u + 10080 * (k + 1) →
      7 * (offset u - offset v) ≤ 10080 + (v - u) := by
  induction k with
  | zero =>
    intro u v huv hnear
    have hbound := h.near huv (by simpa using hnear)
    omega
  | succ k ih =>
    intro u v huv hnear
    push_cast at hnear
    by_cases hshort : v ≤ u + 10080
    · have hbound := h.near huv hshort
      omega
    · have hstep := h.near (show u ≤ u + 10080 by omega) le_rfl
      have hrest := ih (u + 10080) v (by omega) (by linarith)
      omega

/-- Over any time the offset falls by at most a day and a seventh of that
time. -/
theorem Regular.coarse (h : Regular offset) {u v : ℤ} (huv : u ≤ v) :
    7 * (offset u - offset v) ≤ 10080 + (v - u) := by
  refine coarse_aux h (v - u).toNat u v huv ?_
  have hcast : ((v - u).toNat : ℤ) = v - u := Int.toNat_of_nonneg (by omega)
  rw [hcast]
  omega

end Regular

/-! ## The occurrences of a local time -/

/-- The first occurrence of the first local time from `L` on that occurs. -/
noncomputable def first (offset : ℤ → ℤ) (L : ℤ) : ℤ := sInf { u | L ≤ u + offset u }

/-- The first local time from `L` on that occurs. -/
noncomputable def reached (offset : ℤ → ℤ) (L : ℤ) : ℤ := first offset L + offset (first offset L)

/-- The last occurrence of the first local time from `L` on that occurs. -/
noncomputable def last (offset : ℤ → ℤ) (L : ℤ) : ℤ :=
  sSup { u | u + offset u ≤ reached offset L }

section Occurrences

variable {offset : ℤ → ℤ} (h : Regular offset)

include h

private theorem bddBelow_first (L : ℤ) : BddBelow { u | L ≤ u + offset u } := by
  refine ⟨min 0 (2 * (L - offset 0 - 1440) - 2), ?_⟩
  intro u hu
  have hL : L ≤ u + offset u := hu
  by_cases hpos : 0 ≤ u
  · exact (min_le_left _ _).trans hpos
  · have hcoarse := h.coarse (show u ≤ 0 by omega)
    refine (min_le_right _ _).trans ?_
    omega

private theorem nonempty_first (L : ℤ) : { u | L ≤ u + offset u }.Nonempty := by
  refine ⟨max 0 (2 * (L - offset 0 + 1440) + 2), ?_⟩
  have hcoarse := h.coarse (le_max_left 0 (2 * (L - offset 0 + 1440) + 2))
  show L ≤ max 0 (2 * (L - offset 0 + 1440) + 2) + offset (max 0 (2 * (L - offset 0 + 1440) + 2))
  generalize hv : max 0 (2 * (L - offset 0 + 1440) + 2) = v at hcoarse ⊢
  omega

theorem le_reached (L : ℤ) : L ≤ reached offset L :=
  Int.csInf_mem (nonempty_first h L) (bddBelow_first h L)

/-- Every instant with at least this local time is not before `first`. -/
theorem first_le {L u : ℤ} (hu : L ≤ u + offset u) : first offset L ≤ u :=
  csInf_le (bddBelow_first h L) hu

theorem lt_of_lt_first {L u : ℤ} (hu : u < first offset L) : u + offset u < L := by
  by_contra hL
  have hle := first_le h (not_lt.1 hL)
  omega

private theorem bddAbove_last (L : ℤ) : BddAbove { u | u + offset u ≤ reached offset L } := by
  refine ⟨max 0 (2 * (reached offset L - offset 0 + 1440) + 2), ?_⟩
  intro u hu
  have hL : u + offset u ≤ reached offset L := hu
  by_cases hneg : u ≤ 0
  · exact hneg.trans (le_max_left _ _)
  · have hcoarse := h.coarse (show 0 ≤ u by omega)
    refine le_trans ?_ (le_max_right _ _)
    omega

/-- Every instant with at most this local time is not after `last`. -/
theorem le_last_of_le_reached {L u : ℤ} (hu : u + offset u ≤ reached offset L) :
    u ≤ last offset L :=
  le_csSup (bddAbove_last h L) hu

theorem le_last {L u : ℤ} (hu : u + offset u ≤ L) : u ≤ last offset L :=
  le_last_of_le_reached h (hu.trans (le_reached h L))

theorem last_local_le (L : ℤ) : last offset L + offset (last offset L) ≤ reached offset L := by
  have hfirst : first offset L ∈ { u | u + offset u ≤ reached offset L } :=
    le_refl (reached offset L)
  exact Int.csSup_mem ⟨first offset L, hfirst⟩ (bddAbove_last h L)

theorem first_le_last (L : ℤ) : first offset L ≤ last offset L :=
  le_last_of_le_reached h le_rfl

theorem first_mono : Monotone (first offset) := by
  intro L M hLM
  exact first_le h (hLM.trans (le_reached h M))

theorem reached_mono : Monotone (reached offset) := by
  intro L M hLM
  by_cases hM : M ≤ reached offset L
  · have heq : first offset L = first offset M :=
      le_antisymm (first_mono h hLM) (first_le h hM)
    unfold reached
    rw [heq]
  · exact (le_of_lt (not_le.1 hM)).trans (le_reached h M)

theorem last_mono : Monotone (last offset) := by
  intro L M hLM
  exact le_last_of_le_reached h ((last_local_le h L).trans (reached_mono h hLM))

/-- The gap in front of a skipped local time is at most a day. -/
theorem reached_le (L : ℤ) : reached offset L ≤ L + 1440 := by
  have hbefore := lt_of_lt_first h (show first offset L - 1 < first offset L by omega)
  have hnear := h.near (show first offset L - 1 ≤ first offset L by omega) (by omega)
  unfold reached
  omega

/-- No local time between `L` and `reached L` occurs: the offset jumps
forward over it, and no change back is near. -/
theorem reached_le_of_occurs {L u : ℤ} (hu : L ≤ u + offset u) :
    reached offset L ≤ u + offset u := by
  by_contra hlt
  have hle := first_le h hu
  have hbefore := lt_of_lt_first h (show first offset L - 1 < first offset L by omega)
  unfold reached at hlt
  generalize hs : first offset L = s at *
  have hcoarse := h.coarse hle
  have hne : offset s ≠ offset u := by omega
  obtain ⟨t, hst, htu, hleft, hright⟩ := h.exists_change hle (by omega) hne
  have hjump : offset (s - 1) ≠ offset s := by omega
  have hsame := h.single_change hst (by omega) hjump
  rw [hleft (t - 1) (by omega) (by omega), hright t le_rfl htu] at hsame
  exact hne hsame

/-- The last occurrence has the local time that was reached. -/
theorem last_local (L : ℤ) : last offset L + offset (last offset L) = reached offset L := by
  have hle := last_local_le h L
  have hfirst := first_le_last h L
  by_contra hne
  have hnext : reached offset L <
      (last offset L + 1) + offset (last offset L + 1) := by
    by_contra hback
    have hlater := le_last_of_le_reached h (not_lt.1 hback)
    omega
  unfold reached at hle hne hnext
  generalize first offset L = s at *
  generalize last offset L = e at *
  have hcoarse := h.coarse hfirst
  have hdiff : offset s ≠ offset e := by omega
  obtain ⟨t, hst, hte, hleft, hright⟩ := h.exists_change hfirst (by omega) hdiff
  have hdrop : offset (t - 1) ≠ offset t := by
    rw [hleft (t - 1) (by omega) (by omega), hright t le_rfl hte]
    exact hdiff
  have hsame := h.single_change (show t < e + 1 by omega) (by omega) hdrop
  rw [show e + 1 - 1 = e by omega] at hsame
  omega

/-- The first local time from `L` on that occurs. -/
theorem isLeast_reached (L : ℤ) :
    IsLeast { M | L ≤ M ∧ ∃ u, u + offset u = M } (reached offset L) := by
  refine ⟨⟨le_reached h L, first offset L, rfl⟩, ?_⟩
  rintro M ⟨hLM, u, rfl⟩
  exact reached_le_of_occurs h hLM

theorem isLeast_first (L : ℤ) :
    IsLeast { u | u + offset u = reached offset L } (first offset L) := by
  refine ⟨rfl, ?_⟩
  intro u hu
  have hlocal : u + offset u = reached offset L := hu
  exact first_le h (by rw [hlocal]; exact le_reached h L)

theorem isGreatest_last (L : ℤ) :
    IsGreatest { u | u + offset u = reached offset L } (last offset L) := by
  refine ⟨last_local h L, ?_⟩
  intro u hu
  have hlocal : u + offset u = reached offset L := hu
  exact le_last_of_le_reached h (le_of_eq hlocal)

end Occurrences

/-! ## What a change does to a local time -/

/-- A change of the offset skips the local time or repeats it. -/
def Affected (offset : ℤ → ℤ) (L : ℤ) : Prop :=
  ∃ t, (t + offset (t - 1) ≤ L ∧ L < t + offset t) ∨ (t + offset t ≤ L ∧ L < t + offset (t - 1))

section Affected

variable {offset : ℤ → ℤ} (h : Regular offset)

include h

/-- A local minute that is not affected takes place between its last
occurrence and the first one of the next minute. -/
theorem affected_of_first_le_last {L : ℤ} (hclosed : first offset (L + 1) ≤ last offset L) :
    Affected offset L := by
  have hlast := last_local h L
  have hreached := le_reached h L
  have hnext := le_reached h (L + 1)
  have hbefore := lt_of_lt_first h
    (show first offset (L + 1) - 1 < first offset (L + 1) by omega)
  unfold reached at hnext
  generalize hs : first offset (L + 1) = s at *
  by_cases hskip : s - 1 + offset (s - 1) < L
  · -- the local time jumps from below `L` over `L`
    exact ⟨s, .inl ⟨by omega, by omega⟩⟩
  · -- `L` occurs just before `s`, so the last occurrence lies after a change back
    have hoccurs := reached_le_of_occurs h (show L ≤ s - 1 + offset (s - 1) by omega)
    generalize last offset L = e at *
    have hcoarse := h.coarse hclosed
    have hdiff : offset s ≠ offset e := by omega
    obtain ⟨t, hst, hte, hleft, hright⟩ := h.exists_change hclosed (by omega) hdiff
    refine ⟨t, .inr ?_⟩
    rw [hleft (t - 1) (by omega) (by omega), hright t le_rfl hte]
    omega

/-- A range of local times that takes no time is skipped. -/
theorem affected_of_last_le_first {a b : ℤ} (hab : a < b)
    (hempty : last offset b ≤ first offset a) : Affected offset a := by
  have hfirst := first_mono h (le_of_lt hab)
  have hspan := first_le_last h b
  have hbefore := lt_of_lt_first h (show first offset a - 1 < first offset a by omega)
  have hreached := le_reached h b
  have heq : first offset b = first offset a := by omega
  unfold reached at hreached
  rw [heq] at hreached
  exact ⟨first offset a, .inl ⟨by omega, by omega⟩⟩

/-- A change affects at most one of two local times that are a day apart,
and no other change is near. -/
theorem Affected.not_next_day {L : ℤ} (hL : Affected offset L) :
    ¬Affected offset (L + 1440) := by
  rintro ⟨t₂, h₂⟩
  obtain ⟨t₁, h₁⟩ := hL
  have hstep₁ := h.near (show t₁ - 1 ≤ t₁ by omega) (by omega)
  have hstep₂ := h.near (show t₂ - 1 ≤ t₂ by omega) (by omega)
  have hne₁ : offset (t₁ - 1) ≠ offset t₁ := by omega
  have hne₂ : offset (t₂ - 1) ≠ offset t₂ := by omega
  rcases lt_trichotomy t₁ t₂ with hlt | rfl | hlt
  · have hcoarse := h.coarse (le_of_lt hlt)
    exact hne₂ (h.single_change hlt (by omega) hne₁)
  · omega
  · have hcoarse := h.coarse (le_of_lt hlt)
    exact hne₁ (h.single_change hlt (by omega) hne₂)

end Affected

/-! ## The place of an instant among the occurrences -/

section Now

variable {offset : ℤ → ℤ} (h : Regular offset) {n o L : ℤ}

include h

/-- An instant in the minute `n` has the offset of the beginning or of the
end of that minute.  A minute of local time that lies before it and that
takes place is over. -/
theorem last_le_of_lt (ho : o = offset n ∨ o = offset (n + 1)) (hL : L < n + o)
    (hhole : last offset L < first offset (L + 1)) : last offset L ≤ n := by
  rcases ho with rfl | rfl
  · have hle := first_le h (show L + 1 ≤ n + offset n by omega)
    omega
  · have hle := first_le h (show L + 1 ≤ n + 1 + offset (n + 1) by omega)
    omega

/-- A later local time has an occurrence that is still to come. -/
theorem lt_last_of_lt (ho : o = offset n ∨ o = offset (n + 1)) (hL : n + o < L) :
    n < last offset L := by
  have hlocal := last_local h L
  have hreached := le_reached h L
  rcases ho with rfl | rfl
  · have hle := le_last h (show n + offset n ≤ L by omega)
    rcases hle.lt_or_eq with hlt | heq
    · exact hlt
    · rw [← heq] at hlocal
      omega
  · have hle := le_last h (show n + 1 + offset (n + 1) ≤ L by omega)
    omega

/-- A local time that is more than a day later did not occur yet. -/
theorem lt_first_of_lt (ho : o = offset n ∨ o = offset (n + 1)) (hL : n + o + 1440 < L) :
    n < first offset L := by
  have hreached := le_reached h L
  unfold reached at hreached
  by_contra hle
  rcases ho with rfl | rfl
  · have hcoarse := h.coarse (not_lt.1 hle)
    omega
  · have hcoarse := h.coarse (show first offset L ≤ n + 1 by omega)
    omega

end Now

end LocalTime

end Lib
