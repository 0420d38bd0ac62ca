import DstServer.Policy.Opening

/-!
# The merged windows are canonical

`merged_minutes` gives one list of ranges for every set of minutes of a day:
the ranges are sorted, disjoint and apart on the circle of the day, where a
range over midnight is one range (`Canonical`), they cover the minutes of the
windows, and schedules that cover the same minutes have the same ranges.
-/

namespace DstServer

open Lib

/-! ## Ranges on the circle of a day -/

/-- The minute of the day lies in a merged window: one that does not end
after its start wraps midnight. -/
def rangeCovers (range : Nat × Nat) (minute : Nat) : Prop :=
  if range.1 < range.2 then range.1 ≤ minute ∧ minute < range.2
  else range.1 ≤ minute ∨ minute < range.2

theorem rangeCovers_of_lt {range : Nat × Nat} (h : range.1 < range.2) {minute : Nat} :
    rangeCovers range minute ↔ range.1 ≤ minute ∧ minute < range.2 := by
  unfold rangeCovers
  rw [if_pos h]

theorem rangeCovers_of_le {range : Nat × Nat} (h : range.2 ≤ range.1) {minute : Nat} :
    rangeCovers range minute ↔ range.1 ≤ minute ∨ minute < range.2 := by
  unfold rangeCovers
  rw [if_neg (by omega)]

/-- Sorted ranges of a day that share no minute, and of which none ends where
one starts, over midnight too.  Only the whole day ends where it starts. -/
structure Canonical (ranges : List (Nat × Nat)) : Prop where
  bounds : ∀ range ∈ ranges, range.1 < 1440 ∧ 0 < range.2 ∧ range.2 ≤ 1440
  sorted : ranges.Pairwise fun a b => a.1 < b.1
  disjoint : ranges.Pairwise fun a b =>
    ∀ minute < 1440, ¬(rangeCovers a minute ∧ rangeCovers b minute)
  apart : ∀ a ∈ ranges, ∀ b ∈ ranges, a.2 % 1440 = b.1 → ranges = [(0, 1440)]

/-! ## Joining over midnight -/

theorem joinMidnight_ends (first final : Nat × Nat) (between : List (Nat × Nat)) :
    joinMidnight (first :: (between ++ [final])) =
      if first.1 = 0 ∧ final.2 = 1440 then between ++ [(final.1, first.2)]
      else first :: (between ++ [final]) := by
  cases between with
  | nil => rfl
  | cons second rest =>
    show (if first.1 = 0 ∧ ((second :: (rest ++ [final])).getLast _).2 = 1440 then
        (second :: (rest ++ [final])).dropLast ++
          [(((second :: (rest ++ [final])).getLast _).1, first.2)]
      else first :: second :: (rest ++ [final])) = _
    have hlast : (second :: (rest ++ [final])).getLast (List.cons_ne_nil _ _) = final := by
      rw [List.getLast_cons (by simp), List.getLast_append_singleton]
    have hinit : (second :: (rest ++ [final])).dropLast = second :: rest := by
      rw [← List.cons_append, List.dropLast_concat]
    rw [hlast, hinit]
    rfl

section Join

variable {ranges : List (Nat × Nat)}

/-- Two separated ranges of which one ends where the other starts. -/
theorem not_meet (h : Ranges.Separated ranges) (hproper : Ranges.Proper ranges)
    {a b : Nat × Nat} (ha : a ∈ ranges) (hb : b ∈ ranges) : a.2 ≠ b.1 := by
  intro hmeet
  apply h.not_covers_end hproper ha
  refine ⟨b, hb, le_of_eq hmeet.symm, ?_⟩
  have := hproper b hb
  simp only [id]
  omega

/-- Ranges that do not touch across midnight are canonical as they are. -/
theorem canonical_of_separated (h : Ranges.Separated ranges) (hproper : Ranges.Proper ranges)
    (hbounds : ∀ range ∈ ranges, range.1 < 1440 ∧ range.2 ≤ 1440)
    (hmidnight : ∀ a ∈ ranges, ∀ b ∈ ranges, a.2 = 1440 → b.1 = 0 → ranges = [(0, 1440)]) :
    Canonical ranges where
  bounds := by
    intro range hrange
    have hlt := hproper range hrange
    have := hbounds range hrange
    omega
  sorted := h.imp_of_mem fun ha _ hapart => (hproper _ ha).trans hapart
  disjoint := by
    refine h.imp_of_mem ?_
    intro a b ha hb hapart minute _
    rw [rangeCovers_of_lt (hproper a ha), rangeCovers_of_lt (hproper b hb)]
    omega
  apart := by
    intro a ha b hb hmeet
    have hle := (hbounds a ha).2
    rcases Nat.lt_or_ge a.2 1440 with hlt | hge
    · rw [Nat.mod_eq_of_lt hlt] at hmeet
      exact absurd hmeet (not_meet h hproper ha hb)
    · apply hmidnight a ha b hb
      · omega
      · have heq : a.2 = 1440 := by omega
        rw [heq] at hmeet
        exact hmeet.symm

/-- The two sides of midnight become one range behind the others. -/
theorem canonical_joined {first final : Nat × Nat} {between : List (Nat × Nat)}
    (h : Ranges.Separated (first :: (between ++ [final])))
    (hproper : Ranges.Proper (first :: (between ++ [final])))
    (hfirst : first.1 = 0) (hfinal : final.1 < 1440) :
    Canonical (between ++ [(final.1, first.2)]) := by
  have hafter := (List.pairwise_cons.1 h).1
  have hinner := List.pairwise_append.1 (List.pairwise_cons.1 h).2
  have hfirstProper : first.1 < first.2 := hproper first List.mem_cons_self
  have hends : first.2 < final.1 := hafter final (by simp)
  have hbetween : ∀ a ∈ between, first.2 < a.1 ∧ a.1 < a.2 ∧ a.2 < final.1 := by
    intro a ha
    refine ⟨hafter a (by simp [ha]), hproper a (by simp [ha]), ?_⟩
    exact hinner.2.2 a ha final List.mem_cons_self
  have hwrap : ∀ minute, rangeCovers (final.1, first.2) minute ↔
      final.1 ≤ minute ∨ minute < first.2 := fun minute => rangeCovers_of_le (le_of_lt hends)
  constructor
  case bounds =>
    intro range hrange
    rw [List.mem_append, List.mem_singleton] at hrange
    rcases hrange with hrange | rfl
    · have := hbetween range hrange
      omega
    · simp only
      omega
  case sorted =>
    refine List.pairwise_append.2 ⟨?_, List.pairwise_singleton _ _, ?_⟩
    · refine hinner.1.imp_of_mem ?_
      intro a b ha _ hapart
      have := hbetween a ha
      omega
    · intro a ha b hb
      rw [List.mem_singleton] at hb
      subst hb
      have := hbetween a ha
      simp only
      omega
  case disjoint =>
    refine List.pairwise_append.2 ⟨?_, List.pairwise_singleton _ _, ?_⟩
    · refine hinner.1.imp_of_mem ?_
      intro a b ha hb hapart minute _
      rw [rangeCovers_of_lt (hbetween a ha).2.1, rangeCovers_of_lt (hbetween b hb).2.1]
      omega
    · intro a ha b hb minute _
      rw [List.mem_singleton] at hb
      subst hb
      have hbounds := hbetween a ha
      rw [rangeCovers_of_lt hbounds.2.1, hwrap]
      omega
  case apart =>
    intro a ha b hb hmeet
    exfalso
    rw [List.mem_append, List.mem_singleton] at ha hb
    rcases ha with ha | rfl
    · have habounds := hbetween a ha
      rw [Nat.mod_eq_of_lt (by omega)] at hmeet
      rcases hb with hb | rfl
      · exact not_meet h hproper (by simp [ha]) (by simp [hb]) hmeet
      · simp only at hmeet
        omega
    · simp only at hmeet
      rw [Nat.mod_eq_of_lt (by omega)] at hmeet
      rcases hb with hb | rfl
      · have := hbetween b hb
        omega
      · simp only at hmeet
        omega

/-- In a list with an end at midnight and a start at midnight, these are its
last and its first range. -/
theorem ends_of_midnight {first final : Nat × Nat} {between : List (Nat × Nat)}
    (h : Ranges.Separated (first :: (between ++ [final])))
    (hfinal : final.1 < 1440) {a b : Nat × Nat}
    (ha : a ∈ first :: (between ++ [final])) (hb : b ∈ first :: (between ++ [final]))
    (hend : a.2 = 1440) (hstart : b.1 = 0) : first.1 = 0 ∧ final.2 = 1440 := by
  have hafter := (List.pairwise_cons.1 h).1
  have hinner := (List.pairwise_append.1 (List.pairwise_cons.1 h).2).2.2
  constructor
  · rcases List.mem_cons.1 hb with rfl | hb
    · exact hstart
    · have := hafter b hb
      omega
  · rcases List.mem_cons.1 ha with rfl | ha
    · have := hafter final (by simp)
      omega
    · rw [List.mem_append, List.mem_singleton] at ha
      rcases ha with ha | rfl
      · have := hinner a ha final List.mem_cons_self
        omega
      · exact hend

theorem canonical_joinMidnight (h : Ranges.Separated ranges) (hproper : Ranges.Proper ranges)
    (hbounds : ∀ range ∈ ranges, range.1 < 1440 ∧ range.2 ≤ 1440) :
    Canonical (joinMidnight ranges) := by
  match ranges with
  | [] =>
    apply canonical_of_separated h hproper hbounds
    intro a ha
    cases ha
  | [range] =>
    apply canonical_of_separated h hproper hbounds
    intro a ha b hb hend hstart
    rw [List.mem_singleton] at ha hb
    rw [hb] at hstart
    rw [ha] at hend
    rw [show range = (0, 1440) from Prod.ext hstart hend]
  | first :: second :: rest =>
    obtain ⟨between, final, heq⟩ : ∃ between final, second :: rest = between ++ [final] :=
      ⟨_, _, (List.dropLast_append_getLast (List.cons_ne_nil second rest)).symm⟩
    rw [heq] at h hproper hbounds ⊢
    have hfinal := (hbounds final (by simp)).1
    rw [joinMidnight_ends]
    split
    · rename_i hmidnight
      exact canonical_joined h hproper hmidnight.1 hfinal
    · rename_i hmidnight
      apply canonical_of_separated h hproper hbounds
      intro a ha b hb hend hstart
      exact absurd (ends_of_midnight h hfinal ha hb hend hstart) hmidnight

/-- Joining over midnight keeps the covered minutes of the day. -/
theorem covers_joinMidnight (h : Ranges.Separated ranges) (hproper : Ranges.Proper ranges)
    {minute : Nat} (hminute : minute < 1440) :
    (∃ range ∈ joinMidnight ranges, rangeCovers range minute) ↔ Ranges.Covers ranges minute := by
  have hcovers : ∀ range ∈ ranges,
      (rangeCovers range minute ↔ range.1 ≤ minute ∧ minute < range.2) :=
    fun range hrange => rangeCovers_of_lt (hproper range hrange)
  obtain heq | ⟨first, between, final, rfl, hfirst, hfinal, heq⟩ := joinMidnight_cases ranges
  · rw [heq]
    exact exists_congr fun range => and_congr_right fun hrange => hcovers range hrange
  · have hends : first.2 < final.1 := (List.pairwise_cons.1 h).1 final (by simp)
    have hwrap : rangeCovers (final.1, first.2) minute ↔
        rangeCovers first minute ∨ rangeCovers final minute := by
      rw [rangeCovers_of_le (le_of_lt hends), hcovers first (by simp), hcovers final (by simp)]
      omega
    have hsame : (∃ range ∈ between ++ [(final.1, first.2)], rangeCovers range minute) ↔
        ∃ range ∈ first :: (between ++ [final]), rangeCovers range minute := by
      simp only [List.mem_cons, List.mem_append, List.not_mem_nil, or_false, or_and_right,
        exists_or, exists_eq_left, hwrap]
      exact or_left_comm
    rw [heq, hsame]
    exact exists_congr fun range => and_congr_right fun hrange => hcovers range hrange

end Join

/-! ## The merged windows -/

theorem canonical_mergedMinutes (windows : List DailyWindow) :
    Canonical (mergedMinutes windows) := by
  obtain ⟨hseparated, hproper, hbounds⟩ := dayRanges_shape windows
  exact canonical_joinMidnight hseparated hproper hbounds

theorem covers_mergedMinutes (windows : List DailyWindow) {minute : Nat} (h : minute < 1440) :
    (∃ range ∈ mergedMinutes windows, rangeCovers range minute) ↔
      ∃ window ∈ windows, window.covers minute := by
  obtain ⟨hseparated, hproper, _⟩ := dayRanges_shape windows
  rw [← covers_dayRanges windows h]
  exact covers_joinMidnight hseparated hproper h

/-- The merged windows depend on the covered minutes only. -/
theorem mergedMinutes_congr {windows windows' : List DailyWindow}
    (h : ∀ minute < 1440,
      (∃ window ∈ windows, window.covers minute) ↔ ∃ window ∈ windows', window.covers minute) :
    mergedMinutes windows = mergedMinutes windows' := by
  obtain ⟨hseparated, hproper, hbounds⟩ := dayRanges_shape windows
  obtain ⟨hseparated', hproper', hbounds'⟩ := dayRanges_shape windows'
  apply congrArg joinMidnight
  apply hseparated.eq_of_covers hseparated' hproper hproper'
  intro minute
  by_cases hminute : minute < 1440
  · rw [covers_dayRanges windows hminute, covers_dayRanges windows' hminute]
    exact h minute hminute
  · -- no range reaches the minutes of the next day
    constructor
    · rintro ⟨range, hrange, _, hlt⟩
      have := (hbounds range hrange).2
      simp only [id] at hlt
      omega
    · rintro ⟨range, hrange, _, hlt⟩
      have := (hbounds' range hrange).2
      simp only [id] at hlt
      omega

/-- A window is split at one of its minutes but the first: the parts cover
what it covers. -/
theorem DailyWindow.covers_split {window : DailyWindow} {time : NaiveTime}
    (hin : window.covers time.minuteOfDay)
    (hne : time.minuteOfDay ≠ window.startTime.minuteOfDay) {minute : Nat} :
    window.covers minute ↔ DailyWindow.covers ⟨window.startTime, time⟩ minute ∨
      DailyWindow.covers ⟨time, window.endTime⟩ minute := by
  unfold DailyWindow.covers at *
  simp only
  split_ifs at * <;> omega

theorem merged_minutes_canonical (windows : List DailyWindow) :
    Canonical (mergedMinutes windows) ∧
    (∀ minute < 1440, (∃ range ∈ mergedMinutes windows, rangeCovers range minute) ↔
      ∃ window ∈ windows, window.covers minute) ∧
    (∀ windows', (∀ minute < 1440, (∃ window ∈ windows, window.covers minute) ↔
        ∃ window ∈ windows', window.covers minute) →
      mergedMinutes windows = mergedMinutes windows') ∧
    (∀ windows', (∀ window, window ∈ windows ↔ window ∈ windows') →
      mergedMinutes windows = mergedMinutes windows') ∧
    ∀ before window after time, windows = before ++ window :: after →
      window.covers time.minuteOfDay → time.minuteOfDay ≠ window.startTime.minuteOfDay →
      mergedMinutes windows =
        mergedMinutes (before ++ ⟨window.startTime, time⟩ :: ⟨time, window.endTime⟩ :: after) := by
  refine ⟨canonical_mergedMinutes windows, fun minute h => covers_mergedMinutes windows h,
    fun windows' h => mergedMinutes_congr h, ?_, ?_⟩
  · intro windows' hmem
    apply mergedMinutes_congr
    intro minute _
    exact exists_congr fun window => and_congr_left fun _ => hmem window
  · intro before window after time heq hin hne
    apply mergedMinutes_congr
    intro minute _
    have hsplit := @DailyWindow.covers_split window time hin hne minute
    rw [heq]
    simp only [List.mem_append, List.mem_cons, or_and_right, exists_or, exists_eq_left, hsplit]
    rw [or_assoc]

end DstServer
